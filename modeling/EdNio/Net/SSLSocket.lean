import EdNio.Library.Transition
import EdNio.Net.DerivedSocket

/-!
# EdSSLSocket

The handshake of `EdSSLSocket` and the readiness that it waits for. `changeSSLSockEvent`
watches for what OpenSSL wants, and for nothing else; `OnRead` goes on with the handshake, and
`OnWrite` does nothing.
-/

namespace EdNio.Net
open Transition SocketObj

inductive SSLEvent
  | SSL_EVENT_DISCONNECTED
  | SSL_EVENT_CONNECTED
  | SSL_EVENT_READ
  | SSL_EVENT_WRITE
deriving DecidableEq, Repr

/-- The pointers are true when they are not NULL; `connects` counts the calls of
`procSSLConnect`. -/
structure SSLFields where
  mSSL : Bool
  mSSLCtx : Bool
  mSessionConencted : Bool
  connects : Nat
deriving DecidableEq, Repr

abbrev EdSSLSocket := SocketObj SSLFields SSLEvent

namespace EdSSLSocket

variable (s : EdSSLSocket)

def new : EdSSLSocket where
  sock := .new
  own := ⟨false, false, false, 0⟩
  lastSockErrorNo := 0
  stack := []
  setBy := .opened

def changeSSLSockEvent (err : SSLError) (pevt : Option Nat) : Option EdSSLSocket :=
  match err with
  | .SSL_ERROR_WANT_WRITE => s.changeEvent ⟨false, true, false⟩ (.want .SSL_ERROR_WANT_WRITE) pevt
  | .SSL_ERROR_WANT_READ => s.changeEvent ⟨true, false, false⟩ (.want .SSL_ERROR_WANT_READ) pevt
  | _ => some s

def close : EdSSLSocket :=
  let t := if s.own.mSSL then
      { s with own := { s.own with mSSL := false, mSSLCtx := false, mSessionConencted := false } }
    else s
  t.closeSock

def sslClass : SSLClass SSLFields SSLEvent where
  connected s := some ({ s with own := { s.own with mSessionConencted := true } }.push
    (.listener .SSL_EVENT_CONNECTED))
  closeNeedEnd s := s.procSSLErrCloseNeedEnd .SSL_EVENT_DISCONNECTED
  changeSSLSockEvent := changeSSLSockEvent

/-- `SSL_connect` and `SSL_accept` do not take NULL. -/
def procSSLConnect (a : Answers) : Option EdSSLSocket :=
  if s.own.mSSL then
    sslClass.procSSLConnect { s with own := { s.own with connects := s.own.connects + 1 } } a
  else none

def procSSLRead (a : Answers) : Option EdSSLSocket :=
  if s.own.mSessionConencted = false then s.procSSLConnect a
  else some (s.push (.listener .SSL_EVENT_READ))

/-- `SSL_new` gives NULL for a context of NULL, and `SSL_set_fd` does not take it. -/
def startHandshake (a : Answers) : Option EdSSLSocket :=
  if s.own.mSSL = false ∧ s.own.mSessionConencted = false then
    if s.own.mSSLCtx then procSSLConnect { s with own := { s.own with mSSL := true } } a
    else none
  else some s

def OnDisconnected : EdSSLSocket :=
  s.close.push (.listener .SSL_EVENT_DISCONNECTED)

def overrides : Overrides SSLFields SSLEvent where
  OnRead := procSSLRead
  OnWrite s _ := some s
  OnConnected := startHandshake
  OnDisconnected := OnDisconnected
  close := close

def sslAccept (a : Answers) : Option EdSSLSocket :=
  s.procSSLConnect a

def send (a : Answers) : Option EdSSLSocket :=
  if s.own.mSSL then
    if a.ssl.ret ≤ 0 then s.changeSSLSockEvent a.ssl.err a.pevt else some s
  else none

def recv (a : Answers) : Option EdSSLSocket :=
  if s.own.mSSL then sslClass.recv s a else none

/-- `ctx` says that the context given, or the default one, is not NULL. -/
def openSSLClientSock (fd : Option Nat) (ctx : Bool) : EdSSLSocket :=
  let t : EdSSLSocket := { s with sock := s.sock.openSock .SOCK_TYPE_TCP fd }
  if fd.isSome then { t with own := { t.own with mSSLCtx := ctx } } else t

def openSSLChildSock (fd : Nat) (ctx : Bool) (pevt : Option Nat) : Option EdSSLSocket :=
  (s.sock.openChildSock fd pevt).bind (fun k =>
    let t := s.withSock k .opened
    if ctx then some { t with own := { t.own with mSSLCtx := true, mSSL := true } } else none)

def connect (fd : Option Nat) (pevt : Option Nat) : Option EdSSLSocket :=
  (s.sock.connectIp fd pevt).map (fun k => s.withSock k .connecting)

end EdSSLSocket

/-- A call of the user. -/
inductive SSLCall
  | openSSLClientSock (fd : Option Nat) (ctx : Bool)
  | openSSLChildSock (fd : Nat) (ctx : Bool) (pevt : Option Nat)
  | connect (fd : Option Nat) (pevt : Option Nat)
  | sslAccept (a : Answers)
  | send (a : Answers)
  | recv (a : Answers)
  | close
deriving DecidableEq, Repr

/-- The user calls the socket, or does something with another socket of the task; an event
comes, or the task goes on with one. -/
inductive SSLAction
  | call (c : SSLCall)
  | otherSocket (lastSockErrorNo : Int)
  | report (read hangup write : Bool)
  | next (a : Answers)
deriving DecidableEq, Repr

namespace EdSSLSocket

variable (s : EdSSLSocket)

def call : SSLCall → Option EdSSLSocket
  | .openSSLClientSock fd ctx => some (s.openSSLClientSock fd ctx)
  | .openSSLChildSock fd ctx pevt => s.openSSLChildSock fd ctx pevt
  | .connect fd pevt => s.connect fd pevt
  | .sslAccept a => s.sslAccept a
  | .send a => s.send a
  | .recv a => s.recv a
  | .close => some s.close

def step : SSLAction → Option EdSSLSocket
  | .call c => if s.userRuns then s.call c else none
  | .otherSocket n => if s.userRuns then some { s with lastSockErrorNo := n } else none
  | .report read hangup write => s.report read hangup write
  | .next a => overrides.next s a

end EdSSLSocket

def sslSocket : System EdSSLSocket SSLAction where
  init s := s = EdSSLSocket.new
  step := EdSSLSocket.step

namespace EdSSLSocket

variable {s t : EdSSLSocket} {a : Answers}

/-- A handshake is under way, and what was last watched for is the error `err`. -/
structure Awaits (s : EdSSLSocket) (err : SSLError) : Prop where
  registered : s.sock.mEvt.isSome = true
  session : s.own.mSSL = true
  unconnected : s.own.mSessionConencted = false
  wanted : s.setBy = .want err

/-- There is an event to wait for, and each one that is watched for calls `procSSLConnect`,
whatever comes out of it. -/
structure Resumes (s : EdSSLSocket) : Prop where
  watches : ∃ e, s.sock.mEvt = some e ∧ (e.interest.evtRead = true ∨ e.interest.evtWrite = true)
  read : ∀ e a, s.sock.mEvt = some e → e.interest.evtRead = true →
    ∃ t, overrides.OnEventRead s a = some t ∧ t.own.connects = s.own.connects + 1
  write : ∀ e a, s.sock.mEvt = some e → e.interest.evtWrite = true →
    ∃ t, overrides.OnEventWrite s a = some t ∧ t.own.connects = s.own.connects + 1

/-- The base socket serves, and is watched as its cause asks for. -/
structure Inv (s : EdSSLSocket) : Prop where
  watched : s.WatchedAs false
  serves : s.sock.Serves

lemma Inv.changeEvent (h : s.Inv) {w : Watch} {pevt : Option Nat}
    (ht : s.changeEvent (watchFlags false w) w pevt = some t) : t.Inv := by
  refine ⟨changeEvent_watchedAs ht, ?_⟩
  obtain ⟨k, hk, rfl⟩ := changeEvent_cases ht
  exact h.serves.changeEvent hk

lemma Inv.changeSSLSockEvent (h : s.Inv) {err : SSLError} {pevt : Option Nat}
    (ht : s.changeSSLSockEvent err pevt = some t) : t.Inv := by
  unfold EdSSLSocket.changeSSLSockEvent at ht
  split at ht
  · exact h.changeEvent ht
  · exact h.changeEvent ht
  · cases ht
    exact h

lemma Inv.closeNeedEnd (h : s.Inv) {e : SSLEvent} (ht : s.procSSLErrCloseNeedEnd e = some t) :
    t.Inv := by
  rw [procSSLErrCloseNeedEnd_cases ht]
  exact ⟨h.watched, h.serves⟩

lemma Inv.procSSLConnect (h : s.Inv) (ht : s.procSSLConnect a = some t) : t.Inv := by
  unfold EdSSLSocket.procSSLConnect at ht
  split at ht
  · have hs : Inv { s with own := { s.own with connects := s.own.connects + 1 } } :=
      ⟨h.watched, h.serves⟩
    refine SSLClass.procSSLConnect_keeps (I := Inv) ?_ (fun hs => hs.closeNeedEnd)
      (fun ht => hs.changeSSLSockEvent ht) (fun hs => ⟨hs.watched, hs.serves⟩) hs ht
    intro t ht
    cases ht
    exact ⟨h.watched, h.serves⟩
  · cases ht

lemma Inv.close (h : s.Inv) : s.close.Inv := by
  unfold EdSSLSocket.close
  dsimp only
  split <;> exact ⟨h.watched.closeSock, h.serves.close⟩

lemma inv_keeps : overrides.Keeps Inv where
  stack _ hs := ⟨hs.watched, hs.serves⟩
  read hs ht := by
    change EdSSLSocket.procSSLRead _ _ = some _ at ht
    unfold EdSSLSocket.procSSLRead at ht
    split at ht
    · exact hs.procSSLConnect ht
    · cases ht
      exact ⟨hs.watched, hs.serves⟩
  write hs ht := by
    cases ht
    exact hs
  connect {s t a k} hs hst hk ht := by
    have hinv : Inv { s with sock := k, setBy := .established } :=
      ⟨EdSocket.changeEvent_interest hk, hs.serves.completeConnection hk⟩
    change EdSSLSocket.startHandshake _ _ = some _ at ht
    unfold EdSSLSocket.startHandshake at ht
    split at ht
    · split at ht
      · refine Inv.procSSLConnect ?_ ht
        exact ⟨hinv.watched, hinv.serves⟩
      · cases ht
    · cases ht
      exact hinv
  disconnect hs := ⟨hs.close.watched, hs.close.serves⟩
  closeSock hs := ⟨hs.watched.closeSock, hs.serves.close⟩
  close hs := hs.close

lemma Inv.recv (h : s.Inv) (ht : s.recv a = some t) : t.Inv := by
  unfold EdSSLSocket.recv at ht
  split at ht
  · exact SSLClass.recv_keeps (fun ht => h.changeSSLSockEvent ht)
      (fun hs => ⟨hs.watched, hs.serves⟩) h ht
  · cases ht

lemma Inv.send (h : s.Inv) (ht : s.send a = some t) : t.Inv := by
  unfold EdSSLSocket.send at ht
  split at ht
  · split at ht
    · exact h.changeSSLSockEvent ht
    · cases ht
      exact h
  · cases ht

lemma Inv.openSSLClientSock (h : s.Inv) (fd : Option Nat) (ctx : Bool) :
    (s.openSSLClientSock fd ctx).Inv := by
  unfold EdSSLSocket.openSSLClientSock
  dsimp only
  split <;> exact ⟨h.watched, ⟨h.serves.listen, fun _ => rfl⟩⟩

lemma Inv.openSSLChildSock (h : s.Inv) {fd : Nat} {ctx : Bool} {pevt : Option Nat}
    (ht : s.openSSLChildSock fd ctx pevt = some t) : t.Inv := by
  unfold EdSSLSocket.openSSLChildSock at ht
  obtain ⟨k, hk, ht⟩ := Option.bind_eq_some_iff.mp ht
  dsimp only at ht
  split at ht
  · cases ht
    exact ⟨h.watched.withSock (EdSocket.openChildSock_registers hk) rfl,
      h.serves.openChildSock hk⟩
  · cases ht

lemma Inv.connect (h : s.Inv) {fd pevt : Option Nat} (ht : s.connect fd pevt = some t) :
    t.Inv := by
  obtain ⟨k, hk, rfl⟩ := Option.map_eq_some_iff.mp ht
  refine ⟨?_, h.serves.connectIp hk⟩
  rcases EdSocket.connectIp_cases hk with ⟨-, hr⟩ | ⟨-, rfl⟩
  · exact h.watched.withSock hr (EdSocket.opened_mEvt _ _)
  · exact h.watched.withSock .refl rfl

lemma Inv.step (h : s.Inv) {x : SSLAction} (ht : s.step x = some t) : t.Inv := by
  cases x with
  | call c =>
    obtain ⟨-, ht⟩ := Option.ite_none_right_eq_some.mp ht
    cases c with
    | openSSLClientSock fd ctx =>
      cases ht
      exact h.openSSLClientSock fd ctx
    | openSSLChildSock fd ctx pevt => exact h.openSSLChildSock ht
    | connect fd pevt => exact h.connect ht
    | sslAccept a => exact h.procSSLConnect ht
    | send a => exact h.send ht
    | recv a => exact h.recv ht
    | close =>
      cases ht
      exact h.close
  | otherSocket n =>
    obtain ⟨-, ht⟩ := Option.ite_none_right_eq_some.mp ht
    cases ht
    exact ⟨h.watched, h.serves⟩
  | report read hangup write => exact inv_keeps.report h ht
  | next a => exact inv_keeps.next h ht

lemma Inv.reachable (h : sslSocket.Reachable s) : s.Inv := by
  refine h.invariant ?_ (fun _ _ _ _ hI _ hs => hI.step hs)
  rintro s rfl
  exact ⟨fun e he => (by cases he), ⟨rfl, fun he => (by cases he)⟩⟩

/-- On a socket that is registered and has a task, the events can be changed. -/
lemma changeSSLSockEvent_returns {e : Registration} (he : s.sock.mEvt = some e)
    (err : SSLError) (pevt : Option Nat) :
    ∃ t, s.changeSSLSockEvent err pevt = some t ∧ t.sock.mTask = s.sock.mTask ∧
      t.own = s.own := by
  have hchange : ∀ flags w, ∃ t, s.changeEvent flags w pevt = some t ∧
      t.sock.mTask = s.sock.mTask ∧ t.own = s.own :=
    fun flags w => ⟨_, congrArg (Option.map _) (EdSocket.changeEvent_eq he), rfl, rfl⟩
  unfold EdSSLSocket.changeSSLSockEvent
  split
  · exact hchange _ _
  · exact hchange _ _
  · exact ⟨s, rfl, rfl, rfl⟩

/-- A call of `procSSLConnect` on a registered socket with a session returns. -/
lemma procSSLConnect_returns (hssl : s.own.mSSL = true) {e : Registration}
    (he : s.sock.mEvt = some e) (htask : s.sock.mTask = true) (a : Answers) :
    ∃ t, s.procSSLConnect a = some t ∧ t.own.connects = s.own.connects + 1 := by
  have hcalls : s.procSSLConnect a = sslClass.procSSLConnect
      { s with own := { s.own with connects := s.own.connects + 1 } } a := if_pos hssl
  rw [hcalls]
  refine SSLClass.procSSLConnect_returns
    (P := fun t => t.sock.mTask = true ∧ t.own.connects = s.own.connects + 1)
    ⟨_, rfl, rfl⟩ (fun h => ?_) ?_ id ⟨htask, rfl⟩
  · exact ⟨_, congrArg (Option.map _) (setError_of_mTask h.1 EINPROGRESS), h.2⟩
  obtain ⟨t, ht, htask', hown⟩ := changeSSLSockEvent_returns
    (s := { s with own := { s.own with connects := s.own.connects + 1 } }) he a.ssl.err a.pevt
  exact ⟨t, ht, htask'.trans htask, congrArg SSLFields.connects hown⟩

/-- `OnWrite` calls nothing, and the end of a connect starts no handshake when there is one. -/
lemma OnEventWrite_connects (hssl : s.own.mSSL = true)
    (ht : overrides.OnEventWrite s ⟨⟨1, .SSL_ERROR_NONE⟩, 0, none⟩ = some t) :
    t.own.connects = s.own.connects := by
  unfold Overrides.OnEventWrite at ht
  split at ht
  · rw [if_neg (by decide)] at ht
    obtain ⟨k, hk, ht⟩ := Option.bind_eq_some_iff.mp ht
    change startHandshake _ _ = some t at ht
    unfold startHandshake at ht
    rw [if_neg (by simp [hssl])] at ht
    cases ht
    rfl
  · cases ht
    rfl

/-- What is watched is not what `OnRead` waits for. -/
lemma Awaits.stalls {err : SSLError} (hs : s.Awaits err) (hinv : s.Inv)
    (hwant : err ≠ .SSL_ERROR_WANT_READ) : ¬ s.Resumes := by
  intro hr
  obtain ⟨e, he, hwatch⟩ := hr.watches
  have hflags := hinv.watched e he
  rw [hs.wanted] at hflags
  have hread : e.interest.evtRead = false := by
    rw [hflags]
    exact decide_eq_false hwant
  have hwrite : e.interest.evtWrite = true := by
    rw [hread] at hwatch
    exact hwatch.resolve_left Bool.false_ne_true
  obtain ⟨t, ht, hcalls⟩ := hr.write e ⟨⟨1, .SSL_ERROR_NONE⟩, 0, none⟩ he hwrite
  have hsame := OnEventWrite_connects hs.session ht
  omega

lemma Awaits.resumes (hs : s.Awaits .SSL_ERROR_WANT_READ) (hinv : s.Inv) : s.Resumes := by
  obtain ⟨e, he⟩ := Option.isSome_iff_exists.mp hs.registered
  have hflags := hinv.watched e he
  rw [hs.wanted] at hflags
  refine ⟨⟨e, he, .inl (by rw [hflags]; rfl)⟩, fun e' a he' _ => ?_, fun e' a he' hwrite => ?_⟩
  · have hcall : overrides.OnEventRead s a = procSSLConnect (s.push .OnRead) a := by
      unfold Overrides.OnEventRead
      rw [if_neg (by simp [hinv.serves.listen])]
      exact if_pos hs.unconnected
    rw [hcall]
    exact procSSLConnect_returns (s := s.push .OnRead) hs.session he
      (hinv.serves.task hs.registered) a
  · obtain rfl := Option.some.inj (he.symm.trans he')
    rw [hflags] at hwrite
    cases hwrite

/-- In every state of every run in which a handshake waits for readiness, the events that the
socket is watched for go on with it if and only if OpenSSL wanted to read. -/
theorem resumes_iff {err : SSLError} (h : sslSocket.Reachable s) (hs : s.Awaits err) :
    s.Resumes ↔ err = .SSL_ERROR_WANT_READ := by
  have hinv := Inv.reachable h
  constructor
  · intro hr
    by_cases hwant : err = .SSL_ERROR_WANT_READ
    · exact hwant
    · exact absurd hr (hs.stalls hinv hwant)
  · rintro rfl
    exact hs.resumes hinv

/-- A child socket whose handshake is read for once, and gives `err`. -/
def childWants (err : SSLError) : List SSLAction :=
  [.call (.openSSLChildSock 7 true (some 1)), .report true false false, .next ⟨⟨-1, err⟩, 0, none⟩]

/-- It waits for the error. -/
lemma exists_awaits (err : SSLError) (h : ((sslSocket.exec new (childWants err)).map (fun s =>
      (s.sock.mEvt.isSome, s.own.mSSL, s.own.mSessionConencted, s.setBy))) =
        some (true, true, false, .want err)) :
    ∃ s, sslSocket.Reachable s ∧ s.Awaits err := by
  obtain ⟨s, hs, hobs⟩ := System.exists_of_exec (M := sslSocket) rfl h
  simp only [Prod.mk.injEq] at hobs
  exact ⟨s, hs, hobs.1, hobs.2.1, hobs.2.2.1, hobs.2.2.2⟩

theorem resumes_iff_wantRead : ∃ s, sslSocket.Reachable s ∧ s.Awaits .SSL_ERROR_WANT_READ ∧
    s.Resumes := by
  obtain ⟨s, hs, hawaits⟩ := exists_awaits .SSL_ERROR_WANT_READ (by decide)
  exact ⟨s, hs, hawaits, (resumes_iff hs hawaits).mpr rfl⟩

/-- The accept wants to write: from then on only `EVT_WRITE` is watched for, which `OnWrite`
ignores. -/
theorem not_resumes : ¬ ∀ s err, sslSocket.Reachable s →
    err = .SSL_ERROR_WANT_READ ∨ err = .SSL_ERROR_WANT_WRITE → s.Awaits err → s.Resumes := by
  intro h
  obtain ⟨s, hs, hawaits⟩ := exists_awaits .SSL_ERROR_WANT_WRITE (by decide)
  exact hawaits.stalls (Inv.reachable hs) (by decide) (h s _ hs (.inr rfl) hawaits)

end EdSSLSocket

end EdNio.Net
