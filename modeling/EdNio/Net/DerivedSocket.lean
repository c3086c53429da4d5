import EdNio.Net.EdSocket

/-!
# Classes derived from EdSocket

The handlers of `EdSocket` for the events of epoll, with the functions that a derived class
overrides. What is still to be done in the calls that the task is in is kept on a stack, from
the innermost call on, so that the listener of a socket may call anything on it.
-/

namespace EdNio.Net

/-- Results of `SSL_get_error`. -/
inductive SSLError
  | SSL_ERROR_NONE
  | SSL_ERROR_SSL
  | SSL_ERROR_WANT_READ
  | SSL_ERROR_WANT_WRITE
  | SSL_ERROR_WANT_X509_LOOKUP
  | SSL_ERROR_SYSCALL
  | SSL_ERROR_ZERO_RETURN
  | SSL_ERROR_WANT_CONNECT
  | SSL_ERROR_WANT_ACCEPT
deriving DecidableEq, Repr

/-- What a function of OpenSSL returns, and the error that `SSL_get_error` gives then. -/
structure SSLReturn where
  ret : Int
  err : SSLError
deriving DecidableEq, Repr

/-- What OpenSSL and the kernel answer in one step. -/
structure Answers where
  ssl : SSLReturn
  sockerr : Int
  pevt : Option Nat
deriving DecidableEq, Repr

/-- What set the events that a socket is watched for: `openChildSock`, `connect`, the end of
the connect, an error of OpenSSL, a write handler with nothing left to write, or
`reserveWrite`. -/
inductive Watch
  | opened
  | connecting
  | established
  | want (err : SSLError)
  | drained
  | reserved
deriving DecidableEq, Repr

/-- The rest of a call after a call in it: of the listener, of `OnSSLDisconnected` in
`procSSLErrCloseNeedEnd`, of `OnRead` or `OnDisconnected` in `OnEventRead`, or of a handler in
`esMain`, which goes on with the events of the report that are left. -/
inductive Frame (ε : Type)
  | listener (e : ε)
  | procSSLErrCloseNeedEnd
  | OnRead
  | OnDisconnected
  | esMain (id : Nat) (read hangup write : Bool)
deriving DecidableEq, Repr

/-- An object with its `EdSocket` and the fields of its own class. `lastSockErrorNo` is that of
its task; `setBy` is kept for the proofs. -/
structure SocketObj (σ ε : Type) where
  sock : EdSocket
  own : σ
  lastSockErrorNo : Int
  stack : List (Frame ε)
  setBy : Watch
deriving DecidableEq, Repr

namespace SocketObj

variable {σ ε : Type} (s : SocketObj σ ε)

def EINPROGRESS : Int := 115

def push (f : Frame ε) : SocketObj σ ε :=
  { s with stack := f :: s.stack }

def changeEvent (flags : Interest) (w : Watch) (pevt : Option Nat) : Option (SocketObj σ ε) :=
  (s.sock.changeEvent flags pevt).map (fun k => { s with sock := k, setBy := w })

/-- The socket has become `k`, by a call that registers it if it is not registered yet. -/
def withSock (k : EdSocket) (w : Watch) : SocketObj σ ε :=
  { s with sock := k, setBy := if s.sock.mEvt.isSome then s.setBy else w }

/-- `mTask->lastSockErrorNo = n`. A task of NULL ends the process. -/
def setError (n : Int) : Option (SocketObj σ ε) :=
  if s.sock.mTask then some { s with lastSockErrorNo := n } else none

/-- `EdSocket::close`. -/
def closeSock : SocketObj σ ε :=
  { s with
    sock := s.sock.close
    lastSockErrorNo := if s.sock.mFd.isSome ∧ s.sock.mTask then 0 else s.lastSockErrorNo }

/-- `epoll_wait` returns with events that the socket is watched for; a hangup is always. -/
def report (read hangup write : Bool) : Option (SocketObj σ ε) :=
  match s.stack, s.sock.mEvt with
  | [], some e =>
    if (read → e.interest.evtRead) ∧ (write → e.interest.evtWrite) then
      some (s.push (.esMain e.id read hangup write))
    else none
  | _, _ => none

/-- The task is in code of the user. -/
def userRuns : Bool :=
  match s.stack with
  | [] | .listener _ :: _ => true
  | _ => false

/-- `procSSLErrCloseNeedEnd` up to the listener. -/
def procSSLErrCloseNeedEnd (e : ε) : Option (SocketObj σ ε) :=
  (s.setError EINPROGRESS).map (fun s => (s.push .procSSLErrCloseNeedEnd).push (.listener e))

variable {s} {t : SocketObj σ ε}

lemma setError_cases {n : Int} (h : s.setError n = some t) :
    t = { s with lastSockErrorNo := n } := by
  unfold setError at h
  split at h
  · exact (Option.some.inj h).symm
  · cases h

lemma setError_of_mTask (h : s.sock.mTask = true) (n : Int) :
    s.setError n = some { s with lastSockErrorNo := n } :=
  if_pos h

lemma procSSLErrCloseNeedEnd_cases {e : ε} (h : s.procSSLErrCloseNeedEnd e = some t) :
    t = { s with
      lastSockErrorNo := EINPROGRESS
      stack := .listener e :: .procSSLErrCloseNeedEnd :: s.stack } := by
  obtain ⟨u, hu, rfl⟩ := Option.map_eq_some_iff.mp h
  rw [setError_cases hu]
  rfl

end SocketObj

/-- The functions of a class that the handlers call. -/
structure Overrides (σ ε : Type) where
  OnRead : SocketObj σ ε → Answers → Option (SocketObj σ ε)
  OnWrite : SocketObj σ ε → Answers → Option (SocketObj σ ε)
  OnConnected : SocketObj σ ε → Answers → Option (SocketObj σ ε)
  OnDisconnected : SocketObj σ ε → SocketObj σ ε
  close : SocketObj σ ε → SocketObj σ ε

namespace Overrides

variable {σ ε : Type} (o : Overrides σ ε) (s : SocketObj σ ε)

def OnEventRead (a : Answers) : Option (SocketObj σ ε) :=
  if s.sock.mIsListen then some s else o.OnRead (s.push .OnRead) a

def OnEventWrite (a : Answers) : Option (SocketObj σ ε) :=
  if s.sock.mStatus = .SOCK_STATUS_CONNECTING then
    if a.sockerr ≠ 0 then some (o.OnDisconnected s.closeSock)
    else (s.sock.completeConnection a.pevt).bind (fun k =>
      o.OnConnected { s with sock := k, setBy := .established } a)
  else o.OnWrite s a

def OnEventHangup : SocketObj σ ε :=
  o.OnDisconnected s.closeSock

/-- The rest of a call; in `esMain`, unless the socket is not registered any more. -/
def resume (a : Answers) : Frame ε → Option (SocketObj σ ε)
  | .listener _ => some s
  | .procSSLErrCloseNeedEnd => some (if s.lastSockErrorNo ≠ 0 then o.close s else s)
  | .OnRead =>
    some (if s.lastSockErrorNo ≠ 0 then o.OnDisconnected (s.push .OnDisconnected) else s)
  | .OnDisconnected => some (if s.lastSockErrorNo ≠ 0 then s.closeSock else s)
  | .esMain id read hangup write =>
    if s.sock.mEvt.map Registration.id ≠ some id then some s
    else if read then o.OnEventRead (s.push (.esMain id false hangup write)) a
    else if hangup then some (o.OnEventHangup (s.push (.esMain id false false write)))
    else if write then o.OnEventWrite s a
    else some s

/-- The innermost call returns, and the one around it goes on. -/
def next (a : Answers) : Option (SocketObj σ ε) :=
  match s.stack with
  | [] => none
  | f :: k => o.resume { s with stack := k } a f

/-- `I` holds of the object before and after each function of the class, whatever calls it. -/
structure Keeps (o : Overrides σ ε) (I : SocketObj σ ε → Prop) : Prop where
  stack : ∀ {s : SocketObj σ ε} (k : List (Frame ε)), I s → I { s with stack := k }
  read : ∀ {s t : SocketObj σ ε} {a : Answers}, I s → o.OnRead s a = some t → I t
  write : ∀ {s t : SocketObj σ ε} {a : Answers}, I s → o.OnWrite s a = some t → I t
  connect : ∀ {s t : SocketObj σ ε} {a : Answers} {k : EdSocket}, I s →
    s.sock.mStatus = .SOCK_STATUS_CONNECTING → s.sock.completeConnection a.pevt = some k →
    o.OnConnected { s with sock := k, setBy := .established } a = some t → I t
  disconnect : ∀ {s : SocketObj σ ε}, I s → I (o.OnDisconnected s)
  closeSock : ∀ {s : SocketObj σ ε}, I s → I s.closeSock
  close : ∀ {s : SocketObj σ ε}, I s → I (o.close s)

variable {o s} {I : SocketObj σ ε → Prop} {t : SocketObj σ ε} {a : Answers}

lemma Keeps.OnEventRead (h : o.Keeps I) (hs : I s) (ht : o.OnEventRead s a = some t) : I t := by
  unfold Overrides.OnEventRead at ht
  split at ht
  · cases ht
    exact hs
  · exact h.read (h.stack _ hs) ht

lemma Keeps.OnEventWrite (h : o.Keeps I) (hs : I s) (ht : o.OnEventWrite s a = some t) :
    I t := by
  unfold Overrides.OnEventWrite at ht
  split at ht
  · rename_i hstatus
    split at ht
    · cases ht
      exact h.disconnect (h.closeSock hs)
    · obtain ⟨k, hk, ht⟩ := Option.bind_eq_some_iff.mp ht
      exact h.connect hs hstatus hk ht
  · exact h.write hs ht

lemma Keeps.resume (h : o.Keeps I) (hs : I s) {f : Frame ε} (ht : o.resume s a f = some t) :
    I t := by
  cases f with
  | listener e =>
    cases ht
    exact hs
  | procSSLErrCloseNeedEnd =>
    cases ht
    split
    · exact h.close hs
    · exact hs
  | OnRead =>
    cases ht
    split
    · exact h.disconnect (h.stack _ hs)
    · exact hs
  | OnDisconnected =>
    cases ht
    split
    · exact h.closeSock hs
    · exact hs
  | esMain id read hangup write =>
    rw [Overrides.resume] at ht
    split at ht
    · cases ht
      exact hs
    split at ht
    · exact h.OnEventRead (h.stack _ hs) ht
    split at ht
    · cases ht
      exact h.disconnect (h.closeSock (h.stack _ hs))
    split at ht
    · exact h.OnEventWrite hs ht
    · cases ht
      exact hs

/-- What every function of the class keeps, every step of the task keeps. -/
lemma Keeps.next (h : o.Keeps I) (hs : I s) (ht : o.next s a = some t) : I t := by
  unfold Overrides.next at ht
  split at ht
  · cases ht
  · exact h.resume (h.stack _ hs) ht

lemma Keeps.report (h : o.Keeps I) (hs : I s) {read hangup write : Bool}
    (ht : s.report read hangup write = some t) : I t := by
  unfold SocketObj.report at ht
  split at ht
  · split at ht
    · cases ht
      exact h.stack _ hs
    · cases ht
  · cases ht

end Overrides

/-- What a class does when its handshake succeeds and fails, and with any other error. -/
structure SSLClass (σ ε : Type) where
  connected : SocketObj σ ε → Option (SocketObj σ ε)
  closeNeedEnd : SocketObj σ ε → Option (SocketObj σ ε)
  changeSSLSockEvent : SocketObj σ ε → SSLError → Option Nat → Option (SocketObj σ ε)

namespace SSLClass

variable {σ ε : Type} (c : SSLClass σ ε) (s : SocketObj σ ε)

/-- `procSSLConnect` with the answer of `SSL_connect` or `SSL_accept`. -/
def procSSLConnect (a : Answers) : Option (SocketObj σ ε) :=
  if a.ssl.ret = 1 then c.connected s
  else if a.ssl.ret = 0 then c.closeNeedEnd s
  else if a.ssl.err = .SSL_ERROR_SSL then c.closeNeedEnd s
  else
    (c.changeSSLSockEvent s a.ssl.err a.pevt).bind (fun s =>
      if a.ssl.err = .SSL_ERROR_ZERO_RETURN ∨ a.ssl.err = .SSL_ERROR_SYSCALL then
        c.closeNeedEnd s
      else s.setError 0)

/-- What reading does with the answer of `SSL_read`. -/
def recv (a : Answers) : Option (SocketObj σ ε) :=
  if a.ssl.ret < 0 then
    (c.changeSSLSockEvent s a.ssl.err a.pevt).bind (fun s =>
      if a.ssl.err = .SSL_ERROR_ZERO_RETURN then s.setError SocketObj.EINPROGRESS else some s)
  else if a.ssl.ret = 0 then s.setError SocketObj.EINPROGRESS
  else s.setError 0

variable {c s} {I : SocketObj σ ε → Prop} {t : SocketObj σ ε} {a : Answers}

/-- What the parts keep, `procSSLConnect` keeps. -/
lemma procSSLConnect_keeps (hconn : ∀ {t}, c.connected s = some t → I t)
    (hclose : ∀ {s t}, I s → c.closeNeedEnd s = some t → I t)
    (hchange : ∀ {t}, c.changeSSLSockEvent s a.ssl.err a.pevt = some t → I t)
    (herr : ∀ {s}, I s → I { s with lastSockErrorNo := 0 }) (hs : I s)
    (ht : c.procSSLConnect s a = some t) : I t := by
  unfold procSSLConnect at ht
  split at ht
  · exact hconn ht
  split at ht
  · exact hclose hs ht
  split at ht
  · exact hclose hs ht
  · obtain ⟨u, hu, ht⟩ := Option.bind_eq_some_iff.mp ht
    have hI := hchange hu
    split at ht
    · exact hclose hI ht
    · rw [SocketObj.setError_cases ht]
      exact herr hI

lemma recv_keeps (hchange : ∀ {t}, c.changeSSLSockEvent s a.ssl.err a.pevt = some t → I t)
    (herr : ∀ {s n}, I s → I { s with lastSockErrorNo := n }) (hs : I s)
    (ht : c.recv s a = some t) : I t := by
  unfold recv at ht
  split at ht
  · obtain ⟨u, hu, ht⟩ := Option.bind_eq_some_iff.mp ht
    have hI := hchange hu
    split at ht
    · rw [SocketObj.setError_cases ht]
      exact herr hI
    · cases ht
      exact hI
  split at ht
  · rw [SocketObj.setError_cases ht]
    exact herr hs
  · rw [SocketObj.setError_cases ht]
    exact herr hs

/-- `procSSLConnect` returns when its parts do. `P` holds before them and `Q` after. -/
lemma procSSLConnect_returns {P Q : SocketObj σ ε → Prop}
    (hconn : ∃ t, c.connected s = some t ∧ Q t)
    (hclose : ∀ {s}, P s → ∃ t, c.closeNeedEnd s = some t ∧ Q t)
    (hchange : ∃ t, c.changeSSLSockEvent s a.ssl.err a.pevt = some t ∧ P t)
    (herr : ∀ {s}, P s → s.sock.mTask = true ∧ Q { s with lastSockErrorNo := 0 }) (hs : P s) :
    ∃ t, c.procSSLConnect s a = some t ∧ Q t := by
  unfold procSSLConnect
  split
  · exact hconn
  split
  · exact hclose hs
  split
  · exact hclose hs
  · obtain ⟨u, hu, hP⟩ := hchange
    rw [hu, Option.bind_some]
    split
    · exact hclose hP
    · exact ⟨_, SocketObj.setError_of_mTask (herr hP).1 0, (herr hP).2⟩

end SSLClass

namespace SocketObj

variable {σ ε : Type} (s : SocketObj σ ε)

/-- The events that go with each cause; `EVT_HANGUP` with the errors of OpenSSL only if
`hangup`. -/
def watchFlags (hangup : Bool) : Watch → Interest
  | .opened | .established | .drained => ⟨true, false, true⟩
  | .connecting => ⟨false, true, true⟩
  | .want err => ⟨err = .SSL_ERROR_WANT_READ, err = .SSL_ERROR_WANT_WRITE, hangup⟩
  | .reserved => ⟨true, true, true⟩

/-- A registration has the events of its cause. -/
def WatchedAs (hangup : Bool) : Prop :=
  ∀ e, s.sock.mEvt = some e → e.interest = watchFlags hangup s.setBy

end SocketObj

namespace EdSocket

variable {s t : EdSocket} {flags : Interest} {pevt : Option Nat}

/-- Nothing is registered, or it was there, or it has the flags. -/
lemma Registers.mEvt (h : s.Registers flags t) :
    t.mEvt = s.mEvt ∨ (s.mEvt = none ∧ ∀ e, t.mEvt = some e → e.interest = flags) := by
  induction h with
  | refl => exact .inl rfl
  | mark _ _ hevt _ _ ih => rwa [hevt]
  | @register t u pevt h hs ih =>
    unfold registerEvent at hs
    split at hs
    · cases hs
      exact ih
    split at hs
    · rename_i hnone
      split at hs
      · cases hs
        refine .inr ⟨?_, fun e he => ?_⟩
        · rcases ih with heq | ⟨hs, -⟩
          · exact heq.symm.trans hnone
          · exact hs
        · obtain ⟨fd, -, he⟩ := Option.bind_eq_some_iff.mp he
          obtain ⟨id, -, rfl⟩ := Option.map_eq_some_iff.mp he
          rfl
      · cases hs
    · cases hs
      exact ih

lemma changeEvent_interest (hs : s.changeEvent flags pevt = some t) :
    ∀ e, t.mEvt = some e → e.interest = flags := by
  unfold changeEvent at hs
  split at hs
  · cases hs
    rintro e he
    cases he
    rfl
  · rename_i hnone
    have hr : s.Registers flags t := .register .refl hs
    rcases hr.mEvt with heq | ⟨-, hflags⟩
    · rw [heq, hnone]
      rintro e he
      cases he
    · exact hflags

lemma changeEvent_eq {e : Registration} (he : s.mEvt = some e) :
    s.changeEvent flags pevt = some { s with mEvt := some { e with interest := flags } } := by
  unfold changeEvent
  rw [he]

lemma opened_mEvt (s : EdSocket) (fd : Option Nat) : (s.opened fd).mEvt = s.mEvt := by
  unfold opened
  split <;> rfl

lemma close_mEvt (s : EdSocket) : s.close.mEvt = s.mEvt ∨ s.close.mEvt = none := by
  unfold close deregisterEvent
  cases s.mFd with
  | none => exact .inl rfl
  | some fd =>
    cases s.mIsReg with
    | false => exact .inl rfl
    | true => exact .inr rfl

/-- The socket does not listen, and has a task when it is registered. -/
structure Serves (s : EdSocket) : Prop where
  listen : s.mIsListen = false
  task : s.mEvt.isSome = true → s.mTask = true

lemma Serves.registerEvent (h : s.Serves) (hs : s.registerEvent flags pevt = some t) :
    t.Serves := by
  unfold EdSocket.registerEvent at hs
  split at hs
  · cases hs
    exact h
  split at hs
  · split at hs
    · rename_i htask
      cases hs
      exact ⟨h.listen, fun _ => htask⟩
    · cases hs
  · cases hs
    exact h

lemma Serves.changeEvent (h : s.Serves) (hs : s.changeEvent flags pevt = some t) : t.Serves := by
  unfold EdSocket.changeEvent at hs
  split at hs
  · rename_i e he
    cases hs
    exact ⟨h.listen, fun _ => h.task (Option.isSome_of_mem he)⟩
  · exact h.registerEvent hs

lemma Serves.completeConnection (h : s.Serves) (hs : s.completeConnection pevt = some t) :
    t.Serves := by
  have hb : { s with mStatus := .SOCK_STATUS_CONNECTED }.Serves := ⟨h.listen, h.task⟩
  exact hb.changeEvent hs

lemma Serves.openChildSock (h : s.Serves) {fd : Nat} (hs : s.openChildSock fd pevt = some t) :
    t.Serves := by
  have hb : { s.setFd (some fd) with
      mStatus := .SOCK_STATUS_CONNECTED, mType := .SOCK_TYPE_TCP }.Serves :=
    ⟨h.listen, fun _ => rfl⟩
  exact hb.registerEvent hs

lemma Serves.connectIp (h : s.Serves) {fd : Option Nat} (hs : s.connectIp fd pevt = some t) :
    t.Serves := by
  unfold EdSocket.connectIp at hs
  split at hs
  · cases hs
    exact h
  have hopen : (s.opened fd).Serves := by
    unfold opened
    split
    · exact ⟨h.listen, fun _ => rfl⟩
    · exact h
  change (if (s.opened fd).mType = .SOCK_TYPE_TCP then
    ((s.opened fd).registerEvent _ pevt).map _ else some (s.opened fd)) = some t at hs
  split at hs
  · obtain ⟨u, hu, rfl⟩ := Option.map_eq_some_iff.mp hs
    have hu := hopen.registerEvent hu
    exact ⟨hu.listen, hu.task⟩
  · cases hs
    exact hopen

lemma Serves.close (h : s.Serves) : s.close.Serves := by
  unfold EdSocket.close deregisterEvent
  cases s.mFd with
  | none => exact ⟨h.listen, h.task⟩
  | some fd =>
    cases s.mIsReg with
    | false => exact ⟨h.listen, h.task⟩
    | true => exact ⟨h.listen, fun he => absurd he Bool.false_ne_true⟩

end EdSocket

namespace SocketObj

variable {σ ε : Type} {s t : SocketObj σ ε} {hangup : Bool} {w : Watch} {k : EdSocket}

lemma WatchedAs.of_eq (h : s.WatchedAs hangup) (hsock : t.sock.mEvt = s.sock.mEvt)
    (hset : t.setBy = s.setBy) : t.WatchedAs hangup := by
  intro e he
  rw [hset]
  exact h e (hsock.symm.trans he)

lemma WatchedAs.closeSock (h : s.WatchedAs hangup) : s.closeSock.WatchedAs hangup := by
  intro e he
  rcases s.sock.close_mEvt with heq | hnone
  · exact h e (heq.symm.trans he)
  · exact absurd (hnone.symm.trans he) (by simp)

lemma WatchedAs.withSock (h : s.WatchedAs hangup) {r : EdSocket}
    (hr : r.Registers (watchFlags hangup w) k) (hsock : r.mEvt = s.sock.mEvt) :
    (s.withSock k w).WatchedAs hangup := by
  intro e he
  change e.interest = watchFlags hangup (if s.sock.mEvt.isSome then s.setBy else w)
  rcases hr.mEvt with heq | ⟨hnone, hflags⟩
  · have hs : s.sock.mEvt = some e := hsock.symm.trans (heq.symm.trans he)
    rw [hs]
    exact h e hs
  · rw [hsock] at hnone
    rw [hnone]
    exact hflags e he

/-- The object after a change of the events, with the cause of the change. -/
lemma changeEvent_cases {flags : Interest} {pevt : Option Nat}
    (ht : s.changeEvent flags w pevt = some t) :
    ∃ k, s.sock.changeEvent flags pevt = some k ∧ t = { s with sock := k, setBy := w } := by
  obtain ⟨k, hk, rfl⟩ := Option.map_eq_some_iff.mp ht
  exact ⟨k, hk, rfl⟩

lemma changeEvent_watchedAs {pevt : Option Nat}
    (ht : s.changeEvent (watchFlags hangup w) w pevt = some t) : t.WatchedAs hangup := by
  obtain ⟨k, hk, rfl⟩ := changeEvent_cases ht
  exact EdSocket.changeEvent_interest hk

end SocketObj

end EdNio.Net
