import EdNio.Library.History
import EdNio.Net.SSLCalls
import EdNio.Net.SSLReading

/-!
# The events of a session

What a smart socket raises from the opening of a session, outside its own events, on. A call
that has raised a disconnect closes the socket after the listener, unless the listener has
reset `lastSockErrorNo`; and `sslAccept` goes on with the handshake in any state.
-/

namespace EdNio.Net
open Transition SocketObj

/-- An event for the listener, or a call of `close`. -/
inductive SSLNote
  | raised (e : NetEvent)
  | closed
deriving DecidableEq, Repr

/-- A call that closes the socket when the listener for a disconnect has returned. -/
def Frame.closes {ε : Type} : Frame ε → Bool
  | .procSSLErrCloseNeedEnd | .OnDisconnected => true
  | _ => false

namespace SmartSSL

/-- The stack has become `t`, and `k` are the calls below those of the step: has the step called
the listener? -/
def told (k t : List (Frame NetEvent)) : Option NetEvent :=
  match t with
  | .listener e :: _ => if k.length < t.length then some e else none
  | _ => none

/-- The calls that a step leaves as they are. -/
def below (s : SmartSSL) : SmartSSLAction → List (Frame NetEvent)
  | .next _ => s.stack.tail
  | _ => s.stack

def note (s : SmartSSL) (x : SmartSSLAction) : Option SSLNote :=
  match x with
  | .call .close => some .closed
  | x => (s.step x).bind (fun t => (told (s.below x) t.stack).map .raised)

/-- Nothing is raised after a disconnect and after `close`, and on one connect, which comes
before what can be read and written. -/
structure InOrder (before : List SSLNote) (n : SSLNote) : Prop where
  last : ∀ e, n = .raised e → .closed ∉ before ∧ .raised .NETEV_DISCONNECTED ∉ before
  once : n = .raised .NETEV_CONNECTED → .raised .NETEV_CONNECTED ∉ before
  data : n = .raised .NETEV_READABLE ∨ n = .raised .NETEV_WRITABLE →
    .raised .NETEV_CONNECTED ∈ before

/-- After a disconnect the socket is not watched, once the calls that close it have returned. -/
def Ends (s : Recorded SmartSSL SSLNote) : Prop :=
  .raised .NETEV_DISCONNECTED ∈ s.log →
    s.state.sock.mEvt = none ∨ ∃ f ∈ s.state.stack, f.closes = true

/-- `sslAccept` does not succeed again after a connect, and neither succeeds nor fails after a
disconnect; the listener for a disconnect closes the socket, or leaves `lastSockErrorNo` set. -/
def ordered (s : Recorded SmartSSL SSLNote) : SmartSSLAction → Bool
  | .call (.sslAccept a) =>
    decide ((a.ssl.ret = 1 → .raised .NETEV_CONNECTED ∉ s.log) ∧
      (a.ssl.ret = 1 ∨ a.fails → .raised .NETEV_DISCONNECTED ∉ s.log))
  | .next _ =>
    match s.state.stack with
    | f :: _ =>
      decide (f.closes = true → .raised .NETEV_DISCONNECTED ∈ s.log →
        s.state.lastSockErrorNo ≠ 0 ∨ s.state.sock.mEvt = none)
    | [] => true
  | _ => true

end SmartSSL

/-- All runs of a session that is opened outside the events of its socket, with what they
raise. -/
def sslHistory : System (Recorded SmartSSL SSLNote) SmartSSLAction where
  init s := SmartSSL.Opened s.state ∧ s.state.stack = [] ∧ s.log = []
  step := (sslSession.recorded SmartSSL.note).step

namespace SmartSSL

variable {s t : SmartSSL} {a : Answers} {log : List SSLNote}

/-- What may be below a call: `esMain` below a handler and nothing below it, and no other call
that closes the socket below one that does. -/
def onTop : Frame NetEvent → Frame NetEvent → Bool
  | .listener _, _ => true
  | .procSSLErrCloseNeedEnd, g => !g.closes
  | .OnRead, .esMain _ _ _ _ | .OnDisconnected, .esMain _ _ _ _ => true
  | _, _ => false

lemma closes_of_onTop {f g : Frame NetEvent} (h : onTop f g = true) (hf : f.closes = true) :
    g.closes = false := by
  cases f with
  | procSSLErrCloseNeedEnd => simpa [onTop] using h
  | OnDisconnected =>
    cases g with
    | esMain => rfl
    | listener | procSSLErrCloseNeedEnd | OnRead | OnDisconnected => cases h
  | listener | OnRead | esMain => cases hf

lemma onTop_handler {g : Frame NetEvent} (h : onTop .OnRead g = true) :
    onTop .OnDisconnected g = true ∧ g.closes = false := by
  cases g with
  | esMain => exact ⟨rfl, rfl⟩
  | listener | procSSLErrCloseNeedEnd | OnRead | OnDisconnected => cases h

/-- What the log says of a session, and the calls that the task is in. -/
structure Told (log : List SSLNote) (s : SmartSSL) : Prop where
  tied : s.sock.Tied
  session : s.own.mSessionConencted = true →
    s.own.mSSL = true ∧ .raised .NETEV_CONNECTED ∈ log
  known : .raised .NETEV_CONNECTED ∈ log →
    s.own.mSessionConencted = true ∨ (s.own.mSSL = false ∧ s.sock.mEvt = none)
  closed : .closed ∈ log → s.own.mSSL = false ∧ s.sock.mEvt = none
  nested : s.stack.Pairwise (fun f g => onTop f g = true)
  reading : .OnRead ∈ s.stack → s.own.mSSL = true → s.sock.mEvt ≠ none
  order : Always InOrder log

/-- After a disconnect the socket is not watched, or the task is in the call that closes it or
in its listener. -/
structure Follows (log : List SSLNote) (s : SmartSSL) : Prop extends Told log s where
  ending : .raised .NETEV_DISCONNECTED ∈ log → s.sock.mEvt = none ∨
    ∃ f k, f.closes = true ∧ (s.stack = f :: k ∨ s.stack = .listener .NETEV_DISCONNECTED :: f :: k)
  closing : ∀ f ∈ s.stack, f.closes = true →
    .raised .NETEV_DISCONNECTED ∈ log ∨ s.stack.head? = some .OnDisconnected

/-- No disconnect has been raised, and no call is going to close the socket. -/
structure Running (log : List SSLNote) (s : SmartSSL) : Prop extends Told log s where
  quiet : .raised .NETEV_DISCONNECTED ∉ log
  opened : ∀ f ∈ s.stack, f.closes = false

lemma Running.follows (h : Running log s) : Follows log s where
  toTold := h.toTold
  ending hD := absurd hD h.quiet
  closing f hf hc := by
    rw [h.opened f hf] at hc
    cases hc

lemma Told.same (h : Told log s) (hs : Same s t) : Told log t where
  tied := hs.tied h.tied
  session hc := by
    rw [hs.ssl]
    exact h.session (hs.session ▸ hc)
  known hC := by
    rw [hs.ssl, hs.session, hs.evt]
    exact h.known hC
  closed hc := by
    rw [hs.ssl, hs.evt]
    exact h.closed hc
  nested := hs.stack ▸ h.nested
  reading hr hssl := by
    rw [ne_eq, hs.evt]
    exact h.reading (hs.stack ▸ hr) (hs.ssl ▸ hssl)
  order := h.order

lemma Running.same (h : Running log s) (hs : Same s t) : Running log t where
  toTold := h.toTold.same hs
  quiet := h.quiet
  opened := hs.stack ▸ h.opened

lemma Follows.same (h : Follows log s) (hs : Same s t) : Follows log t where
  toTold := h.toTold.same hs
  ending hD := by
    rw [hs.evt, hs.stack]
    exact h.ending hD
  closing := by
    rw [hs.stack]
    exact h.closing

lemma Told.withStack (h : Told log s) {k : List (Frame NetEvent)}
    (hk : k.Pairwise (fun f g => onTop f g = true))
    (hr : .OnRead ∈ k → .OnRead ∈ s.stack ∨ s.sock.mEvt ≠ none) :
    Told log { s with stack := k } :=
  ⟨h.tied, h.session, h.known, h.closed, hk,
    fun hmem hssl => (hr hmem).elim (fun hmem => h.reading hmem hssl) id, h.order⟩

lemma Told.tail (h : Told log s) {f : Frame NetEvent} {k : List (Frame NetEvent)}
    (hstack : s.stack = f :: k) : Told log { s with stack := k } := by
  have hnested := h.nested
  rw [hstack] at hnested
  refine h.withStack hnested.of_cons (fun hmem => .inl ?_)
  rw [hstack]
  exact List.mem_cons_of_mem _ hmem

lemma Told.onTop_tail (h : Told log s) {f : Frame NetEvent} {k : List (Frame NetEvent)}
    (hstack : s.stack = f :: k) : ∀ g ∈ k, onTop f g = true := by
  have hnested := h.nested
  rw [hstack] at hnested
  exact (List.pairwise_cons.mp hnested).1

lemma Told.raise (h : Told log s) {e : NetEvent} (hin : InOrder log (.raised e))
    (he : e = .NETEV_CONNECTED → s.own.mSessionConencted = true) :
    Told (log ++ [.raised e]) (s.push (.listener e)) where
  tied := h.tied
  session hc := ⟨(h.session hc).1, List.mem_append_left _ (h.session hc).2⟩
  known hC := by
    rcases List.mem_append.mp hC with hC | hC
    · exact h.known hC
    · exact .inl (he (SSLNote.raised.inj (List.mem_singleton.mp hC)).symm)
  closed hc := by
    rcases List.mem_append.mp hc with hc | hc
    · exact h.closed hc
    · cases List.mem_singleton.mp hc
  nested := List.pairwise_cons.mpr ⟨fun _ _ => rfl, h.nested⟩
  reading hr := h.reading ((List.mem_cons.mp hr).resolve_left (by rintro ⟨⟩))
  order := always_concat.mpr ⟨h.order, hin⟩

/-- Nothing has been closed on a session that is still there. -/
lemma Told.not_closed (h : Told log s) (hssl : s.own.mSSL = true) : .closed ∉ log := by
  intro hc
  rw [(h.closed hc).1] at hssl
  cases hssl

lemma Told.inOrder (h : Told log s) (hssl : s.own.mSSL = true)
    (hD : .raised .NETEV_DISCONNECTED ∉ log) {e : NetEvent}
    (hC : e = .NETEV_CONNECTED → .raised .NETEV_CONNECTED ∉ log)
    (hdata : e = .NETEV_READABLE ∨ e = .NETEV_WRITABLE → .raised .NETEV_CONNECTED ∈ log) :
    InOrder log (.raised e) where
  last _ _ := ⟨h.not_closed hssl, hD⟩
  once he := hC (SSLNote.raised.inj he)
  data he := hdata (he.imp SSLNote.raised.inj SSLNote.raised.inj)

lemma Running.opened_push (h : Running log s) {e : NetEvent} :
    ∀ f ∈ (.listener e :: s.stack : List (Frame NetEvent)), f.closes = false :=
  List.forall_mem_cons.mpr ⟨rfl, h.opened⟩

lemma Running.data (h : Running log s) (hconn : s.own.mSessionConencted = true) {e : NetEvent}
    (he : e = .NETEV_READABLE ∨ e = .NETEV_WRITABLE) :
    Follows (log ++ [.raised e]) (s.push (.listener e)) := by
  obtain ⟨hssl, hC⟩ := h.session hconn
  have hin : InOrder log (.raised e) := by
    refine h.inOrder hssl h.quiet ?_ (fun _ => hC)
    rintro rfl
    rcases he with ⟨⟨⟩⟩ | ⟨⟨⟩⟩
  refine ⟨h.raise hin (fun _ => hconn), fun hD => ?_, fun f hf hc => ?_⟩
  · rcases List.mem_append.mp hD with hD | hD
    · exact absurd hD h.quiet
    · cases List.mem_singleton.mp hD
      rcases he with ⟨⟨⟩⟩ | ⟨⟨⟩⟩
  · rw [h.opened_push f hf] at hc
    cases hc

lemma Running.connects (h : Running log s) (hssl : s.own.mSSL = true)
    (hC : .raised .NETEV_CONNECTED ∉ log) :
    Follows (log ++ [.raised .NETEV_CONNECTED]) (push { s with
      own := { s.own with mSessionConencted := true }
      lastSockErrorNo := 0 } (.listener .NETEV_CONNECTED)) where
  tied := h.tied
  session _ := ⟨hssl, List.mem_append_right _ (List.mem_singleton_self _)⟩
  known _ := .inl rfl
  closed hc := by
    rcases List.mem_append.mp hc with hc | hc
    · exact absurd hc (h.not_closed hssl)
    · cases List.mem_singleton.mp hc
  nested := List.pairwise_cons.mpr ⟨fun _ _ => rfl, h.nested⟩
  reading hr := h.reading ((List.mem_cons.mp hr).resolve_left (by rintro ⟨⟩))
  order := always_concat.mpr
    ⟨h.order, h.inOrder hssl h.quiet (fun _ => hC) (by rintro (⟨⟨⟩⟩ | ⟨⟨⟩⟩))⟩
  ending hD := by
    rcases List.mem_append.mp hD with hD | hD
    · exact absurd hD h.quiet
    · cases List.mem_singleton.mp hD
  closing f hf hc := by
    rw [h.opened_push f hf] at hc
    cases hc

/-- A disconnect is raised, by a call that will close the socket or has done so. -/
lemma Told.disconnects (h : Told log s) (hssl : s.own.mSSL = true)
    (hD : .raised .NETEV_DISCONNECTED ∉ log)
    (hend : s.sock.mEvt = none ∨ ∃ f k, f.closes = true ∧ s.stack = f :: k) :
    Follows (log ++ [.raised .NETEV_DISCONNECTED])
      (s.push (.listener .NETEV_DISCONNECTED)) := by
  have hin : InOrder log (.raised .NETEV_DISCONNECTED) :=
    h.inOrder hssl hD (by rintro ⟨⟩) (by rintro (⟨⟨⟩⟩ | ⟨⟨⟩⟩))
  refine ⟨h.raise hin (by rintro ⟨⟩), fun _ => hend.imp id ?_, fun f _ _ => ?_⟩
  · rintro ⟨f, k, hf, hk⟩
    exact ⟨f, k, hf, .inr (congrArg _ hk)⟩
  · exact .inl (List.mem_append_right _ (List.mem_singleton_self _))

lemma Running.fails (h : Running log s) (hssl : s.own.mSSL = true) :
    Follows (log ++ [.raised .NETEV_DISCONNECTED])
      ((s.push .procSSLErrCloseNeedEnd).push (.listener .NETEV_DISCONNECTED)) := by
  have hpush : Told log (s.push .procSSLErrCloseNeedEnd) := by
    refine h.withStack (List.pairwise_cons.mpr ⟨fun g hg => ?_, h.nested⟩) (fun hr => .inl ?_)
    · simp [onTop, h.opened g hg]
    · exact (List.mem_cons.mp hr).resolve_left (by rintro ⟨⟩)
  exact hpush.disconnects hssl h.quiet (.inr ⟨_, _, rfl, rfl⟩)

lemma Told.closeSock (h : Told log s) (hr : .OnRead ∉ s.stack) :
    Told log s.closeSock ∧ s.closeSock.sock.mEvt = none := by
  obtain ⟨htied, hevt⟩ := h.tied.close
  refine ⟨⟨htied, h.session, fun hC => ?_, fun hc => ⟨(h.closed hc).1, hevt⟩, h.nested,
    fun hmem => absurd hmem hr, h.order⟩, hevt⟩
  exact (h.known hC).imp id (fun hk => ⟨hk.1, hevt⟩)

lemma Told.close (h : Told log s) : Told log s.close ∧ s.close.sock.mEvt = none ∧
    s.close.own.mSSL = false ∧ s.close.stack = s.stack := by
  obtain ⟨htied, hevt⟩ := h.tied.close
  have hsession : s.own.mSSL = false → s.own.mSessionConencted = false := by
    intro hssl
    cases hc : s.own.mSessionConencted with
    | false => rfl
    | true => exact absurd ((h.session hc).1.symm.trans hssl) (by decide)
  unfold SmartSSL.close
  dsimp only
  split
  · refine ⟨⟨htied, fun hc => ?_, fun _ => .inr ⟨rfl, hevt⟩, fun _ => ⟨rfl, hevt⟩, h.nested,
      fun _ hssl => ?_, h.order⟩, hevt, rfl, rfl⟩
    · cases hc
    · cases hssl
  · rename_i hssl
    have hssl : s.own.mSSL = false := by simpa using hssl
    refine ⟨⟨htied, fun hc => ?_, fun _ => .inr ⟨hssl, hevt⟩, fun _ => ⟨hssl, hevt⟩, h.nested,
      fun _ hc => ?_, h.order⟩, hevt, hssl, rfl⟩
    · exact absurd ((hsession hssl).symm.trans hc) (by decide)
    · exact absurd (hssl.symm.trans hc) (by decide)

/-- The innermost call returns; if it was to close the socket, there is nothing to close. -/
lemma Follows.pop (h : Follows log s) {f : Frame NetEvent} {k : List (Frame NetEvent)}
    (hstack : s.stack = f :: k)
    (hend : f.closes = true → .raised .NETEV_DISCONNECTED ∈ log → s.sock.mEvt = none) :
    Follows log { s with stack := k } := by
  refine ⟨h.toTold.tail hstack, fun hD => ?_, fun g hg hc => ?_⟩
  · rcases h.ending hD with hnone | ⟨g, l, hg, hs | hs⟩
    · exact .inl hnone
    · rw [hstack] at hs
      cases hs
      exact .inl (hend hg hD)
    · rw [hstack] at hs
      cases hs
      exact .inr ⟨g, l, hg, .inl rfl⟩
  · cases hf : f.closes with
    | true => exact absurd (closes_of_onTop (h.onTop_tail hstack g hg) hf) (by simp [hc])
    | false =>
      rcases h.closing g (hstack ▸ List.mem_cons_of_mem _ hg) hc with hD | hhead
      · exact .inl hD
      · rw [hstack] at hhead
        cases hhead
        cases hf

/-- The innermost call has closed the socket. -/
lemma Told.ended (h : Told log t) (hevt : t.sock.mEvt = none)
    (hk : ∀ g ∈ t.stack, g.closes = false) : Follows log t :=
  ⟨h, fun _ => .inl hevt, fun g hg hc => by
    rw [hk g hg] at hc
    cases hc⟩

/-- On a socket that is watched, with no call that is going to close it. -/
lemma Follows.quiet (h : Follows log s) (hevt : s.sock.mEvt ≠ none)
    (hs : ∀ f ∈ s.stack, f.closes = false) : .raised .NETEV_DISCONNECTED ∉ log := by
  intro hD
  rcases h.ending hD with hnone | ⟨f, l, hf, hs' | hs'⟩
  · exact hevt hnone
  · rw [hs f (hs' ▸ List.mem_cons_self)] at hf
    cases hf
  · rw [hs f (hs' ▸ List.mem_cons_of_mem _ List.mem_cons_self)] at hf
    cases hf

lemma Follows.running (h : Follows log s) (hevt : s.sock.mEvt ≠ none)
    (hs : ∀ f ∈ s.stack, f.closes = false) {k : List (Frame NetEvent)}
    (hk : k.Pairwise (fun f g => onTop f g = true)) (hopen : ∀ f ∈ k, f.closes = false) :
    Running log { s with stack := k } :=
  ⟨h.withStack hk (fun _ => .inr hevt), h.quiet hevt hs, hopen⟩

/-- What a step adds to the log. -/
def added (k t : List (Frame NetEvent)) : List SSLNote :=
  ((told k t).map .raised).toList

lemma added_self (k : List (Frame NetEvent)) : added k k = [] := by
  unfold added told
  split
  · rw [if_neg (Nat.lt_irrefl _)]
    rfl
  · rfl

lemma added_listener {k l : List (Frame NetEvent)} {e : NetEvent} (h : k.length ≤ l.length) :
    added k (.listener e :: l) = [.raised e] := by
  have htold : told k (.listener e :: l) = some e := if_pos (Nat.lt_succ_of_le h)
  unfold added
  rw [htold]
  rfl

variable {k : List (Frame NetEvent)}

lemma Running.added_same (h : Running log s) (hs : Same s t) (hk : added k s.stack = []) :
    Follows (log ++ added k t.stack) t := by
  rw [hs.stack, hk, List.append_nil]
  exact (h.same hs).follows

lemma Running.added_data (h : Running log s) (hconn : s.own.mSessionConencted = true)
    (hlen : k.length ≤ s.stack.length) {e : NetEvent}
    (he : e = .NETEV_READABLE ∨ e = .NETEV_WRITABLE) :
    Follows (log ++ added k (s.push (.listener e)).stack) (s.push (.listener e)) := by
  change Follows (log ++ added k (.listener e :: s.stack)) _
  rw [added_listener hlen]
  exact h.data hconn he

/-- The handshake goes on, by a call that leaves `k` as they are. -/
lemma Running.added_handshakes (h : Running log s) (ht : Handshakes s a t)
    (hssl : s.own.mSSL = true) (hC : a.ssl.ret = 1 → .raised .NETEV_CONNECTED ∉ log)
    (hk : added k s.stack = []) (hlen : k.length ≤ s.stack.length) :
    Follows (log ++ added k t.stack) t := by
  cases ht with
  | waits hret hok hs => exact h.added_same hs hk
  | succeeds hret ht =>
    subst ht
    change Follows (log ++ added k (.listener .NETEV_CONNECTED :: s.stack)) _
    rw [added_listener hlen]
    exact h.connects hssl (hC hret)
  | @fails hfail u hs ht =>
    subst ht
    change Follows (log ++ added k (.listener .NETEV_DISCONNECTED ::
      .procSSLErrCloseNeedEnd :: u.stack)) _
    rw [added_listener (by rw [hs.stack]; exact Nat.le_succ_of_le hlen)]
    exact (h.same hs).fails (hs.ssl.trans hssl)

lemma Running.added_procSSLConnect (h : Running log s) (hevt : s.sock.mEvt ≠ none)
    (hconn : s.own.mSessionConencted = false) (ht : s.procSSLConnect a = some t)
    (hk : added k s.stack = []) (hlen : k.length ≤ s.stack.length) :
    Follows (log ++ added k t.stack) t := by
  obtain ⟨hssl, hhand⟩ := procSSLConnect_handshakes h.tied ht
  refine h.added_handshakes hhand hssl (fun _ hC => ?_) hk hlen
  rcases h.known hC with hc | ⟨-, hnone⟩
  · rw [hconn] at hc
    cases hc
  · exact hevt hnone

lemma same_atEvent (s : SmartSSL) : Same s s.atEvent :=
  .of_eq rfl rfl rfl rfl

lemma Running.fireRead (h : Running log s) (hevt : s.sock.mEvt ≠ none)
    (ht : s.fireRead a = some t) (hk : added k s.stack = [])
    (hlen : k.length ≤ s.stack.length) : Follows (log ++ added k t.stack) t := by
  have hrun := h.same (same_atEvent s)
  unfold SmartSSL.fireRead procSSLRead at ht
  split at ht
  · rename_i hconn
    exact hrun.added_procSSLConnect hevt hconn ht hk hlen
  · rename_i hconn
    cases ht
    exact hrun.added_data (by simpa using hconn) hlen (.inl rfl)

lemma Running.fireWrite (h : Running log s) (hevt : s.sock.mEvt ≠ none)
    (ht : s.fireWrite a = some t) (hk : added k s.stack = [])
    (hlen : k.length ≤ s.stack.length) : Follows (log ++ added k t.stack) t := by
  have hrun := h.same (same_atEvent s)
  unfold SmartSSL.fireWrite at ht
  cases hconn : s.own.mSessionConencted with
  | false =>
    unfold procSSLOnWrite at ht
    rw [if_pos (show s.atEvent.own.mSessionConencted = false from hconn)] at ht
    exact hrun.added_procSSLConnect hevt hconn ht hk hlen
  | true =>
    obtain ⟨u, hu, rfl | rfl⟩ := procSSLOnWrite_same hrun.tied hconn ht
    · exact hrun.added_same hu hk
    · refine (hrun.same hu).added_data (hu.session.trans hconn) ?_ (.inr rfl)
      rw [hu.stack]
      exact hlen

lemma Running.startHandshake (h : Running log s) (hevt : s.sock.mEvt ≠ none)
    (ht : s.startHandshake a = some t) (hk : added k s.stack = [])
    (hlen : k.length ≤ s.stack.length) : Follows (log ++ added k t.stack) t := by
  unfold SmartSSL.startHandshake at ht
  split at ht
  · rename_i hnew
    obtain ⟨-, ht⟩ := Option.ite_none_right_eq_some.mp ht
    have hstart : Running log { s with own := { s.own with mSSL := true } } := by
      refine ⟨⟨h.tied, fun hc => ?_, fun hC => ?_, fun hc => ?_, h.nested, fun hr _ => hevt,
        h.order⟩, h.quiet, h.opened⟩
      · exact absurd (hnew.2.symm.trans hc) (by decide)
      · exact (h.known hC).imp id (fun hk => absurd hk.2 hevt)
      · exact absurd (h.closed hc).2 hevt
    exact hstart.added_procSSLConnect hevt hnew.2 ht hk hlen
  · cases ht
    exact h.added_same (.of_eq rfl rfl rfl rfl) hk

/-- The socket is closed, and the end of a session is raised. -/
lemma Running.hangup (h : Running log s) (hr : .OnRead ∉ s.stack) (hk : added k s.stack = [])
    (hlen : k.length ≤ s.stack.length) :
    Follows (log ++ added k (fireDisconnected s.closeSock).stack)
      (fireDisconnected s.closeSock) := by
  obtain ⟨hclosed, hevt⟩ := h.toTold.closeSock hr
  unfold fireDisconnected
  split
  · rename_i hconn
    change Follows (log ++ added k (.listener .NETEV_DISCONNECTED :: s.stack)) _
    rw [added_listener hlen]
    exact hclosed.disconnects (hclosed.session hconn).1 h.quiet (.inl hevt)
  · change Follows (log ++ added k s.stack) _
    rw [hk, List.append_nil]
    exact hclosed.ended hevt h.opened

lemma Follows.added_same (h : Follows log s) (hs : Same s t) (hk : added k s.stack = []) :
    Follows (log ++ added k t.stack) t := by
  rw [hs.stack, hk, List.append_nil]
  exact h.same hs

/-- `esMain` calls a handler, if the socket is still registered. -/
lemma Follows.esMain (h : Follows log s) {id : Nat} {read hangup write : Bool}
    (hstack : s.stack = .esMain id read hangup write :: k)
    (ht : overrides.resume { s with stack := k } a (.esMain id read hangup write) = some t) :
    Follows (log ++ added k t.stack) t := by
  have hpop : Follows (log ++ added k k) { s with stack := k } := by
    rw [added_self, List.append_nil]
    exact h.pop hstack (fun hc => by cases hc)
  rw [Overrides.resume] at ht
  split at ht
  · cases ht
    exact hpop
  rename_i hid
  have hevt : s.sock.mEvt ≠ none := by
    intro hnone
    rw [hnone] at hid
    exact hid (by rintro ⟨⟩)
  obtain rfl : k = [] := List.eq_nil_iff_forall_not_mem.mpr
    (fun g hg => Bool.false_ne_true (h.onTop_tail hstack g hg))
  have hfirst : ∀ f ∈ s.stack, f.closes = false := by
    rw [hstack]
    simp [Frame.closes]
  have hrun : ∀ {l : List (Frame NetEvent)}, l.Pairwise (fun f g => onTop f g = true) →
      (∀ f ∈ l, f.closes = false) → Running log { s with stack := l } :=
    fun hl ho => h.running hevt hfirst hl ho
  split at ht
  · unfold Overrides.OnEventRead at ht
    split at ht
    · cases ht
      exact (hrun (by simp) (by simp [Frame.closes])).added_same (.of_eq rfl rfl rfl rfl) rfl
    · have hread : Running log { s with stack := [.OnRead, .esMain id false hangup write] } :=
        hrun (by simp [onTop]) (by simp [Frame.closes])
      exact hread.fireRead hevt ht rfl (Nat.zero_le _)
  split at ht
  · cases ht
    exact (hrun (by simp) (by simp [Frame.closes])).hangup (by simp) rfl (Nat.zero_le _)
  split at ht
  · have hempty : Running log { s with stack := [] } := hrun .nil (by simp)
    unfold Overrides.OnEventWrite at ht
    split at ht
    · split at ht
      · cases ht
        exact hempty.hangup (by simp) rfl (Nat.zero_le _)
      · obtain ⟨l, hl, ht⟩ := Option.bind_eq_some_iff.mp ht
        obtain ⟨htied, hiff⟩ := h.tied.completeConnection hl
        have hest : Running log { s with sock := l, stack := [], setBy := .established } :=
          hempty.same ⟨rfl, rfl, rfl, hiff, fun _ => htied⟩
        exact hest.startHandshake (fun hnone => hevt (hiff.mp hnone)) ht rfl (Nat.zero_le _)
    · exact hempty.fireWrite hevt ht rfl (Nat.zero_le _)
  · cases ht
    exact hpop

/-- `OnEventRead` goes on after `OnRead`. -/
lemma Follows.afterOnRead (h : Follows log s) (hstack : s.stack = .OnRead :: k)
    (ht : overrides.resume { s with stack := k } a .OnRead = some t) :
    Follows (log ++ added k t.stack) t := by
  have hbelow : ∀ g ∈ k, onTop .OnDisconnected g = true ∧ g.closes = false :=
    fun g hg => onTop_handler (h.onTop_tail hstack g hg)
  have hfirst : ∀ f ∈ s.stack, f.closes = false := by
    rw [hstack]
    exact List.forall_mem_cons.mpr ⟨rfl, fun g hg => (hbelow g hg).2⟩
  have hpush : Told log { s with stack := .OnDisconnected :: k } := by
    refine h.withStack (List.pairwise_cons.mpr ⟨fun g hg => (hbelow g hg).1, ?_⟩) (fun _ => .inl ?_)
    · exact (h.tail hstack).nested
    · rw [hstack]
      exact List.mem_cons_self
  cases ht
  split
  · change Follows
      (log ++ added k (fireDisconnected { s with stack := .OnDisconnected :: k }).stack)
      (fireDisconnected { s with stack := .OnDisconnected :: k })
    unfold fireDisconnected
    split
    · rename_i hconn
      have hssl := (h.session hconn).1
      have hevt := h.reading (hstack ▸ List.mem_cons_self) hssl
      change Follows (log ++ added k (.listener .NETEV_DISCONNECTED :: .OnDisconnected :: k)) _
      rw [added_listener (Nat.le_succ _)]
      exact hpush.disconnects hssl (h.quiet hevt hfirst) (.inr ⟨_, _, rfl, rfl⟩)
    · change Follows (log ++ []) { s with stack := .OnDisconnected :: k }
      rw [List.append_nil]
      refine ⟨hpush, fun hD => .inl ?_, fun _ _ _ => .inr rfl⟩
      exact Decidable.of_not_not (fun hevt => h.quiet hevt hfirst hD)
  · rw [added_self, List.append_nil]
    exact h.pop hstack (fun hc => by cases hc)

/-- A call that closes the socket goes on after the listener. -/
lemma Follows.afterDisconnect (h : Follows log s) {f : Frame NetEvent} (hstack : s.stack = f :: k)
    (hf : f.closes = true) (hok : .raised .NETEV_DISCONNECTED ∈ log →
      s.lastSockErrorNo ≠ 0 ∨ s.sock.mEvt = none)
    (ht : overrides.resume { s with stack := k } a f = some t) :
    t.stack = k ∧ Follows log t := by
  have htail := h.tail hstack
  have hrest : ∀ g ∈ k, g.closes = false :=
    fun g hg => closes_of_onTop (h.onTop_tail hstack g hg) hf
  have hpop : s.lastSockErrorNo = 0 → Follows log { s with stack := k } := by
    intro hzero
    exact h.pop hstack (fun _ hD => (hok hD).resolve_left (absurd hzero))
  cases f with
  | procSSLErrCloseNeedEnd =>
    cases ht
    split
    · obtain ⟨hclosed, hevt, -, hk⟩ := htail.close
      exact ⟨hk, hclosed.ended hevt (hk ▸ hrest)⟩
    · rename_i hzero
      exact ⟨rfl, hpop (Decidable.of_not_not hzero)⟩
  | OnDisconnected =>
    cases ht
    split
    · obtain ⟨hclosed, hevt⟩ := htail.closeSock (fun hr => by
        cases h.onTop_tail hstack _ hr)
      exact ⟨rfl, hclosed.ended hevt hrest⟩
    · rename_i hzero
      exact ⟨rfl, hpop (Decidable.of_not_not hzero)⟩
  | listener | OnRead | esMain => cases hf

lemma Follows.next (h : Follows log s) {f : Frame NetEvent} (hstack : s.stack = f :: k)
    (hok : f.closes = true → .raised .NETEV_DISCONNECTED ∈ log →
      s.lastSockErrorNo ≠ 0 ∨ s.sock.mEvt = none)
    (ht : overrides.resume { s with stack := k } a f = some t) :
    Follows (log ++ added k t.stack) t := by
  have hcloses : f.closes = true → Follows (log ++ added k t.stack) t := by
    intro hf
    obtain ⟨hk, ht⟩ := h.afterDisconnect hstack hf (hok hf) ht
    rw [hk, added_self, List.append_nil]
    exact ht
  cases f with
  | listener e =>
    cases ht
    rw [added_self, List.append_nil]
    exact h.pop hstack (fun hc => by cases hc)
  | procSSLErrCloseNeedEnd => exact hcloses rfl
  | OnRead => exact h.afterOnRead hstack ht
  | OnDisconnected => exact hcloses rfl
  | esMain id read hangup write => exact h.esMain hstack ht

lemma Follows.sslAccept (h : Follows log s) (huser : s.userRuns = true)
    (hC : a.ssl.ret = 1 → .raised .NETEV_CONNECTED ∉ log)
    (hD : a.ssl.ret = 1 ∨ a.fails → .raised .NETEV_DISCONNECTED ∉ log)
    (ht : s.sslAccept a = some t) : Follows (log ++ added s.stack t.stack) t := by
  obtain ⟨hssl, hhand⟩ := procSSLConnect_handshakes h.tied ht
  have hrun : a.ssl.ret = 1 ∨ a.fails → Follows (log ++ added s.stack t.stack) t := by
    intro hends
    have hquiet := hD hends
    refine Running.added_handshakes ⟨h.toTold, hquiet, fun f hf => ?_⟩ hhand hssl hC
      (added_self _) (Nat.le_refl _)
    cases hc : f.closes with
    | false => rfl
    | true =>
      rcases h.closing f hf hc with hmem | hhead
      · exact absurd hmem hquiet
      · unfold userRuns at huser
        cases hs : s.stack with
        | nil =>
          rw [hs] at hf
          cases hf
        | cons g l =>
          rw [hs] at hhead huser
          cases hhead
          cases huser
  cases hhand with
  | waits hret hok hs => exact h.added_same hs (added_self _)
  | succeeds hret ht => exact hrun (.inl hret)
  | fails hfail hs ht => exact hrun (.inr hfail)

lemma Follows.close (h : Follows log s) : Follows (log ++ [.closed]) s.close := by
  obtain ⟨hclosed, hevt, hssl, hk⟩ := h.toTold.close
  have hmem : ∀ e : NetEvent, .raised e ∈ log ++ [.closed] → .raised e ∈ log := by
    intro e he
    rcases List.mem_append.mp he with he | he
    · exact he
    · cases List.mem_singleton.mp he
  have hin : InOrder log .closed := by
    refine ⟨?_, ?_, ?_⟩
    · rintro _ ⟨⟩
    · rintro ⟨⟩
    · rintro (⟨⟨⟩⟩ | ⟨⟨⟩⟩)
  refine ⟨⟨hclosed.tied, fun hc => ?_, fun hC => hclosed.known (hmem _ hC), fun _ => ⟨hssl, hevt⟩,
    hclosed.nested, hclosed.reading, always_concat.mpr ⟨hclosed.order, hin⟩⟩, fun _ => .inl hevt,
    fun f hf hc => ?_⟩
  · exact absurd (hssl.symm.trans (hclosed.session hc).1) (by decide)
  · rw [hk] at hf ⊢
    exact (h.closing f hf hc).imp (List.mem_append_left _) id

lemma note_toList {x : SmartSSLAction} (hx : x ≠ .call .close) (ht : s.step x = some t) :
    (s.note x).toList = added (s.below x) t.stack := by
  unfold note
  split
  · exact absurd rfl hx
  · rw [ht]
    rfl

lemma Follows.step (h : Follows log s) {x : SmartSSLAction} (hok : ordered ⟨s, log⟩ x = true)
    (ht : s.step x = some t) : Follows (log ++ (s.note x).toList) t := by
  cases x with
  | call c =>
    obtain ⟨huser, hc⟩ := Option.ite_none_right_eq_some.mp ht
    have hsame : SmartSSLAction.call c ≠ .call .close → Same s t →
        Follows (log ++ (s.note (.call c)).toList) t := by
      intro hne hs
      rw [note_toList hne ht]
      exact h.added_same hs (added_self _)
    cases c with
    | sslAccept a =>
      obtain ⟨hC, hD⟩ := of_decide_eq_true hok
      rw [note_toList (by rintro ⟨⟩) ht]
      exact h.sslAccept huser hC hD hc
    | sendPacket buf a =>
      obtain ⟨⟨r, u⟩, hu, rfl⟩ := Option.map_eq_some_iff.mp hc
      exact hsame (by rintro ⟨⟩) (same_sendPacket h.tied hu)
    | recvPacket a => exact hsame (by rintro ⟨⟩) (same_recvPacket h.tied hc)
    | reserveWrite pevt => exact hsame (by rintro ⟨⟩) (same_changeEvent h.tied hc rfl rfl)
    | close =>
      cases hc
      exact h.close
  | otherSocket n =>
    obtain ⟨-, hc⟩ := Option.ite_none_right_eq_some.mp ht
    rw [note_toList (by rintro ⟨⟩) ht]
    cases hc
    exact h.added_same (.of_eq rfl rfl rfl rfl) (added_self _)
  | report read hangup write =>
    rw [note_toList (by rintro ⟨⟩) ht]
    change report s read hangup write = some t at ht
    unfold SocketObj.report at ht
    split at ht
    · rename_i e hstack hevt
      obtain ⟨-, ht⟩ := Option.ite_none_right_eq_some.mp ht
      cases ht
      have hrun : Running log { s with stack := [.esMain e.id read hangup write] } :=
        h.running (hevt ▸ Option.some_ne_none e) (by simp [hstack]) (by simp)
          (by simp [Frame.closes])
      change Follows (log ++ added s.stack (.esMain e.id read hangup write :: s.stack))
        { s with stack := .esMain e.id read hangup write :: s.stack }
      rw [hstack]
      exact hrun.added_same (.of_eq rfl rfl rfl rfl) rfl
    · cases ht
  | next a =>
    rw [note_toList (by rintro ⟨⟩) ht]
    change overrides.next s a = some t at ht
    unfold Overrides.next at ht
    split at ht
    · cases ht
    · rename_i f k hstack
      unfold ordered at hok
      dsimp only at hok
      rw [hstack] at hok
      have hfollows := h.next hstack (of_decide_eq_true hok) ht
      unfold below
      rw [hstack]
      exact hfollows

/-- A call goes on after the listener without closing the socket. -/
lemma Follows.watched (h : Follows log s) {f : Frame NetEvent} (hstack : s.stack = f :: k)
    (hf : f.closes = true) (hzero : s.lastSockErrorNo = 0) (hevt : s.sock.mEvt ≠ none)
    (ht : overrides.resume { s with stack := k } a f = some t) :
    t.sock.mEvt ≠ none ∧ ∀ g ∈ t.stack, g.closes = false := by
  have hrest : ∀ g ∈ k, g.closes = false :=
    fun g hg => closes_of_onTop (h.onTop_tail hstack g hg) hf
  have heq : t = { s with stack := k } := by
    cases f with
    | procSSLErrCloseNeedEnd | OnDisconnected =>
      cases ht
      exact if_neg (fun hne => hne hzero)
    | listener | OnRead | esMain => cases hf
  subst heq
  exact ⟨hevt, hrest⟩

/-- The first step that is not in order breaks the order, or leaves the socket watched. -/
lemma Follows.lose (h : Follows log s) {x : SmartSSLAction} (hok : ¬ ordered ⟨s, log⟩ x = true)
    (ht : s.step x = some t) :
    ¬ (Always InOrder (log ++ (s.note x).toList) ∧ Ends ⟨t, log ++ (s.note x).toList⟩) := by
  rintro ⟨halways, hends⟩
  cases x with
  | otherSocket | report => exact hok rfl
  | call c =>
    cases c with
    | sendPacket | recvPacket | reserveWrite | close => exact hok rfl
    | sslAccept a =>
      rw [note_toList (by rintro ⟨⟩) ht] at halways
      obtain ⟨-, hc⟩ := Option.ite_none_right_eq_some.mp ht
      refine hok (decide_eq_true ?_)
      cases (procSSLConnect_handshakes h.tied hc).2 with
      | waits hret hfail hs =>
        exact ⟨fun hr => absurd hr hret, fun hr => absurd hr (not_or.mpr ⟨hret, hfail⟩)⟩
      | succeeds hret ht =>
        subst ht
        change Always InOrder
          (log ++ added s.stack (.listener .NETEV_CONNECTED :: s.stack)) at halways
        rw [added_listener (Nat.le_refl _)] at halways
        have hin := (always_concat.mp halways).2
        exact ⟨fun _ => hin.once rfl, fun _ => (hin.last _ rfl).2⟩
      | @fails hfail u hs ht =>
        subst ht
        change Always InOrder (log ++ added s.stack (.listener .NETEV_DISCONNECTED ::
          .procSSLErrCloseNeedEnd :: u.stack)) at halways
        rw [added_listener (by rw [hs.stack]; exact Nat.le_succ _)] at halways
        have hin := (always_concat.mp halways).2
        exact ⟨fun hr => absurd hr hfail.1, fun _ => (hin.last _ rfl).2⟩
  | next a =>
    change overrides.next s a = some t at ht
    unfold Overrides.next at ht
    split at ht
    · cases ht
    · rename_i f k hstack
      unfold ordered at hok
      dsimp only at hok
      rw [hstack] at hok
      refine hok (decide_eq_true (fun hf hD => Decidable.of_not_not (fun hnot => ?_)))
      obtain ⟨hzero, hevt⟩ := not_or.mp hnot
      obtain ⟨hwatched, hrest⟩ := h.watched hstack hf (Decidable.of_not_not hzero) hevt ht
      rcases hends (List.mem_append_left _ hD) with hnone | ⟨g, hg, hc⟩
      · exact hwatched hnone
      · rw [hrest g hg] at hc
        cases hc

lemma Follows.opened (h : Opened s) (hstack : s.stack = []) : Follows [] s := by
  obtain ⟨htied, hconn⟩ := opened_tied h
  refine ⟨⟨htied, fun hc => ?_, ?_, ?_, ?_, ?_, .nil⟩, ?_, ?_⟩
  · exact absurd (hconn.symm.trans hc) (by decide)
  · rintro ⟨⟩
  · rintro ⟨⟩
  · rw [hstack]
    exact .nil
  · rw [hstack]
    rintro ⟨⟩
  · rintro ⟨⟩
  · rw [hstack]
    rintro _ ⟨⟩

/-- In every run of a session, as long as `sslAccept` neither succeeds again after a connect nor
ends a handshake after a disconnect, and the listener for a disconnect closes the socket or
leaves `lastSockErrorNo` set: one connect is raised, before all that can be read or written,
nothing is raised after a disconnect or after `close`, and after the disconnect the socket is
not watched. The first other step breaks this. -/
theorem events_in_order {s : Recorded SmartSSL SSLNote}
    (h : sslHistory.Reaches (fun s x => ordered s x = true) s) :
    (Always InOrder s.log ∧ Ends s) ∧ ∀ x t, sslHistory.step s x = some t →
      ((Always InOrder t.log ∧ Ends t) ↔ ordered s x = true) := by
  refine h.exact (I := fun s => Follows s.log s.state) (P := fun s => Always InOrder s.log ∧ Ends s)
    (fun s h0 => ?_) (fun s x t hI hok hs => ?_) (fun s hI => ?_) (fun s x t hI hok hs => ?_)
  · rw [h0.2.2]
    exact .opened h0.1 h0.2.1
  · obtain ⟨hstep, hlog⟩ := recorded_step hs
    rw [hlog]
    exact hI.step hok hstep
  · refine ⟨hI.order, fun hD => (hI.ending hD).imp id ?_⟩
    rintro ⟨f, k, hf, hk | hk⟩
    · exact ⟨f, hk ▸ List.mem_cons_self, hf⟩
    · exact ⟨f, hk ▸ List.mem_cons_of_mem _ List.mem_cons_self, hf⟩
  · obtain ⟨hstep, hlog⟩ := recorded_step hs
    have hlose := hI.lose hok hstep
    rw [← hlog] at hlose
    exact hlose

/-- The accept succeeds, data comes, and then the end of the session, which is read with it. -/
theorem events_in_order_child : ∃ s,
    sslHistory.Reaches (fun s x => ordered s x = true) s ∧ s.log = [.raised .NETEV_CONNECTED,
      .raised .NETEV_READABLE, .raised .NETEV_DISCONNECTED] ∧ Always InOrder s.log ∧ Ends s := by
  obtain ⟨s, hr, hlog⟩ := System.exists_of_exec_restrict (M := sslHistory) (T := ordered)
    (f := fun s => s.log) (s := ⟨child, []⟩)
    (l := [.report true false false, ret, ret, ret, ret, .report true false false, ret,
      .call (.recvPacket ⟨⟨0, .SSL_ERROR_ZERO_RETURN⟩, 0, none⟩), ret, ret, ret, ret])
    (b := [.raised .NETEV_CONNECTED, .raised .NETEV_READABLE, .raised .NETEV_DISCONNECTED])
    ⟨opened_child, rfl, rfl⟩ (by decide +kernel)
  exact ⟨s, hr, hlog, (events_in_order hr).1⟩

end SmartSSL

end EdNio.Net
