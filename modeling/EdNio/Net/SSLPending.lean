import EdNio.Net.SSLReading

/-!
# Retrying a pending packet with SSL

Only the write handler of a smart socket retries `SSL_write`. When OpenSSL wants to read, be it
for a write or for a read, the write handler is not watched for any more, and no event brings
the packet any further.
-/

namespace EdNio.Net
open Transition SocketObj

/-- The rest of the call does not come to the write handler, and does not end the session. -/
def Frame.quiet {ε : Type} : Frame ε → Bool
  | .procSSLErrCloseNeedEnd => false
  | .esMain _ _ _ write => !write
  | _ => true

namespace SmartSSL

variable {s t u : SmartSSL} {a : Answers}

/-- A packet is pending on a connected session, and the task waits for events. -/
structure PendingAtRest (s : SmartSSL) : Prop where
  idle : s.stack = []
  connected : s.own.mSessionConencted = true
  pending : s.own.mPendingBuf.isSome = true
  registered : s.sock.mEvt.isSome = true

instance (s : SmartSSL) : Decidable s.PendingAtRest :=
  decidable_of_iff (s.stack = [] ∧ s.own.mSessionConencted = true ∧
      s.own.mPendingBuf.isSome = true ∧ s.sock.mEvt.isSome = true)
    ⟨fun ⟨h1, h2, h3, h4⟩ => ⟨h1, h2, h3, h4⟩, fun ⟨h1, h2, h3, h4⟩ => ⟨h1, h2, h3, h4⟩⟩

/-- `EVT_WRITE` is watched for, and the write handler gives the pending bytes to `SSL_write`. -/
def WritesNow (s : SmartSSL) : Prop :=
  ∃ e, s.sock.mEvt = some e ∧ e.interest.evtWrite = true ∧
    ∀ a, ∃ t, overrides.OnEventWrite s a = some t ∧
      t.own.writes = s.own.writes ++ [s.pendingBytes]

/-- Events, what the task does with them, and calls of `recvPacket`, as long as OpenSSL does not
want to write. -/
def serves : SmartSSLAction → Bool
  | .report _ _ _ => true
  | .next a => a.ssl.err ≠ .SSL_ERROR_WANT_WRITE
  | .otherSocket _ => true
  | .call (.recvPacket a) => a.ssl.err ≠ .SSL_ERROR_WANT_WRITE
  | .call _ => false

/-- Some such steps lead to a call of `SSL_write` with the pending bytes. -/
def Retries (s : SmartSSL) : Prop :=
  ∃ t, (sslSession.restrict (fun _ x => serves x)).Leads s t ∧
    t.own.writes = s.own.writes ++ [s.pendingBytes]

/-- The write handler is out of reach; `w` are the writes so far. -/
structure Stuck (w : List (List UInt8)) (s : SmartSSL) : Prop where
  writes : s.own.writes = w
  connected : s.own.mSessionConencted = true
  unwatched : ∀ e, s.sock.mEvt = some e → e.interest.evtWrite = false
  frames : ∀ f ∈ s.stack, f.quiet = true

variable {w : List (List UInt8)}

lemma Stuck.withStack (h : Stuck w s) {k : List (Frame NetEvent)}
    (hk : ∀ f ∈ k, f.quiet = true) : Stuck w { s with stack := k } :=
  ⟨h.writes, h.connected, h.unwatched, hk⟩

lemma Stuck.push (h : Stuck w s) {f : Frame NetEvent} (hf : f.quiet = true) :
    Stuck w (s.push f) := by
  refine h.withStack (fun g hg => ?_)
  rcases List.mem_cons.mp hg with rfl | hg
  · exact hf
  · exact h.frames g hg

lemma Stuck.closeSock (h : Stuck w s) : Stuck w s.closeSock := by
  refine ⟨h.writes, h.connected, fun e he => ?_, h.frames⟩
  rcases s.sock.close_mEvt with heq | hnone
  · exact h.unwatched e (heq.symm.trans he)
  · exact absurd (hnone.symm.trans he) (by simp)

lemma Stuck.fireDisconnected (h : Stuck w s) : Stuck w s.fireDisconnected := by
  unfold EdNio.Net.SmartSSL.fireDisconnected
  split
  · exact h.push rfl
  · exact h

lemma Stuck.fireRead (h : Stuck w s) (ht : s.fireRead a = some t) : Stuck w t := by
  have hat : Stuck w s.atEvent := ⟨h.writes, h.connected, h.unwatched, h.frames⟩
  have hconn : ¬ s.atEvent.own.mSessionConencted = false := by
    rw [hat.connected]
    decide
  unfold EdNio.Net.SmartSSL.fireRead procSSLRead at ht
  rw [if_neg hconn] at ht
  cases ht
  exact hat.push rfl

/-- Only an error that wants to write watches for writing. -/
lemma Stuck.changeSSLSockEvent (h : Stuck w s) {err : SSLError} {pevt : Option Nat}
    (herr : err ≠ .SSL_ERROR_WANT_WRITE) (ht : s.changeSSLSockEvent err pevt = some t) :
    Stuck w t := by
  unfold EdNio.Net.SmartSSL.changeSSLSockEvent at ht
  split at ht
  · exact absurd rfl herr
  · obtain ⟨k, hk, rfl⟩ := changeEvent_cases ht
    refine ⟨h.writes, h.connected, fun e he => ?_, h.frames⟩
    rw [EdSocket.changeEvent_interest hk e he]
  · cases ht
    exact ⟨h.writes, h.connected, h.unwatched, h.frames⟩
  · cases ht
    exact h

lemma Stuck.recvPacket (h : Stuck w s) (herr : a.ssl.err ≠ .SSL_ERROR_WANT_WRITE)
    (ht : s.recvPacket a = some t) : Stuck w t := by
  have h' : Stuck w { s.byUser with own := { s.byUser.own with mSSLWantEvent := none } } :=
    ⟨h.writes, h.connected, h.unwatched, h.frames⟩
  unfold EdNio.Net.SmartSSL.recvPacket at ht
  dsimp only at ht
  split at ht
  · exact SSLClass.recv_keeps (I := Stuck w) (fun ht => h'.changeSSLSockEvent herr ht)
      (fun hs => ⟨hs.writes, hs.connected, hs.unwatched, hs.frames⟩) h' ht
  · cases ht

lemma Stuck.resume (h : Stuck w s) {f : Frame NetEvent} (hf : f.quiet = true)
    (ht : overrides.resume s a f = some t) : Stuck w t := by
  cases f with
  | listener e =>
    cases ht
    exact h
  | procSSLErrCloseNeedEnd => cases hf
  | OnRead =>
    cases ht
    split
    · exact Stuck.fireDisconnected (h.push rfl)
    · exact h
  | OnDisconnected =>
    cases ht
    split
    · exact h.closeSock
    · exact h
  | esMain id read hangup write =>
    have hwrite : write = false := by simpa [Frame.quiet] using hf
    subst hwrite
    rw [Overrides.resume] at ht
    split at ht
    · cases ht
      exact h
    split at ht
    · have hframe : Stuck w (s.push (.esMain id false hangup false)) := h.push rfl
      unfold Overrides.OnEventRead at ht
      split at ht
      · cases ht
        exact hframe
      · exact Stuck.fireRead (hframe.push rfl) ht
    split at ht
    · cases ht
      exact Stuck.fireDisconnected (Stuck.closeSock (h.push rfl))
    · rw [if_neg Bool.false_ne_true] at ht
      cases ht
      exact h

/-- No step of an event or of `recvPacket` brings the write handler back, unless OpenSSL wants
to write. -/
lemma Stuck.step (h : Stuck w s) {x : SmartSSLAction} (hx : serves x = true)
    (ht : s.step x = some t) : Stuck w t := by
  cases x with
  | call c =>
    obtain ⟨-, ht⟩ := Option.ite_none_right_eq_some.mp ht
    cases c with
    | recvPacket a => exact h.recvPacket (of_decide_eq_true hx) ht
    | sslAccept a | sendPacket buf a | reserveWrite pevt | close => cases hx
  | otherSocket n =>
    obtain ⟨-, ht⟩ := Option.ite_none_right_eq_some.mp ht
    cases ht
    exact ⟨h.writes, h.connected, h.unwatched, h.frames⟩
  | report read hangup write =>
    change s.report read hangup write = some t at ht
    unfold SocketObj.report at ht
    split at ht
    · rename_i e hstack he
      split at ht
      · rename_i hflags
        have hwrite : write = false := by
          cases hw : write with
          | false => rfl
          | true => exact absurd (hflags.2 hw) (by simp [h.unwatched e he])
        cases ht
        exact h.push (by simp [Frame.quiet, hwrite])
      · cases ht
    · cases ht
  | next a =>
    change overrides.next s a = some t at ht
    unfold Overrides.next at ht
    split at ht
    · cases ht
    · rename_i f k hstack
      have hframes : ∀ g ∈ f :: k, g.quiet = true := hstack ▸ h.frames
      exact (h.withStack (fun g hg => hframes g (.tail f hg))).resume (hframes f (.head k)) ht

lemma Stuck.leads (h : Stuck w s)
    (hl : (sslSession.restrict (fun _ x => serves x)).Leads s t) : Stuck w t := by
  induction hl with
  | refl => exact h
  | step _ hs ih =>
    obtain ⟨hx, hs⟩ := Option.ite_none_right_eq_some.mp hs
    exact ih.step hx hs

/-- On a registered socket the events can be changed, which writes nothing. -/
lemma changeEvent_writes {e : Registration} (he : s.sock.mEvt = some e) (flags : Interest)
    (w : Watch) (pevt : Option Nat) :
    ∃ t, s.changeEvent flags w pevt = some t ∧ t.own = s.own :=
  ⟨_, congrArg (Option.map _) (EdSocket.changeEvent_eq he), rfl⟩

lemma changeSSLSockEvent_writes {e : Registration} (he : s.sock.mEvt = some e) (err : SSLError)
    (pevt : Option Nat) :
    ∃ t, s.changeSSLSockEvent err pevt = some t ∧ t.own.writes = s.own.writes := by
  have hwant : ∀ own : SmartSSLFields, own.writes = s.own.writes → ∀ flags w, ∃ t,
      changeEvent { s with own := own } flags w pevt = some t ∧ t.own.writes = s.own.writes := by
    intro own hown flags w
    obtain ⟨t, ht, htown⟩ := changeEvent_writes (s := { s with own := own }) he flags w pevt
    exact ⟨t, ht, (congrArg SmartSSLFields.writes htown).trans hown⟩
  unfold EdNio.Net.SmartSSL.changeSSLSockEvent
  split
  · exact hwant { s.own with
      mSSLWantEvent := some .EVT_WRITE
      lastWant := some .SSL_ERROR_WANT_WRITE } rfl _ _
  · exact hwant { s.own with
      mSSLWantEvent := some .EVT_READ
      lastWant := some .SSL_ERROR_WANT_READ } rfl _ _
  · exact ⟨_, rfl, rfl⟩
  · exact ⟨s, rfl, rfl⟩

/-- The write handler on a connected session with a packet pending. -/
lemma procSSLOnWrite_writes (hs : s.PendingAtRest) (hssl : s.own.mSSL = true) (a : Answers) :
    ∃ t, s.procSSLOnWrite a = some t ∧ t.own.writes = s.own.writes ++ [s.pendingBytes] := by
  obtain ⟨e, he⟩ := Option.isSome_iff_exists.mp hs.registered
  obtain ⟨b, hb⟩ := Option.isSome_iff_exists.mp hs.pending
  unfold procSSLOnWrite
  rw [if_neg (by simp [hs.connected])]
  split
  · rw [if_pos hssl]
    dsimp only
    split
    · split
      · obtain ⟨t, ht, hown⟩ := changeEvent_writes (s := { s with own := { s.own with
            mSSLWantEvent := none
            writes := s.own.writes ++ [s.pendingBytes]
            mPendingWriteCnt := s.own.mPendingWriteCnt + a.ssl.ret.toNat } }) he
          ⟨true, false, true⟩ .drained a.pevt
        exact ⟨_, congrArg (Option.map _) ht, congrArg SmartSSLFields.writes hown⟩
      · exact ⟨_, rfl, rfl⟩
    · exact changeSSLSockEvent_writes (s := { s with own := { s.own with
        mSSLWantEvent := none, writes := s.own.writes ++ [s.pendingBytes] } }) he a.ssl.err a.pevt
  · rename_i hnone
    rw [hb] at hnone
    cases hnone

lemma evtWrite_iff (hinv : s.Inv) (hssl : s.own.mSSL = true) :
    (watchFlags true s.setBy).evtWrite = true ↔
      s.setBy = .want .SSL_ERROR_WANT_WRITE ∨ s.setBy = .reserved := by
  have hne := hinv.connected hssl
  cases h : s.setBy with
  | connecting => exact absurd h hne
  | want err => simp [watchFlags]
  | opened | established | drained | reserved => simp [watchFlags]

lemma PendingAtRest.writesNow (hs : s.PendingAtRest) (hinv : s.Inv)
    (hset : s.setBy = .want .SSL_ERROR_WANT_WRITE ∨ s.setBy = .reserved) : s.WritesNow := by
  have hssl := hinv.session hs.connected
  obtain ⟨e, he⟩ := Option.isSome_iff_exists.mp hs.registered
  refine ⟨e, he, ?_, fun a => ?_⟩
  · rw [hinv.watched e he]
    exact (evtWrite_iff hinv hssl).mpr hset
  · have hwrite : overrides.OnEventWrite s a = s.atEvent.procSSLOnWrite a :=
      if_neg (hinv.not_connecting hssl)
    rw [hwrite]
    exact procSSLOnWrite_writes (s := s.atEvent)
      ⟨hs.idle, hs.connected, hs.pending, hs.registered⟩ hssl a

lemma WritesNow.retries (h : s.WritesNow) (hs : s.PendingAtRest) : s.Retries := by
  obtain ⟨e, he, hwrite, hnow⟩ := h
  obtain ⟨t, ht, hwrites⟩ := hnow ⟨⟨1, .SSL_ERROR_NONE⟩, 0, none⟩
  have hreport : s.report false false true = some (s.push (.esMain e.id false false true)) := by
    simp [SocketObj.report, hs.idle, he, hwrite]
  have hnext : overrides.next (s.push (.esMain e.id false false true))
      ⟨⟨1, .SSL_ERROR_NONE⟩, 0, none⟩ = some t := by
    change (if s.sock.mEvt.map Registration.id ≠ some e.id then _ else _) = some t
    rw [he, if_neg (by simp)]
    exact ht
  have hstep : ∀ {u v : SmartSSL} {x : SmartSSLAction}, serves x = true → u.step x = some v →
      (sslSession.restrict (fun _ x => serves x)).step u x = some v :=
    fun hx hv => (if_pos hx).trans hv
  have hleads : (sslSession.restrict (fun _ x => serves x)).Leads s
      (s.push (.esMain e.id false false true)) :=
    .step .refl (hstep (x := .report false false true) rfl hreport)
  exact ⟨t, .step hleads
    (hstep (x := .next ⟨⟨1, .SSL_ERROR_NONE⟩, 0, none⟩) (by decide) hnext), hwrites⟩

lemma PendingAtRest.stays (hs : s.PendingAtRest) (hinv : s.Inv)
    (hset : ¬ (s.setBy = .want .SSL_ERROR_WANT_WRITE ∨ s.setBy = .reserved)) : ¬ s.Retries := by
  rintro ⟨t, hl, hwrites⟩
  have hstuck : Stuck s.own.writes s := by
    refine ⟨rfl, hs.connected, fun e he => ?_, fun f hf => ?_⟩
    · rw [hinv.watched e he]
      exact Bool.eq_false_iff.mpr
        (fun hw => hset ((evtWrite_iff hinv (hinv.session hs.connected)).mp hw))
    · rw [hs.idle] at hf
      cases hf
  have hsame := (hstuck.leads hl).writes
  rw [hwrites] at hsame
  simp at hsame

/-- In every state of every session in which a packet is pending and the task waits for events,
the packet can be written again, and then at the next write event, if and only if the last cause
of the events watched for was an error that wants to write, or `reserveWrite`. -/
theorem retries_iff (h : sslSession.Reachable s) (hs : s.PendingAtRest) :
    (s.Retries ↔ s.setBy = .want .SSL_ERROR_WANT_WRITE ∨ s.setBy = .reserved) ∧
      (s.Retries → s.WritesNow) := by
  have hinv := Inv.reachable h
  have hiff : s.Retries ↔ s.setBy = .want .SSL_ERROR_WANT_WRITE ∨ s.setBy = .reserved := by
    constructor
    · intro hr
      by_cases hset : s.setBy = .want .SSL_ERROR_WANT_WRITE ∨ s.setBy = .reserved
      · exact hset
      · exact absurd hr (hs.stays hinv hset)
    · intro hset
      exact (hs.writesNow hinv hset).retries hs
  exact ⟨hiff, fun hr => hs.writesNow hinv (hiff.mp hr)⟩

/-- A packet is sent on a session that is connected; `SSL_write` gives `err`. -/
def sendWants (err : SSLError) : List SmartSSLAction :=
  [.report true false false, ret, ret, ret, ret, .call (.sendPacket [1] ⟨⟨-1, err⟩, 0, none⟩)]

lemma exists_pending (err : SSLError)
    (h : (sslSession.exec child (sendWants err)).map (fun s => (decide s.PendingAtRest, s.setBy)) =
      some (true, .want err)) :
    ∃ s, sslSession.Reachable s ∧ s.PendingAtRest ∧ s.setBy = .want err := by
  obtain ⟨s, hs, hobs⟩ := System.exists_of_exec (M := sslSession) opened_child h
  obtain ⟨hrest, hset⟩ := Prod.mk.inj hobs
  exact ⟨s, hs, of_decide_eq_true hrest, hset⟩

theorem retries_iff_wantWrite : ∃ s, sslSession.Reachable s ∧ s.PendingAtRest ∧ s.Retries ∧
    s.WritesNow := by
  obtain ⟨s, hs, hrest, hset⟩ := exists_pending .SSL_ERROR_WANT_WRITE (by decide +kernel)
  obtain ⟨hiff, hnow⟩ := retries_iff hs hrest
  have hr := hiff.mpr (.inl hset)
  exact ⟨s, hs, hrest, hr, hnow hr⟩

/-- `SSL_write` wants to read: only the read handler comes, which does not write. -/
theorem not_retries : ¬ ∀ s, sslSession.Reachable s → s.PendingAtRest → s.Retries := by
  intro h
  obtain ⟨s, hs, hrest, hset⟩ := exists_pending .SSL_ERROR_WANT_READ (by decide +kernel)
  refine hrest.stays (Inv.reachable hs) ?_ (h s hs hrest)
  rw [hset]
  decide

end SmartSSL

end EdNio.Net
