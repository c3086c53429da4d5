import EdNio.Net.EdSocket

/-!
# A TCP socket

What the functions of `EdSocket` keep of a client or child TCP socket.
-/

namespace EdNio.Net

namespace EdSocket

variable {s t : EdSocket} {n id : Nat}

/-- A client or child TCP socket whose registration is one of the first `n`. -/
structure TcpInv (s : EdSocket) (n : Nat) : Prop where
  type : s.mType = .SOCK_TYPE_TCP
  evt : ∀ r, s.mEvt = some r → s.mFd.isSome = true ∧ s.mIsReg = true ∧ r.id < n
  idle : s.mStatus = .SOCK_STATUS_DISCONNECTED → s.mEvt = none
  connecting : s.mStatus = .SOCK_STATUS_CONNECTING → ∀ r, s.mEvt = some r →
    r.interest.evtRead = false
  status : s.mStatus ≠ .SOCK_STATUS_LISTENING

lemma TcpInv.mono (h : s.TcpInv n) {m : Nat} (hm : n ≤ m) : s.TcpInv m where
  type := h.type
  evt r hr := by
    obtain ⟨hfd, hreg, hid⟩ := h.evt r hr
    exact ⟨hfd, hreg, Nat.lt_of_lt_of_le hid hm⟩
  idle := h.idle
  connecting := h.connecting
  status := h.status

lemma TcpInv.mEvt_of_mFd (h : s.TcpInv n) (hfd : s.mFd = none) : s.mEvt = none := by
  cases hr : s.mEvt with
  | none => rfl
  | some r =>
    have hsome := (h.evt r hr).1
    rw [hfd] at hsome
    cases hsome

lemma TcpInv.openSock (h : s.TcpInv n) {fd : Option Nat}
    (hfd : fd.isSome = true ∨ s.mFd = none) : (s.openSock .SOCK_TYPE_TCP fd).TcpInv n where
  type := rfl
  evt r hr := by
    obtain ⟨hsome, hreg, hid⟩ := h.evt r hr
    rcases hfd with hfd | hnone
    · exact ⟨hfd, hreg, hid⟩
    · rw [hnone] at hsome
      cases hsome
  idle := h.idle
  connecting := h.connecting
  status := h.status

lemma TcpInv.close (h : s.TcpInv n) :
    s.close.TcpInv n ∧ s.close.mEvt = none ∧
      (s.close.mStatus = s.mStatus ∨ s.close.mStatus = .SOCK_STATUS_DISCONNECTED) := by
  cases hfd : s.mFd with
  | none =>
    have hclose : s.close = { s with mIsBinded := false } := by
      simp [EdSocket.close, hfd]
    rw [hclose]
    exact ⟨⟨h.type, h.evt, h.idle, h.connecting, h.status⟩, h.mEvt_of_mFd hfd, .inl rfl⟩
  | some fd =>
    have hevt : s.close.mEvt = none := by
      unfold EdSocket.close deregisterEvent
      rw [hfd]
      cases hr : s.mEvt with
      | none => cases hreg : s.mIsReg <;> simp [hr]
      | some r => simp [(h.evt r hr).2.1]
    have hstatus : s.close.mStatus = .SOCK_STATUS_DISCONNECTED := by
      unfold EdSocket.close
      rw [hfd]
      rfl
    have htype : s.close.mType = s.mType := by
      unfold EdSocket.close deregisterEvent
      rw [hfd]
      cases s.mIsReg <;> rfl
    refine ⟨⟨htype.trans h.type, ?_, fun _ => hevt, ?_, ?_⟩, hevt, .inr hstatus⟩
    · intro r hr
      rw [hevt] at hr
      cases hr
    · intro _ r hr
      rw [hevt] at hr
      cases hr
    · rw [hstatus]
      decide

lemma registerEvent_new {flags : Interest} {pevt : Option Nat}
    (hs : s.registerEvent flags pevt = some t) :
    t.mType = s.mType ∧ t.mStatus = s.mStatus ∧
      ∀ r, t.mEvt = some r → (s.mEvt = some r ∧ t = s) ∨
        t.mFd.isSome = true ∧ t.mIsReg = true ∧ pevt = some r.id ∧ r.interest = flags := by
  rcases registerEvent_cases hs with rfl | rfl
  · exact ⟨rfl, rfl, fun r hr => .inl ⟨hr, rfl⟩⟩
  · refine ⟨rfl, rfl, fun r hr => .inr ?_⟩
    obtain ⟨fd, hfd, hr⟩ := Option.bind_eq_some_iff.mp hr
    obtain ⟨id, hid, rfl⟩ := Option.map_eq_some_iff.mp hr
    exact ⟨Option.isSome_of_eq_some hfd, rfl, hid, rfl⟩

/-- A connection is opened by `connect` on a socket without one. -/
lemma TcpInv.connectIp (h : s.TcpInv n) {fd pevt : Option Nat} (hid : ∀ id, pevt = some id → id = n)
    (hs : s.connectIp fd pevt = some t) :
    (s.mStatus ≠ .SOCK_STATUS_DISCONNECTED ∧ t = s) ∨
      (s.mStatus = .SOCK_STATUS_DISCONNECTED ∧ t.mStatus = .SOCK_STATUS_CONNECTING ∧
        t.TcpInv (n + 1) ∧ ∀ r, t.mEvt = some r → r.id = n) := by
  unfold EdSocket.connectIp at hs
  by_cases hstatus : s.mStatus = .SOCK_STATUS_DISCONNECTED
  · have hopen : (if s.mFd = none then s.openSock .SOCK_TYPE_TCP fd else s).mType =
        .SOCK_TYPE_TCP ∧
        (if s.mFd = none then s.openSock .SOCK_TYPE_TCP fd else s).mEvt = none := by
      split
      · exact ⟨rfl, h.idle hstatus⟩
      · exact ⟨h.type, h.idle hstatus⟩
    rw [if_neg (fun hne => hne hstatus)] at hs
    dsimp only at hs
    generalize (if s.mFd = none then s.openSock .SOCK_TYPE_TCP fd else s) = u at hopen hs
    obtain ⟨htype, hnone⟩ := hopen
    rw [if_pos htype] at hs
    obtain ⟨v, hv, rfl⟩ := Option.map_eq_some_iff.mp hs
    obtain ⟨hvtype, -, hnew⟩ := registerEvent_new hv
    have hreg : ∀ r, v.mEvt = some r →
        v.mFd.isSome = true ∧ v.mIsReg = true ∧ r.id = n ∧ r.interest.evtRead = false := by
      intro r hr
      rcases hnew r hr with ⟨hold, -⟩ | ⟨hfd, hreg, hpevt, hflags⟩
      · rw [hnone] at hold
        cases hold
      · refine ⟨hfd, hreg, hid _ hpevt, ?_⟩
        rw [hflags]
    refine .inr ⟨hstatus, rfl, ⟨hvtype.trans htype, ?_, (fun hd => by cases hd), ?_, ?_⟩, ?_⟩
    · intro r hr
      obtain ⟨hfd, hreg, hrid, -⟩ := hreg r hr
      exact ⟨hfd, hreg, by omega⟩
    · exact fun _ r hr => (hreg r hr).2.2.2
    · rintro ⟨⟩
    · exact fun r hr => (hreg r hr).2.2.1
  · rw [if_pos hstatus] at hs
    cases hs
    exact .inl ⟨hstatus, rfl⟩

lemma TcpInv.openChildSock (h : s.TcpInv n) {fd : Nat} {pevt : Option Nat}
    (hid : ∀ id, pevt = some id → id = n) (hs : s.openChildSock fd pevt = some t) :
    t.mStatus = .SOCK_STATUS_CONNECTED ∧ t.TcpInv (n + 1) ∧
      ∀ r, t.mEvt = some r → s.mEvt = some r ∨ r.id = n := by
  unfold EdSocket.openChildSock at hs
  obtain ⟨htype, hstatus, hnew⟩ := registerEvent_new hs
  have hold : ∀ r, t.mEvt = some r → (s.mEvt = some r ∨ r.id = n) ∧
      t.mFd.isSome = true ∧ t.mIsReg = true ∧ r.id < n + 1 := by
    intro r hr
    rcases hnew r hr with ⟨hold, rfl⟩ | ⟨hfd, hreg, hpevt, -⟩
    · obtain ⟨-, hreg, hrid⟩ := h.evt r hold
      exact ⟨.inl hold, rfl, hreg, Nat.lt_succ_of_lt hrid⟩
    · have hrid := hid _ hpevt
      exact ⟨.inr hrid, hfd, hreg, by omega⟩
  have hconnected : t.mStatus = .SOCK_STATUS_CONNECTED := hstatus
  refine ⟨hconnected, ⟨htype, fun r hr => (hold r hr).2, ?_, ?_, ?_⟩, fun r hr => (hold r hr).1⟩
  · rw [hconnected]
    rintro ⟨⟩
  · rw [hconnected]
    rintro ⟨⟩
  · rw [hconnected]
    decide

/-- `changeEvent` of a registered socket, which leaves out `EVT_READ` while it connects. -/
lemma TcpInv.changeEvent (h : s.TcpInv n) {flags : Interest} {pevt : Option Nat}
    (hreg : s.mIsReg = true)
    (hflags : s.mStatus = .SOCK_STATUS_CONNECTING → flags.evtRead = false)
    (hs : s.changeEvent flags pevt = some t) :
    t.TcpInv n ∧ t.mStatus = s.mStatus ∧
      ∀ r, t.mEvt = some r → ∃ r', s.mEvt = some r' ∧ r'.id = r.id := by
  unfold EdSocket.changeEvent at hs
  split at hs
  · rename_i e he
    cases hs
    refine ⟨⟨h.type, ?_, fun hst => ?_, ?_, h.status⟩, rfl, ?_⟩
    · rintro _ ⟨⟩
      exact h.evt e he
    · have hnone := h.idle hst
      rw [he] at hnone
      cases hnone
    · rintro hst _ ⟨⟩
      exact hflags hst
    · rintro _ ⟨⟩
      exact ⟨e, he, rfl⟩
  · rw [EdSocket.registerEvent, if_pos hreg] at hs
    cases hs
    exact ⟨h, rfl, fun r hr => ⟨r, hr, rfl⟩⟩

lemma TcpInv.completeConnection (h : s.TcpInv n) {r : Registration} (hr : s.mEvt = some r)
    {pevt : Option Nat} (hs : s.completeConnection pevt = some t) :
    t.mStatus = .SOCK_STATUS_CONNECTED ∧ t.TcpInv n ∧ ∃ r', t.mEvt = some r' ∧ r'.id = r.id := by
  simp only [EdSocket.completeConnection, EdSocket.changeEvent, hr, Option.some.injEq] at hs
  subst hs
  refine ⟨rfl, ⟨h.type, ?_, ?_, ?_, ?_⟩, _, rfl, rfl⟩
  · rintro _ ⟨⟩
    exact h.evt r hr
  · rintro ⟨⟩
  · rintro ⟨⟩
  · rintro ⟨⟩

end EdSocket

end EdNio.Net
