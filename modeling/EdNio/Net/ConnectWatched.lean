import EdNio.Net.SocketSteps

/-!
# The outcome of a connect

`connect` counts on `registerEvent` to watch its descriptor for `EVT_WRITE`, which does nothing
if the socket is registered already.
-/

namespace EdNio.Net
open Transition

namespace EdSocket

/-- A TCP socket that connects is registered on its descriptor for `EVT_WRITE`. -/
def OutcomeWatched (s : EdSocket) : Prop :=
  s.mStatus = .SOCK_STATUS_CONNECTING → s.mType = .SOCK_TYPE_TCP → ∀ fd, s.mFd = some fd →
    ∃ r, s.mEvt = some r ∧ r.fd = fd ∧ r.interest.evtWrite = true

def watched (s : EdSocket) : Bool :=
  match s.mFd, s.mEvt with
  | some fd, some r => r.fd == fd && r.interest.evtWrite
  | _, _ => false

/-- `openSock` gives a connecting socket another descriptor. -/
def replaces (s : EdSocket) (type : SockType) (fd : Option Nat) : Bool :=
  s.mStatus == .SOCK_STATUS_CONNECTING && type == .SOCK_TYPE_TCP && fd.isSome

/-- A `connect` that waits for its outcome registers the socket, or finds it registered for
`EVT_WRITE`. -/
def registers (s : EdSocket) (fd : Option Nat) (added : Bool) : Bool :=
  let u := if s.mFd = none then s.openSock .SOCK_TYPE_TCP fd else s
  s.mStatus != .SOCK_STATUS_DISCONNECTED || u.mType != .SOCK_TYPE_TCP || u.mFd.isNone ||
    (!u.mIsReg && u.mEvt.isNone && added) || u.watched

variable {s t : EdSocket} {flags : Interest} {pevt fd : Option Nat}

lemma OutcomeWatched.of_status (h : s.mStatus ≠ .SOCK_STATUS_CONNECTING) : s.OutcomeWatched :=
  fun hst => absurd hst h

lemma OutcomeWatched.of_watched (h : s.watched = true) : s.OutcomeWatched := by
  intro _ _ fd hfd
  unfold watched at h
  rw [hfd] at h
  cases hr : s.mEvt with
  | none => simp [hr] at h
  | some r =>
    simp only [hr, Bool.and_eq_true, beq_iff_eq] at h
    exact ⟨r, rfl, h⟩

lemma registerEvent_of_mEvt {r : Registration} (hr : s.mEvt = some r)
    (hs : s.registerEvent flags pevt = some t) : t = s := by
  simp only [registerEvent, hr, reduceCtorEq, if_false, ite_self, Option.some.injEq] at hs
  exact hs.symm

/-- A registration of its own watches for `EVT_WRITE`. -/
lemma watched_of_registers {n : Nat} (hreg : s.mIsReg = false) (hevt : s.mEvt = none)
    (hwrite : flags.evtWrite = true) (hfd : s.mFd ≠ none)
    (hs : s.registerEvent flags (some n) = some t) : t.watched = true := by
  obtain ⟨fd, hfd⟩ := Option.ne_none_iff_exists'.mp hfd
  simp only [registerEvent, hreg, hevt, Bool.false_eq_true, if_false, if_true,
    Option.ite_none_right_eq_some, Option.some.injEq] at hs
  obtain ⟨-, rfl⟩ := hs
  simp [watched, hfd, hwrite]

lemma registerEvent_same (hs : s.registerEvent flags pevt = some t) :
    t.mStatus = s.mStatus ∧ t.mType = s.mType ∧ t.mFd = s.mFd := by
  rcases registerEvent_cases hs with rfl | rfl <;> exact ⟨rfl, rfl, rfl⟩

namespace OutcomeWatched

lemma close (s : EdSocket) : s.close.OutcomeWatched := by
  intro _ _ fd hfd
  rw [close_mFd] at hfd
  cases hfd

lemma registerEvent (h : s.OutcomeWatched) (hs : s.registerEvent flags pevt = some t) :
    t.OutcomeWatched := by
  obtain ⟨hst, htype, hfd⟩ := registerEvent_same hs
  intro hst' htype' f hf
  obtain ⟨r, hr, hrest⟩ := h (hst ▸ hst') (htype ▸ htype') f (hfd ▸ hf)
  rw [registerEvent_of_mEvt hr hs]
  exact ⟨r, hr, hrest⟩

lemma openSock {type : SockType} (hok : s.replaces type fd = false) :
    (s.openSock type fd).OutcomeWatched := by
  intro hst htype f hf
  have hst : s.mStatus = .SOCK_STATUS_CONNECTING := hst
  have htype : type = .SOCK_TYPE_TCP := htype
  have hf : fd = some f := hf
  simp [replaces, hst, htype, hf] at hok

lemma bindSock {bound : Bool} (h : s.OutcomeWatched)
    (hok : s.mFd = none → s.replaces .SOCK_TYPE_TCP fd = false)
    (hs : s.bindSock fd bound pevt = some t) : t.OutcomeWatched := by
  unfold EdSocket.bindSock at hs
  have hopen : (if s.mFd = none then s.openSock .SOCK_TYPE_TCP fd else s).OutcomeWatched := by
    split
    · rename_i hnone
      exact openSock (hok hnone)
    · exact h
  dsimp only at hs
  generalize (if s.mFd = none then s.openSock .SOCK_TYPE_TCP fd else s) = u at hopen hs
  split at hs
  · have hbinded : { u with mIsBinded := true }.OutcomeWatched := hopen
    exact hbinded.registerEvent hs
  · cases hs
    exact hopen

lemma listenSock {bound listened : Bool} (h : s.OutcomeWatched)
    (hok : s.mIsBinded = false → s.mFd = none → s.replaces .SOCK_TYPE_TCP fd = false)
    (hs : s.listenSock fd bound listened pevt = some t) : t.OutcomeWatched := by
  unfold EdSocket.listenSock at hs
  dsimp only at hs
  obtain ⟨u, hu, hs⟩ := Option.bind_eq_some_iff.mp hs
  have hlisten : { s with mIsListen := true }.OutcomeWatched := h
  have hbind : u.OutcomeWatched := by
    split at hu
    · rename_i hbinded
      exact hlisten.bindSock (hok hbinded) hu
    · cases hu
      exact hlisten
  split at hs
  · cases hs
    exact hbind
  split at hs
  · exact hbind.registerEvent hs
  · cases hs
    exact hbind

lemma connectIp {n : Nat} {added : Bool} (h : s.OutcomeWatched)
    (hok : s.registers fd added = true)
    (hs : s.connectIp fd (if added then some n else none) = some t) : t.OutcomeWatched := by
  unfold EdSocket.connectIp at hs
  split at hs
  · cases hs
    exact h
  rename_i hst
  simp only [registers, bne_iff_ne, Bool.or_eq_true, hst, false_or] at hok
  have hust : (if s.mFd = none then s.openSock .SOCK_TYPE_TCP fd else s).mStatus = s.mStatus := by
    split <;> rfl
  dsimp only at hs
  generalize (if s.mFd = none then s.openSock .SOCK_TYPE_TCP fd else s) = u at hs hok hust
  split at hs
  · rename_i htype
    obtain ⟨v, hv, rfl⟩ := Option.map_eq_some_iff.mp hs
    obtain ⟨-, -, hfd⟩ := registerEvent_same hv
    simp only [htype, ne_eq, not_true_eq_false, false_or, Option.isNone_iff_eq_none,
      Bool.and_eq_true, Bool.not_eq_true'] at hok
    by_cases hnone : u.mFd = none
    · intro _ _ f hf
      have hf : v.mFd = some f := hf
      rw [hfd, hnone] at hf
      cases hf
    have hwatched : v.watched = true := by
      rcases hok with (hnone' | ⟨⟨hreg, hevt⟩, hadded⟩) | hwatched
      · exact absurd hnone' hnone
      · rw [hadded, if_pos rfl] at hv
        exact watched_of_registers hreg hevt rfl hnone hv
      · cases hr : u.mEvt with
        | none => simp [watched, hr] at hwatched
        | some r => exact registerEvent_of_mEvt hr hv ▸ hwatched
    exact of_watched hwatched
  · cases hs
    refine of_status ?_
    rw [hust, not_not.mp hst]
    decide

lemma connectAddr {n : Nat} {added : Bool} {cnn : CnnResult} (h : s.OutcomeWatched)
    (hok : s.mType = .SOCK_TYPE_TCP ∨ s.mType = .SOCK_TYPE_UDP → s.registers fd added = true)
    (hs : s.connectAddr fd cnn (if added then some n else none) = some t) : t.OutcomeWatched := by
  unfold EdSocket.connectAddr at hs
  split at hs
  · rename_i htype
    exact h.connectIp (hok htype) hs
  rename_i htype
  split at hs
  · cases hs
    exact h
  cases cnn with
  | connected | inProgress =>
    intro _ htcp
    have hsame := (registerEvent_same hs).2.1
    exact absurd (.inl (hsame.symm.trans htcp)) htype
  | failed =>
    cases hs
    exact of_status (by simp)

lemma openChildSock {fd : Nat} (hs : s.openChildSock fd pevt = some t) : t.OutcomeWatched := by
  unfold EdSocket.openChildSock at hs
  refine of_status ?_
  rw [(registerEvent_same hs).1]
  rintro ⟨⟩

lemma changeEvent (h : s.OutcomeWatched)
    (hok : s.mStatus = .SOCK_STATUS_CONNECTING → s.mType = .SOCK_TYPE_TCP →
      flags.evtWrite = true)
    (hs : s.changeEvent flags pevt = some t) : t.OutcomeWatched := by
  unfold EdSocket.changeEvent at hs
  cases hr : s.mEvt with
  | none =>
    rw [hr] at hs
    exact h.registerEvent hs
  | some e =>
    rw [hr] at hs
    cases hs
    intro hst htype fd hfd
    obtain ⟨r, hr', hrfd, -⟩ := h hst htype fd hfd
    rw [hr] at hr'
    cases hr'
    exact ⟨_, rfl, hrfd, hok hst htype⟩

lemma completeConnection (hs : s.completeConnection pevt = some t) : t.OutcomeWatched := by
  refine of_status ?_
  rw [changeEvent_mStatus hs]
  rintro ⟨⟩

end OutcomeWatched

end EdSocket

/-- No connecting socket is given another descriptor or taken off `EVT_WRITE`, and a `connect`
that waits for its outcome registers its socket. -/
def keepsOutcome (s : TaskSockets) : SockAction → Bool
  | .openSock i type fd => !(s.socks i).replaces type fd
  | .bindSock i fd _ _ => (s.socks i).mFd.isSome || !(s.socks i).replaces .SOCK_TYPE_TCP fd
  | .listenSock i fd _ _ _ =>
    (s.socks i).mIsBinded || (s.socks i).mFd.isSome || !(s.socks i).replaces .SOCK_TYPE_TCP fd
  | .connectIp i fd added => (s.socks i).registers fd added
  | .connectAddr i fd _ added =>
    ((s.socks i).mType != .SOCK_TYPE_TCP && (s.socks i).mType != .SOCK_TYPE_UDP) ||
      (s.socks i).registers fd added
  | .changeEvent i flags _ =>
    (s.socks i).mStatus != .SOCK_STATUS_CONNECTING || (s.socks i).mType != .SOCK_TYPE_TCP ||
      flags.evtWrite
  | _ => true

/-- A call that meets the condition leaves its socket with its outcome watched. -/
lemma SockAction.call_watched {s : TaskSockets} {a : SockAction} {i : Nat} {k : EdSocket}
    (h : ∀ i, (s.socks i).OutcomeWatched) (hok : keepsOutcome s a = true)
    (hk : a.call s = some (i, k)) : k.OutcomeWatched := by
  cases SockAction.call_cases hk with
  | openSock => exact .openSock (by simpa [keepsOutcome] using hok)
  | openChildSock hk => exact .openChildSock hk
  | bindSock hk =>
    refine (h i).bindSock (fun hnone => ?_) hk
    simpa [keepsOutcome, hnone] using hok
  | listenSock hk =>
    refine (h i).listenSock (fun hbinded hnone => ?_) hk
    simpa [keepsOutcome, hbinded, hnone] using hok
  | connectIp hk => exact (h i).connectIp hok hk
  | connectAddr hk =>
    refine (h i).connectAddr (fun htype => ?_) hk
    simp only [keepsOutcome, Bool.or_eq_true, Bool.and_eq_true, bne_iff_ne] at hok
    rcases hok with ⟨htcp, hudp⟩ | hok
    · exact absurd htype (not_or.mpr ⟨htcp, hudp⟩)
    · exact hok
  | changeEvent hk =>
    refine (h i).changeEvent (fun hst htype => ?_) hk
    simpa [keepsOutcome, hst, htype] using hok

/-- A TCP socket that connects learns its outcome, in every run in which `connect` finds its
socket without a registration for other events. -/
theorem connecting_watched {s : TaskSockets}
    (hr : taskSockets.Reaches (fun s a => keepsOutcome s a = true) s) (i : Nat) :
    (s.socks i).OutcomeWatched := by
  have hall : ∀ i, (s.socks i).OutcomeWatched := by
    refine hr.invariant (I := fun s => ∀ i, (s.socks i).OutcomeWatched) ?_
      (fun s a t _ hI hok hs => ?_)
    · rintro _ rfl j
      exact .of_status (by simp [TaskSockets.new, EdSocket.new])
    · obtain ⟨ev, hrun⟩ := TaskSockets.step_run hs
      exact TaskSockets.socks_keep hI hrun (fun k _ => .close k) (fun _ _ _ hk =>
        .completeConnection hk) (fun _ _ hk => SockAction.call_watched hI hok hk)
  exact hall i

theorem connecting_watched_client :
    ∃ s, taskSockets.Reaches (fun s a => keepsOutcome s a = true) s ∧
      (s.socks 0).mStatus = .SOCK_STATUS_CONNECTING ∧ (s.socks 0).OutcomeWatched := by
  obtain ⟨s, hr, hs⟩ := System.exists_of_exec_restrict (M := taskSockets) (T := keepsOutcome)
    (f := fun s => (s.socks 0).mStatus) (s := .new) rfl (b := .SOCK_STATUS_CONNECTING)
    (l := userRun [.openSock 0 .SOCK_TYPE_TCP (some 5), .connectIp 0 none true])
    (by decide +kernel)
  exact ⟨s, hr, hs, connecting_watched hr 0⟩

/-- A socket bound before it connects is registered for `EVT_READ` only. -/
theorem not_connecting_watched :
    ¬ ∀ s, taskSockets.Reachable s → ∀ i, (s.socks i).OutcomeWatched := by
  intro h
  obtain ⟨s, hr, hs⟩ := System.exists_of_exec (M := taskSockets) (f := fun s => s.socks 0)
    (s := .new) rfl
    (b := ⟨some 5, some ⟨0, 5, ⟨true, false, false⟩⟩, true, true, .SOCK_STATUS_CONNECTING,
      .SOCK_TYPE_TCP, false, true⟩)
    (l := userRun [.openSock 0 .SOCK_TYPE_TCP (some 5), .bindSock 0 none true true,
      .connectIp 0 none true]) (by decide +kernel)
  have hwatched := h s hr 0
  rw [hs] at hwatched
  obtain ⟨r, hr, -, hwrite⟩ := hwatched rfl rfl 5 rfl
  cases hr
  cases hwrite

end EdNio.Net
