import EdNio.Timer.TimerPool

/-!
# When the timer pool stalls

The main timer must be armed whenever a timer is set and the task is outside the pool.
-/

namespace EdNio.Timer
open MachineInt Transition

/-- Outside the pool, the main timer is armed if there is a timer. -/
def NoStall (s : EdTimerPool) : Prop :=
  s.pc = .idle → s.timerMap ≠ [] → s.mainTimer.armed = true

/-- The first delay in microseconds, after the conversions of `setTimerUs`. -/
def firstDelay (firstus : UInt64) : Int :=
  (toI64 (toI64 firstus.toNat * 1000)).tdiv 1000

/-- Outside a pass, a timer earlier than `_nearTp` is set with a first delay that is not 0,
and the first timer on an empty map, if it is later, is set while the main timer is armed. At
the end of a pass the earliest deadline is at least 1 µs ahead, if a timer is left. -/
def rearms (s : EdTimerPool) : Action → Bool
  | .setTimerUs _ firstus _ _ =>
    match s.pc with
    | .idle =>
      if plusUs s.now firstus < s.nearTp then firstDelay firstus ≠ 0
      else !s.timerMap.isEmpty || s.mainTimer.armed
    | _ => true
  | .rearm => s.timerMap.isEmpty || decide (1 ≤ usBetween s.nearTp s.now)
  | _ => true

lemma usBetween_plusUs (now : Int) (firstus : UInt64) :
    usBetween (plusUs now firstus) now = firstDelay firstus := by
  rw [usBetween, plusUs, toI64_sub_left, Int.add_comm, Int.add_sub_cancel, toI64_toI64]
  rfl

/-- A delay that is not 0 and does not overflow is kept. -/
lemma firstDelay_eq {firstus : UInt64} (h : firstus.toNat * 1000 < 2 ^ 63) :
    firstDelay firstus = firstus.toNat := by
  have hus : toI64 firstus.toNat = firstus.toNat := toI64_eq (by omega) (by omega)
  have hns : toI64 ((firstus.toNat : Int) * 1000) = (firstus.toNat : Int) * 1000 :=
    toI64_eq (by omega) (by omega)
  rw [firstDelay, hus, hns]
  exact Int.mul_tdiv_cancel _ (by decide)

lemma toU64_usBetween (a b : Int) : toU64 (usBetween a b) = 0 ↔ usBetween a b = 0 := by
  obtain ⟨hlo, hhi⟩ := toI64_range (a - b)
  have hle : (usBetween a b).natAbs ≤ (toI64 (a - b)).natAbs := Int.natAbs_tdiv_le_natAbs _ _
  exact toU64_eq_zero (by omega) (by omega)

namespace EdTimerPool

variable {s t : EdTimerPool}

lemma put_timerMap_ne_nil (info : TimerInfo) : (s.put info).timerMap ≠ [] := by
  unfold put
  split
  · rename_i h
    intro hnil
    simp only [List.map_eq_nil_iff] at hnil
    simp [hnil] at h
  · simp

lemma setTimerUs_spec (handle : UInt32) (firstus periodus : UInt64) (lis : Nat)
    (ht : t = (s.setTimerUs handle firstus periodus lis).2) :
    t.pc = s.pc ∧ t.timerMap ≠ [] ∧
      (t.mainTimer.armed =
        if plusUs s.now firstus < s.nearTp then decide (firstDelay firstus ≠ 0)
        else s.mainTimer.armed) ∧
      (s.mainTimer.Periodic → t.mainTimer.Periodic) := by
  subst ht
  unfold setTimerUs
  simp only [(put_frame _).2.1, (put_frame _).2.2.1, (put_frame _).2.2.2]
  split
  · refine ⟨(put_frame _).1, put_timerMap_ne_nil _, ?_, fun _ => EdTimer.periodic_setUsec _ _⟩
    rw [EdTimer.armed_setUsec, decide_eq_decide, ne_eq, toU64_usBetween, usBetween_plusUs]
  · refine ⟨(put_frame _).1, put_timerMap_ne_nil _, ?_, fun h => ?_⟩
    · rw [(put_frame _).2.1]
    · rw [(put_frame _).2.1]
      exact h

lemma armed_rearm : s.rearm.mainTimer.armed = decide (1 ≤ usBetween s.nearTp s.now) := by
  unfold rearm
  simp only
  rw [EdTimer.armed_setUsec, decide_eq_decide]
  split
  · have hzero : toU64 0 = 0 := rfl
    simp only [hzero, ne_eq, not_true_eq_false, false_iff]
    omega
  · rw [ne_eq, toU64_usBetween]
    omega

lemma scheduleTimer_spec {order : List Node} (h : s.scheduleTimer order = some t) :
    t.mainTimer = s.mainTimer.readHitCount ∧
      (t.pc = s.pc ∧ t.timerMap = [] ∨ ∃ rest, t.pc = .looping rest) := by
  unfold scheduleTimer at h
  simp only at h
  split at h
  · rename_i hlen
    cases h
    exact ⟨rfl, .inl ⟨rfl, List.length_eq_zero_iff.mp hlen⟩⟩
  · obtain ⟨p, -, rfl⟩ := Option.map_eq_some_iff.mp h
    exact ⟨rfl, .inr ⟨_, rfl⟩⟩

end EdTimerPool

variable {s t : EdTimerPool} {a : Action}

lemma step_periodic (h : s.mainTimer.Periodic) (hs : step s a = some t) :
    t.mainTimer.Periodic := by
  cases a with
  | tick ns =>
    simp only [step, Option.ite_none_right_eq_some, Option.some.injEq] at hs
    obtain ⟨-, rfl⟩ := hs
    exact h.advance _
  | setTimerUs handle firstus periodus lis =>
    simp only [step, Option.ite_none_right_eq_some, Option.some.injEq] at hs
    exact (EdTimerPool.setTimerUs_spec handle firstus periodus lis hs.2.symm).2.2.2 h
  | killTimer id =>
    simp only [step, Option.ite_none_right_eq_some, Option.some.injEq] at hs
    obtain ⟨-, rfl⟩ := hs
    exact h
  | epoll_wait =>
    simp only [step, Option.ite_none_right_eq_some, Option.some.injEq] at hs
    obtain ⟨-, rfl⟩ := hs
    exact h
  | scheduleTimer order =>
    simp only [step, Option.ite_none_right_eq_some] at hs
    rw [(EdTimerPool.scheduleTimer_spec hs.2).1]
    exact h.readHitCount
  | callListener =>
    simp only [step] at hs
    split at hs
    · cases hs
      exact h
    · simp at hs
  | listenerReturn =>
    simp only [step] at hs
    split at hs
    · cases hs
      exact h
    · simp at hs
  | rearm =>
    simp only [step, Option.ite_none_right_eq_some, Option.some.injEq] at hs
    obtain ⟨-, rfl⟩ := hs
    exact EdTimer.periodic_setUsec _ _

/-- Exactly the steps that do not meet the condition stall the pool. -/
lemma step_noStall (hp : s.mainTimer.Periodic) (h : NoStall s) (hs : step s a = some t) :
    NoStall t ↔ rearms s a = true := by
  cases a with
  | tick ns =>
    simp only [step, Option.ite_none_right_eq_some, Option.some.injEq] at hs
    obtain ⟨-, rfl⟩ := hs
    simpa [NoStall, rearms, EdTimer.armed_advance hp] using h
  | setTimerUs handle firstus periodus lis =>
    simp only [step, Option.ite_none_right_eq_some, Option.some.injEq] at hs
    obtain ⟨hpc, hmap, harmed, -⟩ :=
      EdTimerPool.setTimerUs_spec handle firstus periodus lis hs.2.symm
    simp only [NoStall, hpc, hmap, harmed, rearms, ne_eq, not_false_eq_true, forall_const]
    cases he : s.pc with
    | idle =>
      by_cases hlt : plusUs s.now firstus < s.nearTp
      · simp [hlt]
      · simp only [forall_const, hlt, if_false, Bool.or_eq_true, Bool.not_eq_true',
          List.isEmpty_eq_false_iff]
        exact ⟨.inr, fun hor => hor.elim (h he) id⟩
    | looping rest => simp
    | listening rest => simp
  | killTimer id =>
    simp only [step, Option.ite_none_right_eq_some, Option.some.injEq] at hs
    obtain ⟨-, rfl⟩ := hs
    simp only [rearms, iff_true]
    intro hpc hmap
    apply h hpc
    rintro hnil
    simp [EdTimerPool.killTimer, hnil] at hmap
  | epoll_wait =>
    simp only [step, Option.ite_none_right_eq_some, Option.some.injEq] at hs
    obtain ⟨-, rfl⟩ := hs
    simp only [rearms, iff_true]
    exact h
  | scheduleTimer order =>
    simp only [step, Option.ite_none_right_eq_some] at hs
    simp only [rearms, iff_true]
    rcases (EdTimerPool.scheduleTimer_spec hs.2).2 with ⟨-, hmap⟩ | ⟨rest, hpc⟩
    · exact fun _ hne => absurd hmap hne
    · intro hidle
      simp [hpc] at hidle
  | callListener =>
    simp only [step] at hs
    split at hs
    · cases hs
      simp [NoStall, rearms]
    · simp at hs
  | listenerReturn =>
    simp only [step] at hs
    split at hs
    · cases hs
      simp [NoStall, rearms]
    · simp at hs
  | rearm =>
    simp only [step, Option.ite_none_right_eq_some, Option.some.injEq] at hs
    obtain ⟨-, rfl⟩ := hs
    have hpc : s.rearm.pc = .idle := rfl
    have hmap : s.rearm.timerMap = s.timerMap := rfl
    rw [NoStall, EdTimerPool.armed_rearm, hpc, hmap]
    by_cases hnil : s.timerMap = [] <;> simp [rearms, hnil]

/-- A run whose steps all meet the condition never stalls, and the first step that does not
meet it does. -/
theorem pool_noStall {s : EdTimerPool}
    (h : timerPool.Reaches (fun s a => rearms s a = true) s) :
    NoStall s ∧ ∀ a t, step s a = some t → (NoStall t ↔ rearms s a = true) := by
  apply h.exact (I := fun s => s.mainTimer.Periodic ∧ NoStall s) (P := NoStall)
  · rintro s ⟨h0, -⟩
    rw [h0]
    constructor
    · intro f hf
      simp [EdTimerPool.opened, EdTimer.new] at hf
    · intro _ hmap
      simp [EdTimerPool.opened] at hmap
  · intro s a t hI hok hs
    exact ⟨step_periodic hI.1 hs, (step_noStall hI.1 hI.2 hs).mpr hok⟩
  · intro s hI
    exact hI.2
  · intro s a t hI hok hs hstall
    exact hok ((step_noStall hI.1 hI.2 hs).mp hstall)

/-- One timer fires, and its listener sets another. -/
def twoTimersRun : List Action :=
  [.setTimerUs 1 10 100 7, .tick 20000, .epoll_wait,
    .scheduleTimer [⟨0, ⟨1, 10000, 100, 7⟩⟩], .callListener, .setTimerUs 2 50 50 8, .tick 5000,
    .listenerReturn, .rearm]

theorem pool_noStall_twoTimersRun : ∃ s, timerPool.Reaches (fun s a => rearms s a = true) s ∧
    s.timerMap.length = 2 ∧ s.mainTimer.armed = true := by
  obtain ⟨s, hr, hs⟩ := System.exists_of_exec_restrict (M := timerPool) (T := rearms)
    (s := .opened 0) ⟨rfl, by decide, by decide⟩
    (show ((timerPool.restrict rearms).exec (.opened 0) twoTimersRun).map
      (fun s => (s.pc, s.timerMap.length)) = some (.idle, 2) by decide)
  simp only [Prod.mk.injEq] at hs
  exact ⟨s, hr, hs.2, (pool_noStall hr).1 hs.1 (fun hnil => by simp [hnil] at hs)⟩

/-- A timer with a first delay of 0. -/
theorem not_pool_noStall : ¬ ∀ s, timerPool.Reachable s → NoStall s := by
  intro h
  obtain ⟨s, hr, hs⟩ := System.exists_of_exec (M := timerPool) (s := .opened 0)
    ⟨rfl, by decide, by decide⟩
    (show (timerPool.exec (.opened 0) [.setTimerUs 1 0 1000 7]).map
      (fun s => (s.pc, s.timerMap.length, s.mainTimer.armed)) = some (.idle, 1, false) by decide)
  simp only [Prod.mk.injEq] at hs
  have harmed := h s hr hs.1 (fun hnil => by simp [hnil] at hs)
  rw [hs.2.2] at harmed
  exact absurd harmed (by decide)

end EdNio.Timer
