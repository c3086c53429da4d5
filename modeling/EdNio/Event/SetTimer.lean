import EdNio.Event.BatchSafety
import EdNio.Event.TimerTask

/-!
# The times of `EdTimer::set`

Milliseconds become microseconds in 32 bits before they become seconds and nanoseconds.
-/

namespace EdNio.Event

/-- The timer is set to exactly these milliseconds. -/
structure ExactMs (spec : Timer.Itimerspec) (msec first_msec : UInt32) : Prop where
  interval_nsec : 0 ≤ spec.it_interval.tv_nsec ∧ spec.it_interval.tv_nsec < 1000000000
  value_nsec : 0 ≤ spec.it_value.tv_nsec ∧ spec.it_value.tv_nsec < 1000000000
  interval : spec.it_interval.ns = msec.toNat * 1000000
  value : spec.it_value.ns = (if first_msec = 0 then msec else first_msec).toNat * 1000000
  armed : msec ≠ 0 ∨ first_msec ≠ 0 → spec.it_value.ns ≠ 0

lemma ofUsec_nsec (usec : Int) : 0 ≤ (Timer.Timespec.ofUsec usec).tv_nsec ∧
    (Timer.Timespec.ofUsec usec).tv_nsec < 1000000000 := by
  unfold Timer.Timespec.ofUsec
  dsimp only
  omega

/-- The product in 32 bits is exact for what is below 2 ^ 32 / 1000. -/
lemma toNat_mul_1000 (msec : UInt32) :
    (msec * 1000).toNat = msec.toNat * 1000 ↔ msec.toNat ≤ 4294967 := by
  rw [UInt32.toNat_mul]
  have h := msec.toNat_lt
  simp only [UInt32.reduceToNat]
  omega

lemma set_mTimerSpec (t : Timer.EdTimer) (msec first_msec : UInt32) (now : Int) :
    (t.set msec first_msec now).mTimerSpec = ⟨.ofUsec (msec * 1000).toNat, .ofUsec
      (if (first_msec * 1000).toNat = 0 then (msec * 1000).toNat
        else (first_msec * 1000).toNat)⟩ := by
  simp only [Timer.EdTimer.set, Timer.EdTimer.setUsec, Int.natCast_eq_zero]

lemma exactMs_iff (t : Timer.EdTimer) (msec first_msec : UInt32) (now : Int) :
    ExactMs (t.set msec first_msec now).mTimerSpec msec first_msec ↔
      msec.toNat ≤ 4294967 ∧ first_msec.toNat ≤ 4294967 := by
  have hfirst : first_msec = 0 ↔ first_msec.toNat = 0 := by
    rw [← UInt32.toNat_inj, UInt32.toNat_zero]
  have hmsec : msec = 0 ↔ msec.toNat = 0 := by
    rw [← UInt32.toNat_inj, UInt32.toNat_zero]
  have hm := toNat_mul_1000 msec
  have hf := toNat_mul_1000 first_msec
  rw [set_mTimerSpec]
  constructor
  · rintro ⟨-, -, hinterval, hvalue, -⟩
    simp only [Timer.Timespec.ofUsec_ns] at hinterval hvalue
    have hmsec : msec.toNat ≤ 4294967 := by
      apply hm.mp
      omega
    refine ⟨hmsec, ?_⟩
    by_cases h0 : first_msec = 0
    · rw [hfirst.mp h0]
      exact Nat.zero_le _
    rw [if_neg h0] at hvalue
    split at hvalue
    · have heq : first_msec.toNat = msec.toNat := by omega
      rw [heq]
      exact hmsec
    · apply hf.mp
      omega
  · rintro ⟨hle, hle'⟩
    have hmsec' := hm.mpr hle
    have hfirst' := hf.mpr hle'
    refine ⟨ofUsec_nsec _, ofUsec_nsec _, ?_, ?_, ?_⟩
    · rw [Timer.Timespec.ofUsec_ns, hmsec']
      omega
    · rw [Timer.Timespec.ofUsec_ns, hmsec', hfirst']
      by_cases h0 : first_msec = 0
      · have hzero := hfirst.mp h0
        rw [if_pos h0, if_pos (by omega)]
        omega
      · have hne := mt hfirst.mpr h0
        rw [if_neg h0, if_neg (by omega)]
        omega
    · rw [Timer.Timespec.ofUsec_ns, hmsec', hfirst', ne_eq, ne_eq, hmsec, hfirst]
      split <;> omega

/-- `EdTimer::set` and `EdTask::setTimer`, which delegates to it. -/
theorem set_exact_iff (msec first_msec : UInt32) :
    (∀ (t : Timer.EdTimer) (now : Int),
      ExactMs (t.set msec first_msec now).mTimerSpec msec first_msec ↔
        msec.toNat ≤ 4294967 ∧ first_msec.toNat ≤ 4294967) ∧
    ∀ (L : Layout) (x y : TimerTask) (id : UInt32) (t : ObjId) (fd : Int) (a : Addr)
      (added : Bool), x.setTimer L id t msec first_msec fd a added = some y →
        (ExactMs (y.timers (x.taskTimer id t).1).mTimerSpec msec first_msec ↔
          msec.toNat ≤ 4294967 ∧ first_msec.toNat ≤ 4294967) := by
  refine ⟨fun t now => exactMs_iff t msec first_msec now, ?_⟩
  intro L x y id t fd a added hs
  obtain ⟨p, -, rfl⟩ := Option.map_eq_some_iff.mp hs
  simp only [TimerTask.write, Function.update_self]
  exact exactMs_iff _ msec first_msec x.now

/-- The longest time in range, about 71 minutes. -/
theorem set_exact_iff_longest :
    ∃ y, (TimerTask.init 0).setTimer sampleLayout 1 7 4294967 0 5 20 true = some y ∧
      ExactMs (y.timers 7).mTimerSpec 4294967 0 :=
  ⟨_, rfl, ((set_exact_iff 4294967 0).2 sampleLayout (.init 0) _ 1 7 5 20 true rfl).mpr
    (by decide)⟩

/-- A little more than six days become 0, which disarms the timer. -/
theorem not_set_exact :
    ¬ ∀ (t : Timer.EdTimer) (msec first_msec : UInt32) (now : Int),
      ExactMs (t.set msec first_msec now).mTimerSpec msec first_msec := by
  intro h
  have harmed := (h .new 536870912 0 0).armed (.inl (by decide))
  exact harmed (by decide)

end EdNio.Event
