import Mathlib.Tactic.Lemma

/-!
# EdTimer and its timerfd

The kernel's side of a timerfd, and `EdTimer` on it. Times are in nanoseconds of the
monotonic clock.
-/

namespace EdNio.Timer

structure Timespec where
  tv_sec : Int
  tv_nsec : Int
deriving DecidableEq, Repr

structure Itimerspec where
  it_interval : Timespec
  it_value : Timespec
deriving DecidableEq, Repr

def Timespec.ns (t : Timespec) : Int :=
  t.tv_sec * 1000000000 + t.tv_nsec

def Timespec.ofUsec (usec : Int) : Timespec where
  tv_sec := usec / 1000000
  tv_nsec := usec % 1000000 * 1000

lemma Timespec.ofUsec_ns (usec : Int) : (ofUsec usec).ns = usec * 1000 := by
  simp only [ofUsec, ns]
  omega

/-- The time of the next expiration, if the timer is armed, and the expirations that have
not been read. -/
structure Timerfd where
  expires : Option Int
  interval : Int
  ticks : Nat
deriving DecidableEq, Repr

/-- An `it_value` of 0 disarms the timer. -/
def timerfd_settime (spec : Itimerspec) (now : Int) : Timerfd where
  expires := if spec.it_value.ns = 0 then none else some (now + spec.it_value.ns)
  interval := spec.it_interval.ns
  ticks := 0

/-- The timer when the clock has come to `now`. -/
def Timerfd.advance (t : Timerfd) (now : Int) : Timerfd :=
  match t.expires with
  | none => t
  | some e =>
    if now < e then t
    else if t.interval = 0 then { t with expires := none, ticks := t.ticks + 1 }
    else
      let n := ((now - e) / t.interval).toNat + 1
      { t with expires := some (e + n * t.interval), ticks := t.ticks + n }

lemma Timerfd.ticks_advance (t : Timerfd) (now : Int) : t.ticks ≤ (t.advance now).ticks := by
  unfold advance
  split
  · exact Nat.le_refl _
  split
  · exact Nat.le_refl _
  split
  · exact Nat.le_succ _
  · exact Nat.le_add_right _ _

/-- `timerfd` is none while the object has no descriptor. -/
structure EdTimer where
  timerfd : Option Timerfd
  mTimerSpec : Itimerspec
  mHitCount : Nat
deriving DecidableEq, Repr

namespace EdTimer

variable (t : EdTimer)

def new : EdTimer where
  timerfd := none
  mTimerSpec := ⟨⟨0, 0⟩, ⟨0, 0⟩⟩
  mHitCount := 0

/-- Opens a timerfd when there is none; both times are unsigned 64-bit values. -/
def setUsec (usec first_usec now : Int) : EdTimer :=
  let iusec := if first_usec = 0 then usec else first_usec
  let spec := ⟨.ofUsec usec, .ofUsec iusec⟩
  { t with mTimerSpec := spec, timerfd := some (timerfd_settime spec now) }

/-- The product by 1000 is one of 32-bit values. -/
def set (msec first_msec : UInt32) (now : Int) : EdTimer :=
  t.setUsec (msec * 1000).toNat (first_msec * 1000).toNat now

/-- `timerfd_settime` on `mFd`, which fails without a descriptor. -/
def settime (spec : Itimerspec) (now : Int) : EdTimer :=
  { t with timerfd := t.timerfd.map (fun _ => timerfd_settime spec now) }

def pause (now : Int) : EdTimer := t.settime ⟨⟨0, 0⟩, ⟨0, 0⟩⟩ now

def resume (now : Int) : EdTimer := t.settime t.mTimerSpec now

def reset (now : Int) : EdTimer := (t.pause now).resume now

def kill : EdTimer := { t with timerfd := none }

/-- The `read` of `OnEventRead`; it fails when there is no expiration to read. -/
def readHitCount : EdTimer :=
  match t.timerfd with
  | some f =>
    if f.ticks = 0 then t
    else { t with mHitCount := f.ticks, timerfd := some { f with ticks := 0 } }
  | none => t

def advance (now : Int) : EdTimer :=
  { t with timerfd := t.timerfd.map (fun f => f.advance now) }

/-- epoll reports the timer as readable. -/
def readable : Bool :=
  t.timerfd.any (fun f => f.ticks ≠ 0)

def armed : Bool :=
  t.timerfd.any (fun f => f.expires.isSome)

/-- An armed timer has an interval, so an expiration leaves it armed. -/
def Periodic : Prop :=
  ∀ f, t.timerfd = some f → f.expires.isSome = true → f.interval ≠ 0

variable {t : EdTimer}

lemma armed_setUsec (usec now : Int) : (t.setUsec usec 0 now).armed = decide (usec ≠ 0) := by
  simp only [armed, setUsec, timerfd_settime, if_true, Timespec.ofUsec_ns, Option.any_some]
  by_cases h : usec = 0
  · simp [h]
  · have hns : usec * 1000 ≠ 0 := by omega
    simp [h, hns]

lemma periodic_setUsec (usec now : Int) : (t.setUsec usec 0 now).Periodic := by
  intro f hf
  simp only [setUsec, timerfd_settime, if_true, Option.some.injEq] at hf
  subst hf
  simp only [Timespec.ofUsec_ns]
  split
  · simp
  · intro _
    assumption

lemma armed_advance (h : t.Periodic) (now : Int) : (t.advance now).armed = t.armed := by
  simp only [armed, advance, Option.any_map]
  cases hf : t.timerfd with
  | none => rfl
  | some f =>
    simp only [Option.any_some, Timerfd.advance]
    cases he : f.expires with
    | none => simp [he]
    | some e =>
      have hi : f.interval ≠ 0 := h f hf (by simp [he])
      simp only [hi, if_false]
      split <;> simp [he]

lemma Periodic.advance (h : t.Periodic) (now : Int) : (t.advance now).Periodic := by
  intro g hg hs
  simp only [EdTimer.advance, Option.map_eq_some_iff] at hg
  obtain ⟨f, hf, rfl⟩ := hg
  cases he : f.expires with
  | none => simp [Timerfd.advance, he] at hs
  | some e =>
    have hi : f.interval ≠ 0 := h f hf (by simp [he])
    simp only [Timerfd.advance, he, hi, if_false]
    split <;> exact hi

@[simp] lemma armed_readHitCount : t.readHitCount.armed = t.armed := by
  unfold readHitCount
  split
  · rename_i f hf
    split
    · rfl
    · simp [armed, hf]
  · rfl

lemma Periodic.readHitCount (h : t.Periodic) : t.readHitCount.Periodic := by
  unfold EdTimer.readHitCount
  split
  · rename_i f hf
    split
    · exact h
    · intro g hg hs
      simp only [Option.some.injEq] at hg
      subst hg
      exact h f hf hs
  · exact h

end EdTimer

namespace Itimerspec

variable (spec : Itimerspec) (d : Int)

/-- The expirations of a timer within the time `d` after it was set. -/
def expirations : Nat :=
  if spec.it_value.ns = 0 ∨ d < spec.it_value.ns then 0
  else if spec.it_interval.ns = 0 then 1
  else ((d - spec.it_value.ns) / spec.it_interval.ns).toNat + 1

/-- The first expiration later than that. -/
def next : Option Int :=
  if spec.it_value.ns = 0 then none
  else if d < spec.it_value.ns then some spec.it_value.ns
  else if spec.it_interval.ns = 0 then none
  else some (spec.it_value.ns + spec.expirations d * spec.it_interval.ns)

/-- Both times are not negative. -/
structure Valid : Prop where
  interval : 0 ≤ spec.it_interval.ns
  value : 0 ≤ spec.it_value.ns

variable {spec : Itimerspec} {d d' : Int}

lemma expirations_pos : 0 < spec.expirations d ↔ spec.it_value.ns ≠ 0 ∧ spec.it_value.ns ≤ d := by
  unfold expirations
  split
  · simp only [Nat.lt_irrefl, false_iff]
    omega
  · rename_i h
    rw [not_or, Int.not_lt] at h
    simp only [h, ne_eq, not_false_eq_true, and_self, iff_true]
    split <;> omega

/-- From the first expiration on. -/
lemma expirations_eq (hv : spec.it_value.ns ≠ 0) (hi : spec.it_interval.ns ≠ 0)
    (hd : spec.it_value.ns ≤ d) :
    spec.expirations d = ((d - spec.it_value.ns) / spec.it_interval.ns).toNat + 1 := by
  unfold expirations
  rw [if_neg (by omega), if_neg hi]

/-- Later, but before the next expiration. -/
lemma expirations_before (hi : 0 < spec.it_interval.ns) (hv : spec.it_value.ns ≠ 0)
    (hd : spec.it_value.ns ≤ d) (hle : d ≤ d')
    (hlt : d' < spec.it_value.ns + spec.expirations d * spec.it_interval.ns) :
    spec.expirations d' = spec.expirations d := by
  have hi' := Int.ne_of_gt hi
  rw [expirations_eq hv hi' hd] at hlt ⊢
  rw [expirations_eq hv hi' (by omega)]
  have hq : 0 ≤ (d - spec.it_value.ns) / spec.it_interval.ns :=
    Int.ediv_nonneg (by omega) (by omega)
  have hdiv := Int.mul_ediv_add_emod (d - spec.it_value.ns) spec.it_interval.ns
  have hmod := Int.emod_nonneg (d - spec.it_value.ns) hi'
  generalize (d - spec.it_value.ns) / spec.it_interval.ns = q at hq hdiv hlt ⊢
  have hcast : ((q.toNat + 1 : Nat) : Int) = q + 1 := by omega
  rw [hcast, Int.add_mul, Int.mul_comm] at hlt
  have heq : (d' - spec.it_value.ns) / spec.it_interval.ns = q :=
    ((Int.ediv_emod_unique hi).mpr
      ⟨Int.sub_add_cancel (d' - spec.it_value.ns) (spec.it_interval.ns * q), by omega,
        by omega⟩).1
  rw [heq]

/-- From the next expiration on. -/
lemma expirations_after (hi : 0 < spec.it_interval.ns) (hv : spec.it_value.ns ≠ 0)
    (hle : spec.it_value.ns + spec.expirations d * spec.it_interval.ns ≤ d') :
    spec.expirations d' = spec.expirations d +
      (((d' - (spec.it_value.ns + spec.expirations d * spec.it_interval.ns)) /
        spec.it_interval.ns).toNat + 1) := by
  have hi' := Int.ne_of_gt hi
  have hnonneg : 0 ≤ (spec.expirations d : Int) * spec.it_interval.ns :=
    Int.mul_nonneg (by omega) (by omega)
  rw [expirations_eq hv hi' (d := d') (by omega)]
  generalize spec.expirations d = n at hle hnonneg ⊢
  have hq : 0 ≤ (d' - (spec.it_value.ns + n * spec.it_interval.ns)) / spec.it_interval.ns :=
    Int.ediv_nonneg (by omega) (by omega)
  have hdiv : (d' - spec.it_value.ns) / spec.it_interval.ns =
      (d' - (spec.it_value.ns + n * spec.it_interval.ns)) / spec.it_interval.ns + n := by
    rw [← Int.add_mul_ediv_right _ _ hi']
    congr 1
    omega
  rw [hdiv]
  omega

/-- A timer that does not expire any more. -/
lemma next_none (h : spec.Valid) (hn : spec.next d = none) (hle : d ≤ d') :
    spec.next d' = none ∧ spec.expirations d' = spec.expirations d := by
  have hv := h.value
  unfold next at hn
  by_cases h0 : spec.it_value.ns = 0
  · simp [next, expirations, h0]
  rw [if_neg h0] at hn
  split at hn
  · cases hn
  rename_i hd
  split at hn
  · rename_i hi
    have hd' : ¬ d' < spec.it_value.ns := by omega
    simp [next, expirations, h0, hi, hd, hd']
  · cases hn

/-- Nothing changes before the next expiration. -/
lemma next_before {e : Int} (h : spec.Valid) (hn : spec.next d = some e) (hle : d ≤ d')
    (hlt : d' < e) : spec.next d' = some e ∧ spec.expirations d' = spec.expirations d := by
  have hi := h.interval
  unfold next at hn
  split at hn
  · cases hn
  rename_i h0
  split at hn
  · rename_i hd
    cases hn
    simp [next, expirations, h0, hd, hlt]
  rename_i hd
  split at hn
  · cases hn
  rename_i hi0
  cases hn
  have hsame := expirations_before (by omega) h0 (Int.not_lt.mp hd) hle hlt
  have hd' : ¬ d' < spec.it_value.ns := by omega
  refine ⟨?_, hsame⟩
  simp only [next, h0, hd', hi0, if_false, hsame]

/-- The timer at or after its next expiration. -/
lemma next_after {e : Int} (h : spec.Valid) (hn : spec.next d = some e) (hle : e ≤ d') :
    if spec.it_interval.ns = 0 then
      spec.next d' = none ∧ spec.expirations d' = spec.expirations d + 1
    else
      let n := ((d' - e) / spec.it_interval.ns).toNat + 1
      spec.next d' = some (e + n * spec.it_interval.ns) ∧
        spec.expirations d' = spec.expirations d + n := by
  have hi := h.interval
  unfold next at hn
  split at hn
  · cases hn
  rename_i h0
  split at hn
  · rename_i hd
    cases hn
    have hd' : ¬ d' < spec.it_value.ns := by omega
    have hzero : spec.expirations d = 0 := by
      simp only [expirations, hd, or_true, if_true]
    split
    · rename_i hi0
      simp [next, expirations, h0, hi0, hd, hd']
    · rename_i hi0
      have hcount := expirations_eq h0 hi0 hle
      refine ⟨?_, by rw [hcount, hzero, Nat.zero_add]⟩
      simp only [next, h0, hd', hi0, if_false, hcount]
  rename_i hd
  split at hn
  · cases hn
  rename_i hi0
  cases hn
  have hmore := expirations_after (by omega) h0 hle
  have hnonneg : 0 ≤ (spec.expirations d : Int) * spec.it_interval.ns :=
    Int.mul_nonneg (by omega) hi
  have hd' : ¬ d' < spec.it_value.ns := by omega
  rw [if_neg hi0]
  refine ⟨?_, hmore⟩
  simp only [next, h0, hd', hi0, if_false, hmore, Int.natCast_add, Int.add_mul, Int.add_assoc]

end Itimerspec

lemma EdTimer.valid_setUsec (t : EdTimer) {usec first_usec : Int} (hu : 0 ≤ usec)
    (hf : 0 ≤ first_usec) (now : Int) : (t.setUsec usec first_usec now).mTimerSpec.Valid := by
  constructor
  · simp only [setUsec, Timespec.ofUsec_ns]
    omega
  · simp only [setUsec, Timespec.ofUsec_ns]
    split <;> omega

/-- The timer was set to `spec` at the time `start`, and at the time `now` all but `seen` of its
expirations are unread. -/
structure Timerfd.Tracks (f : Timerfd) (spec : Itimerspec) (start : Int) (seen : Nat)
    (now : Int) : Prop where
  valid : spec.Valid
  interval : f.interval = spec.it_interval.ns
  expires : f.expires = (spec.next (now - start)).map (start + ·)
  ticks : seen + f.ticks = spec.expirations (now - start)

namespace Timerfd.Tracks

variable {f : Timerfd} {spec : Itimerspec} {start now now' : Int} {seen : Nat}

lemma settime (h : spec.Valid) : (timerfd_settime spec now).Tracks spec now 0 now := by
  have hv := h.value
  refine ⟨h, rfl, ?_, ?_⟩
  · by_cases h0 : spec.it_value.ns = 0
    · simp [timerfd_settime, Itimerspec.next, h0]
    · have hlt : now - now < spec.it_value.ns := by omega
      simp only [timerfd_settime, Itimerspec.next, h0, hlt, if_false, if_true, Option.map_some]
  · have hor : spec.it_value.ns = 0 ∨ now - now < spec.it_value.ns := by omega
    simp only [timerfd_settime, Itimerspec.expirations, hor, if_true]

lemma advance (h : f.Tracks spec start seen now) (hle : now ≤ now') :
    (f.advance now').Tracks spec start seen now' := by
  obtain ⟨hvalid, hint, hexp, hticks⟩ := h
  have hle' : now - start ≤ now' - start := by omega
  unfold Timerfd.advance
  cases hn : spec.next (now - start) with
  | none =>
    obtain ⟨hnext, hcount⟩ := Itimerspec.next_none hvalid hn hle'
    rw [hn, Option.map_none] at hexp
    simp only [hexp]
    exact ⟨hvalid, hint, by rw [hexp, hnext]; rfl, by rw [hcount]; exact hticks⟩
  | some e =>
    rw [hn, Option.map_some] at hexp
    simp only [hexp, hint]
    by_cases hlt : now' < start + e
    · obtain ⟨hnext, hcount⟩ := Itimerspec.next_before hvalid hn hle' (by omega)
      rw [if_pos hlt]
      exact ⟨hvalid, hint, by rw [hexp, hnext]; rfl, by rw [hcount]; exact hticks⟩
    have hafter := Itimerspec.next_after hvalid hn (show e ≤ now' - start by omega)
    rw [if_neg hlt]
    split
    · rename_i hi0
      rw [if_pos hi0] at hafter
      refine ⟨hvalid, rfl, by rw [hafter.1]; rfl, ?_⟩
      rw [hafter.2, ← hticks, Nat.add_assoc]
    · rename_i hi0
      have hsub : now' - start - e = now' - (start + e) := by omega
      rw [if_neg hi0, hsub] at hafter
      refine ⟨hvalid, rfl, ?_, ?_⟩
      · rw [hafter.1, Option.map_some, Int.add_assoc]
      · rw [hafter.2, ← hticks, Nat.add_assoc]

/-- A read takes all unread expirations. -/
lemma read (h : f.Tracks spec start seen now) :
    { f with ticks := 0 }.Tracks spec start (spec.expirations (now - start)) now :=
  ⟨h.valid, h.interval, h.expires, rfl⟩

end Timerfd.Tracks

end EdNio.Timer
