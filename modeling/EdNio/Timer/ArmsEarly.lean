import EdNio.Timer.History
import EdNio.Timer.NoStall

/-!
# When `setTimerUs` arms the main timer

`setTimerUs` arms the main timer only for a deadline before `_nearTp`. This is enough as long
as the main timer is armed for `_nearTp`.
-/

namespace EdNio.Timer
open MachineInt Transition

/-- What the main timer goes through: a call of its listener `scheduleTimer`, and a call of
`setUsec`, with whether the deadline is ahead of the clock. -/
inductive ArmEvent
  | callback
  | armed (ahead : Bool)
deriving DecidableEq, Repr

/-- The time point is at least 1 µs after the clock. -/
def ahead (tp now : Int) : Bool :=
  decide (now ≤ tp ∧ 1 ≤ usBetween tp now)

def armEvent (s : EdTimerPool) : Action → Option ArmEvent
  | .setTimerUs _ firstus _ _ =>
    if plusUs s.now firstus < s.nearTp then some (.armed (ahead (plusUs s.now firstus) s.now))
    else none
  | .scheduleTimer _ => some .callback
  | .rearm => some (.armed (ahead s.nearTp s.now))
  | _ => none

def armHistory : System (Recorded EdTimerPool ArmEvent) Action :=
  timerPool.recorded armEvent

/-- Since its last callback the main timer has been armed, for a deadline ahead of the clock. -/
def linked (log : List ArmEvent) : Bool :=
  log.getLast? == some (.armed true)

/-- The timer has expired without being read, or expires no later than `tp`. -/
def DueBy (t : EdTimer) (tp : Int) : Prop :=
  ∃ f, t.timerfd = some f ∧ (f.ticks ≠ 0 ∨ ∃ e, f.expires = some e ∧ e ≤ tp)

/-- The main timer does not come too late for the timer that has been set. -/
def ArmsEarly (ret : UInt32 × EdTimerPool) : Prop :=
  ∀ n ∈ ret.2.timerMap, n.info.handle = ret.1 → DueBy ret.2.mainTimer n.info.fireTp

/-- A new deadline before `_nearTp` is ahead of the clock. For any other one the main timer has
been armed since its last callback, or what it was armed for before comes no later. -/
def ArmsCondition (s : Recorded EdTimerPool ArmEvent) (firstus : UInt64) : Prop :=
  if plusUs s.state.now firstus < s.state.nearTp then
    ahead (plusUs s.state.now firstus) s.state.now = true
  else linked s.log = true ∨ DueBy s.state.mainTimer (plusUs s.state.now firstus)

lemma linked_concat (log : List ArmEvent) (e : ArmEvent) :
    linked (log ++ [e]) = true ↔ e = .armed true := by
  simp [linked]

namespace DueBy

variable {t : EdTimer} {tp tp' now : Int}

lemma mono (h : DueBy t tp) (hle : tp ≤ tp') : DueBy t tp' := by
  obtain ⟨f, hf, hdue⟩ := h
  refine ⟨f, hf, hdue.imp_right ?_⟩
  rintro ⟨e, he, hetp⟩
  exact ⟨e, he, Int.le_trans hetp hle⟩

lemma advance (h : DueBy t tp) (now : Int) : DueBy (t.advance now) tp := by
  obtain ⟨f, hf, hdue⟩ := h
  refine ⟨f.advance now, by rw [EdTimer.advance, hf]; rfl, ?_⟩
  rcases hdue with hne | ⟨e, he, hle⟩
  · have hticks := f.ticks_advance now
    exact .inl (by omega)
  · unfold Timerfd.advance
    rw [he]
    dsimp only
    split
    · exact .inr ⟨e, he, hle⟩
    split
    · exact .inl (Nat.succ_ne_zero _)
    · exact .inl (Nat.succ_ne_zero _)

end DueBy

lemma dueBy_setUsec (t : EdTimer) (usec tp now : Int) :
    DueBy (t.setUsec usec 0 now) tp ↔ usec ≠ 0 ∧ now + usec * 1000 ≤ tp := by
  simp only [DueBy, EdTimer.setUsec, timerfd_settime, if_true, Timespec.ofUsec_ns,
    Option.some.injEq, exists_eq_left', ne_eq, not_true_eq_false, false_or]
  by_cases h0 : usec = 0
  · simp [h0]
  · have hns : ¬ usec * 1000 = 0 := by omega
    simp [h0, hns]

/-- A timer that is set to the difference meets exactly a deadline ahead of the clock. -/
lemma dueBy_ahead (t : EdTimer) {tp now : Int} (hnow : 0 ≤ now) (htp : tp ≤ timePointMax) :
    DueBy (t.setUsec (toU64 (usBetween tp now)) 0 now) tp ↔ ahead tp now = true := by
  rw [dueBy_setUsec, ahead, decide_eq_true_iff]
  unfold timePointMax at htp
  have hnonneg : 0 ≤ toU64 (usBetween tp now) := by
    unfold toU64
    omega
  constructor
  · rintro ⟨hne, hle⟩
    have hdiff : toI64 (tp - now) = tp - now := toI64_eq (by omega) (by omega)
    have hus : usBetween tp now = (tp - now) / 1000 := by
      rw [usBetween, hdiff, Int.tdiv_eq_ediv_of_nonneg (by omega)]
    rw [hus, toU64] at hne
    omega
  · rintro ⟨hle, hus⟩
    have hdiff : toI64 (tp - now) = tp - now := toI64_eq (by omega) (by omega)
    have heq : usBetween tp now = (tp - now) / 1000 := by
      rw [usBetween, hdiff, Int.tdiv_eq_ediv_of_nonneg (by omega)]
    rw [heq] at hus
    have hwide : toU64 (usBetween tp now) = (tp - now) / 1000 := by
      rw [heq, toU64]
      omega
    rw [hwide]
    omega

/-- What the invariant says of a pool and its arming. -/
structure ArmInv (s : Recorded EdTimerPool ArmEvent) : Prop where
  now : 0 ≤ s.state.now
  nearTp : s.state.nearTp ≤ timePointMax
  linked : linked s.log = true → DueBy s.state.mainTimer s.state.nearTp

lemma visit_nearTp {ntp : Int} {p q : Pass} {n : Node} (h : p.visit ntp n = some q) :
    q.nearTp ≤ p.nearTp := by
  unfold Pass.visit at h
  dsimp only at h
  split at h
  · cases h
  · cases h
    dsimp only
    split <;> omega

lemma foldlM_nearTp {ntp : Int} (order : List Node) {p q : Pass}
    (h : order.foldlM (Pass.visit ntp) p = some q) : q.nearTp ≤ p.nearTp := by
  induction order generalizing p with
  | nil =>
    cases h
    exact Int.le_refl _
  | cons n order ih =>
    rw [List.foldlM_cons] at h
    obtain ⟨r, hr, hq⟩ := Option.bind_eq_some_iff.mp h
    exact Int.le_trans (ih hq) (visit_nearTp hr)

namespace ArmInv

variable {s : EdTimerPool} {log : List ArmEvent} {t : EdTimerPool} {a : Action}

lemma setTimerUs (h : ArmInv ⟨s, log⟩) (handle : UInt32) (firstus periodus : UInt64)
    (lis : Nat) : ArmInv ⟨(s.setTimerUs handle firstus periodus lis).2,
      log ++ (armEvent s (.setTimerUs handle firstus periodus lis)).toList⟩ := by
  have hnow : 0 ≤ s.now := h.now
  have hnear : s.nearTp ≤ timePointMax := h.nearTp
  obtain ⟨hnear', hmain, -⟩ := s.setTimerUs_main handle firstus periodus lis
  have hnow' := (s.setTimerUs_eq handle firstus periodus lis).2.2.2.2
  dsimp only [armEvent]
  split at hnear' <;> rename_i hlt
  · rw [if_pos hlt] at hmain ⊢
    have hle : plusUs s.now firstus ≤ timePointMax := by omega
    refine ⟨by rw [hnow']; exact hnow, by rw [hnear']; exact hle, fun hl => ?_⟩
    have hahead := ArmEvent.armed.inj ((linked_concat log _).mp hl)
    rw [hnear', hmain]
    exact (dueBy_ahead s.mainTimer hnow hle).mpr hahead
  · rw [if_neg hlt] at hmain ⊢
    refine ⟨by rw [hnow']; exact hnow, by rw [hnear']; exact hnear, fun hl => ?_⟩
    rw [hnear', hmain]
    apply h.linked
    simpa using hl

theorem step (h : ArmInv ⟨s, log⟩) (hs : step s a = some t) :
    ArmInv ⟨t, log ++ (armEvent s a).toList⟩ := by
  have hnow : 0 ≤ s.now := h.now
  have hnear : s.nearTp ≤ timePointMax := h.nearTp
  cases a with
  | setTimerUs handle firstus periodus lis =>
    simp only [Timer.step, Option.ite_none_right_eq_some, Option.some.injEq] at hs
    obtain ⟨-, rfl⟩ := hs
    exact h.setTimerUs handle firstus periodus lis
  | tick ns =>
    simp only [Timer.step, Option.ite_none_right_eq_some, Option.some.injEq] at hs
    obtain ⟨-, rfl⟩ := hs
    refine ⟨Int.add_nonneg hnow (Int.natCast_nonneg ns), hnear, fun hl => ?_⟩
    exact (h.linked (by simpa [armEvent] using hl)).advance _
  | scheduleTimer order =>
    simp only [Timer.step, Option.ite_none_right_eq_some] at hs
    obtain ⟨-, hs⟩ := hs
    have hno : ¬ Timer.linked (log ++ [.callback]) = true := by
      rw [linked_concat]
      exact fun heq => by cases heq
    unfold EdTimerPool.scheduleTimer at hs
    dsimp only at hs
    split at hs
    · cases hs
      exact ⟨hnow, hnear, fun hl => absurd hl hno⟩
    · obtain ⟨p, hp, rfl⟩ := Option.map_eq_some_iff.mp hs
      exact ⟨hnow, foldlM_nearTp order hp, fun hl => absurd hl hno⟩
  | rearm =>
    simp only [Timer.step, Option.ite_none_right_eq_some, Option.some.injEq] at hs
    obtain ⟨-, rfl⟩ := hs
    refine ⟨hnow, hnear, fun hl => ?_⟩
    have hahead := ArmEvent.armed.inj ((linked_concat log _).mp hl)
    have hus : 1 ≤ usBetween s.nearTp s.now := (of_decide_eq_true hahead).2
    have hclamp : ¬ usBetween s.nearTp s.now < 0 := by omega
    simp only [EdTimerPool.rearm, hclamp, if_false]
    exact (dueBy_ahead s.mainTimer hnow hnear).mpr hahead
  | callListener =>
    simp only [Timer.step] at hs
    split at hs <;> cases hs
    exact ⟨hnow, hnear, fun hl => h.linked (by simpa [armEvent] using hl)⟩
  | listenerReturn =>
    simp only [Timer.step] at hs
    split at hs <;> cases hs
    exact ⟨hnow, hnear, fun hl => h.linked (by simpa [armEvent] using hl)⟩
  | killTimer | epoll_wait =>
    simp only [Timer.step, Option.ite_none_right_eq_some, Option.some.injEq] at hs
    obtain ⟨-, rfl⟩ := hs
    exact ⟨hnow, hnear, fun hl => h.linked (by simpa [armEvent] using hl)⟩

lemma reachable {s : Recorded EdTimerPool ArmEvent} (h : armHistory.Reachable s) : ArmInv s := by
  apply h.invariant
  · rintro ⟨s, log⟩ ⟨⟨h0, hlo, hhi⟩, hlog⟩
    dsimp only at h0 hlo hlog
    refine ⟨hlo, ?_, fun hl => ?_⟩
    · dsimp only
      rw [h0]
      exact Int.le_refl _
    · dsimp only at hl
      rw [hlog] at hl
      cases hl
  · intro s a t _ hI _ hs
    obtain ⟨hstep, hlog⟩ := recorded_step hs
    have hI' := ArmInv.step hI hstep
    rw [← hlog] at hI'
    exact hI'

end ArmInv

/-- The new timer is in the map with its deadline, and nothing else has its handle. -/
lemma armsEarly_iff_dueBy (s : EdTimerPool) (handle : UInt32) (firstus periodus : UInt64)
    (lis : Nat) : ArmsEarly (s.setTimerUs handle firstus periodus lis) ↔
      DueBy (s.setTimerUs handle firstus periodus lis).2.mainTimer (plusUs s.now firstus) := by
  obtain ⟨hret, hmap, -⟩ := s.setTimerUs_eq handle firstus periodus lis
  rw [ArmsEarly, hret, hmap]
  constructor
  · intro h
    obtain ⟨n, hn, hinfo⟩ := EdTimerPool.info_mem_put s
      ⟨s.chosen handle, plusUs s.now firstus, periodus, lis⟩
    have hdue := h n hn (by rw [hinfo])
    rw [hinfo] at hdue
    exact hdue
  · intro h n hn heq
    rcases EdTimerPool.mem_put hn with hinfo | ⟨-, hne⟩
    · rw [hinfo]
      exact h
    · exact absurd heq hne

/-- In every state of every run `setTimerUs` arms early enough exactly under the condition. -/
theorem arms_early_iff {s : Recorded EdTimerPool ArmEvent} (h : armHistory.Reachable s)
    (handle : UInt32) (firstus periodus : UInt64) (lis : Nat) :
    ArmsEarly (s.state.setTimerUs handle firstus periodus lis) ↔ ArmsCondition s firstus := by
  have hI := ArmInv.reachable h
  obtain ⟨-, hmain, -⟩ := s.state.setTimerUs_main handle firstus periodus lis
  rw [armsEarly_iff_dueBy, hmain, ArmsCondition]
  split
  · rename_i hlt
    have hnear := hI.nearTp
    exact dueBy_ahead s.state.mainTimer hI.now (by omega)
  · rename_i hle
    constructor
    · exact .inr
    · rintro (hl | hdue)
      · exact (hI.linked hl).mono (Int.not_lt.mp hle)
      · exact hdue

lemma ahead_plusUs {now : Int} {firstus : UInt64} (h0 : 0 ≤ now) (hpos : firstus ≠ 0)
    (hlt : now + firstus.toNat * 1000 < 2 ^ 63) : ahead (plusUs now firstus) now = true := by
  have hne : firstus.toNat ≠ 0 := fun hzero => hpos (UInt64.toNat_inj.mp hzero)
  have hus : toI64 firstus.toNat = firstus.toNat := toI64_eq (by omega) (by omega)
  have hns : toI64 ((firstus.toNat : Int) * 1000) = (firstus.toNat : Int) * 1000 :=
    toI64_eq (by omega) (by omega)
  have htp : plusUs now firstus = now + firstus.toNat * 1000 := by
    rw [plusUs, hus, hns]
    exact toI64_eq (by omega) (by omega)
  refine decide_eq_true ⟨by omega, ?_⟩
  rw [usBetween_plusUs, firstDelay_eq (by omega)]
  omega

/-- After a pass, one timer that is later than the earliest deadline and one that is earlier. -/
theorem arms_early_twoTimersRun : ∃ s, armHistory.Reachable s ∧ s.state.pc = .idle ∧
    ArmsEarly (s.state.setTimerUs 3 100 100 9) ∧ ArmsEarly (s.state.setTimerUs 3 5 100 9) := by
  obtain ⟨s, hr, hs⟩ := System.exists_of_exec (M := armHistory) (s := ⟨.opened 0, []⟩)
    (f := fun s => (s.state.pc, s.state.now, s.state.nearTp, linked s.log))
    ⟨⟨rfl, by decide, by decide⟩, rfl⟩ (l := twoTimersRun) (b := (.idle, 25000, 70000, true))
    (by decide +kernel)
  simp only [Prod.mk.injEq] at hs
  obtain ⟨hpc, hnow, hnear, hlinked⟩ := hs
  refine ⟨s, hr, hpc, (arms_early_iff hr 3 100 100 9).mpr ?_,
    (arms_early_iff hr 3 5 100 9).mpr ?_⟩
  · rw [ArmsCondition, if_neg (by rw [hnow, hnear]; decide)]
    exact .inl hlinked
  · rw [ArmsCondition, if_pos (by rw [hnow, hnear]; decide), hnow]
    exact ahead_plusUs (by decide) (by decide) (by decide)

/-- A timer is killed, the main timer expires over the empty map, and the next timer is later
than the old deadline but earlier than the next expiration. -/
theorem not_arms_early : ¬ ∀ s, armHistory.Reachable s →
    ∀ handle firstus periodus lis, firstus ≠ 0 →
      ArmsEarly (s.state.setTimerUs handle firstus periodus lis) := by
  intro h
  obtain ⟨s, hr, hs⟩ := System.exists_of_exec (M := armHistory) (s := ⟨.opened 0, []⟩)
    (f := fun s => s.state.setTimerUs 2 5 100 8)
    ⟨⟨rfl, by decide, by decide⟩, rfl⟩
    (l := [.setTimerUs 1 10 100 7, .killTimer 1, .tick 12000, .epoll_wait, .scheduleTimer []])
    (b := (2, { now := 12000
                mainTimer := ⟨some ⟨some 20000, 10000, 0⟩, ⟨⟨0, 10000⟩, ⟨0, 10000⟩⟩, 1⟩
                nearTp := 10000, timerMap := [⟨1, ⟨2, 17000, 100, 8⟩⟩], addrs := 2
                handleSeed := 0, pc := .idle, reported := false, fired := [] }))
    (by decide +kernel)
  have hearly := h s hr 2 5 100 8 (by decide)
  rw [ArmsEarly, hs] at hearly
  obtain ⟨f, hf, hdue⟩ := hearly ⟨1, ⟨2, 17000, 100, 8⟩⟩ (List.mem_singleton_self _) rfl
  cases hf
  rcases hdue with hne | ⟨e, he, hle⟩
  · exact hne rfl
  · cases he
    exact absurd hle (by decide)

end EdNio.Timer
