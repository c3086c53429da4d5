import EdNio.Timer.History

/-!
# The arithmetic of `scheduleTimer`

A pass divides by the periods of the timers that are due and hands their counts over as `int`.
-/

namespace EdNio.Timer
open MachineInt Transition

/-- The count of a due timer before it becomes an `int`. -/
def wideCount (ntp : Int) (n : Node) : Int :=
  let us := usBetween ntp n.info.fireTp
  let period : Int := n.info.period.toNat
  toU64 us / period + toU64 us % period

/-- The pass divides by no 0, and `_fireList` holds the counts as they were computed. -/
def PassSafe (s : EdTimerPool) (order : List Node) : Prop :=
  ∃ t, s.scheduleTimer order = some t ∧
    t.pc.rest = (order.filter (due s.now)).map (fun n => (wideCount s.now n, n.addr))

/-- A due timer has a period, and its lateness is not too large for it. -/
def inRange (ntp : Int) (n : Node) : Bool :=
  let us := usBetween ntp n.info.fireTp
  let period : Int := n.info.period.toNat
  decide (n.info.period ≠ 0 ∧ us / period + us % period < 2 ^ 31)

lemma count_toI32 (ntp : Int) (n : Node) : count ntp n = toI32 (wideCount ntp n) := rfl

lemma wideCount_of_due {ntp : Int} {n : Node} (h : due ntp n = true) :
    wideCount ntp n = usBetween ntp n.info.fireTp / (n.info.period.toNat : Int) +
      usBetween ntp n.info.fireTp % (n.info.period.toNat : Int) := by
  have hus : 0 ≤ usBetween ntp n.info.fireTp := of_decide_eq_true h
  obtain ⟨hlo, hhi⟩ := toI64_range (ntp - n.info.fireTp)
  have hle : (usBetween ntp n.info.fireTp).natAbs ≤ (toI64 (ntp - n.info.fireTp)).natAbs :=
    Int.natAbs_tdiv_le_natAbs _ _
  have heq : toU64 (usBetween ntp n.info.fireTp) = usBetween ntp n.info.fireTp := by
    apply Int.emod_eq_of_lt hus
    omega
  simp only [wideCount, heq]

lemma count_eq_wideCount {ntp : Int} {n : Node} (h : due ntp n = true) :
    count ntp n = wideCount ntp n ↔ wideCount ntp n < 2 ^ 31 := by
  have hus : 0 ≤ usBetween ntp n.info.fireTp := of_decide_eq_true h
  have hpos : 0 ≤ wideCount ntp n := by
    rw [wideCount_of_due h]
    apply Int.add_nonneg
    · exact Int.ediv_nonneg hus (Int.natCast_nonneg _)
    · by_cases hp : (n.info.period.toNat : Int) = 0
      · rw [hp, Int.emod_zero]
        exact hus
      · exact Int.emod_nonneg _ hp
  rw [count_toI32]
  constructor
  · intro heq
    have hlt := Int.bmod_lt (x := wideCount ntp n) (m := 2 ^ 32) (by decide)
    rw [show (wideCount ntp n).bmod (2 ^ 32) = wideCount ntp n from heq] at hlt
    omega
  · intro hlt
    exact toI32_eq (by omega) hlt

/-- The first loop of `scheduleTimer` ends if no due timer has a period of 0. -/
lemma foldlM_visit_some {ntp : Int} (order : List Node) (p : Pass)
    (h : ∀ n ∈ order, due ntp n = true → n.info.period ≠ 0) :
    ∃ q, order.foldlM (Pass.visit ntp) p = some q := by
  induction order generalizing p with
  | nil => exact ⟨p, rfl⟩
  | cons n order ih =>
    have hn : ¬ (0 ≤ usBetween ntp n.info.fireTp ∧ n.info.period = 0) :=
      fun ⟨hus, hp⟩ => h n List.mem_cons_self (decide_eq_true hus) hp
    rw [List.foldlM_cons, Pass.visit, if_neg hn]
    exact ih _ (fun m hm => h m (List.mem_cons_of_mem n hm))

lemma inRange_iff {ntp : Int} {n : Node} (h : due ntp n = true) :
    inRange ntp n = true ↔ n.info.period ≠ 0 ∧ count ntp n = wideCount ntp n := by
  rw [count_eq_wideCount h, wideCount_of_due h]
  exact decide_eq_true_iff

/-- The pass is safe exactly if every timer that is due is in range. -/
theorem pass_safe_iff {s : EdTimerPool} {order : List Node} (hpc : s.pc = .idle)
    (hperm : order.Perm s.timerMap) :
    PassSafe s order ↔ ∀ n ∈ s.timerMap, due s.now n = true → inRange s.now n = true := by
  by_cases hnil : s.timerMap = []
  · rw [hnil] at hperm ⊢
    have hsafe : PassSafe s order := by
      refine ⟨_, if_pos (congrArg List.length hnil), ?_⟩
      rw [hperm.eq_nil]
      simp only [hpc, Pc.rest, List.filter_nil, List.map_nil]
    exact iff_of_true hsafe (fun n hn => by cases hn)
  have hlen : ¬ s.timerMap.length = 0 := fun h0 => hnil (List.length_eq_zero_iff.mp h0)
  have hrest : ∀ p : Pass, p.fireList = fires s.now order →
      ((Pc.looping p.fireList).rest =
          (order.filter (due s.now)).map (fun n => (wideCount s.now n, n.addr)) ↔
        ∀ n ∈ order, due s.now n = true → count s.now n = wideCount s.now n) := by
    intro p hp
    simp only [Pc.rest, hp, fires, List.map_inj_left, List.mem_filter, Prod.mk.injEq, and_true,
      and_imp]
  constructor
  · rintro ⟨t, ht, hfire⟩ n hn hd
    rw [EdTimerPool.scheduleTimer, if_neg hlen] at ht
    obtain ⟨p, hp, rfl⟩ := Option.map_eq_some_iff.mp ht
    obtain ⟨-, hlist, hperiod⟩ := foldlM_visit order hp
    have hmem := hperm.mem_iff.mpr hn
    exact (inRange_iff hd).mpr
      ⟨hperiod n hmem hd, (hrest p hlist).mp hfire n hmem hd⟩
  · intro h
    have hall : ∀ n ∈ order, due s.now n = true →
        n.info.period ≠ 0 ∧ count s.now n = wideCount s.now n :=
      fun n hn hd => (inRange_iff hd).mp (h n (hperm.mem_iff.mp hn) hd)
    obtain ⟨p, hp⟩ := foldlM_visit_some order ⟨timePointMax, [], []⟩
      (fun n hn hd => (hall n hn hd).1)
    obtain ⟨-, hlist, -⟩ := foldlM_visit order hp
    refine ⟨{ s with
      mainTimer := s.mainTimer.readHitCount, reported := false, nearTp := p.nearTp
      timerMap := p.nodes, pc := .looping p.fireList }, ?_,
      (hrest p hlist).mpr (fun n hn hd => (hall n hn hd).2)⟩
    rw [EdTimerPool.scheduleTimer, if_neg hlen]
    exact congrArg (Option.map _) hp

/-- Whatever its period, a timer that is late by less than 2 ^ 31 µs is in range. -/
lemma inRange_of_lt {ntp : Int} {n : Node} (h : due ntp n = true) (hp : n.info.period ≠ 0)
    (hlt : usBetween ntp n.info.fireTp < 2 ^ 31) : inRange ntp n = true := by
  have hus : 0 ≤ usBetween ntp n.info.fireTp := of_decide_eq_true h
  have hpos : (0 : Int) < n.info.period.toNat := by
    have hne : n.info.period.toNat ≠ 0 := fun h0 => hp (UInt64.toNat_inj.mp h0)
    omega
  refine decide_eq_true ⟨hp, ?_⟩
  generalize usBetween ntp n.info.fireTp = us at hus hlt
  generalize (n.info.period.toNat : Int) = period at hpos
  have hdiv := Int.mul_ediv_add_emod us period
  have hle : 1 * (us / period) ≤ period * (us / period) :=
    Int.mul_le_mul_of_nonneg_right (by omega) (Int.ediv_nonneg hus (by omega))
  omega

/-- A timer of 300 ms whose pass comes 2 s late. -/
theorem pass_safe_lateTimer : ∃ s, timerPool.Reachable s ∧ s.timerMap.length = 1 ∧
    PassSafe s s.timerMap := by
  obtain ⟨s, hr, hs⟩ := System.exists_of_exec (M := timerPool) (s := .opened 0)
    ⟨rfl, by decide, by decide⟩
    (show (timerPool.exec (.opened 0)
      [.setTimerUs 1 300000 300000 7, .tick 2300000000, .epoll_wait]).map
        (fun s => (s.pc, s.timerMap.length, s.timerMap.all (fun n =>
          decide (n.info.period ≠ 0 ∧ usBetween s.now n.info.fireTp < 2 ^ 31)))) =
            some (.idle, 1, true) by decide +kernel)
  simp only [Prod.mk.injEq, List.all_eq_true, decide_eq_true_eq] at hs
  obtain ⟨hpc, hlen, hall⟩ := hs
  exact ⟨s, hr, hlen, (pass_safe_iff hpc (List.Perm.refl _)).mpr
    (fun n hn hd => inRange_of_lt hd (hall n hn).1 (hall n hn).2)⟩

/-- A timer without a period. -/
theorem not_pass_safe : ¬ ∀ s order, timerPool.Reachable s → s.pc = .idle →
    order.Perm s.timerMap → PassSafe s order := by
  intro h
  obtain ⟨s, hr, hs⟩ := System.exists_of_exec (M := timerPool) (s := .opened 0)
    ⟨rfl, by decide, by decide⟩
    (show (timerPool.exec (.opened 0) [.setTimerUs 1 10 0 7, .tick 20000, .epoll_wait]).map
      (fun s => (s.pc, s.scheduleTimer s.timerMap)) = some (.idle, none) by decide)
  simp only [Prod.mk.injEq] at hs
  obtain ⟨t, ht, -⟩ := h s s.timerMap hr hs.1 (List.Perm.refl _)
  rw [hs.2] at ht
  cases ht

end EdNio.Timer
