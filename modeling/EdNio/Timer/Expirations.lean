import EdNio.Library.Schedule
import EdNio.Timer.Killed
import Mathlib.Algebra.BigOperators.Group.List.Basic
import Mathlib.Algebra.Ring.Int.Defs

/-!
# Expiration counts

The sum of the counts passed to the listener of a timer against the number of its deadlines.
-/

namespace EdNio.Timer
open MachineInt Schedule Transition

/-- The clock readings of the passes. -/
def passes (log : List PoolEvent) : List Int :=
  log.filterMap (fun e => if let .pass now := e then some now else none)

/-- The count that a call passes to the listener of `h`. -/
def PoolEvent.countFor (h : UInt32) : PoolEvent → Int
  | .called (some info) cnt => if info.handle = h then cnt else 0
  | _ => 0

def total (h : UInt32) (log : List PoolEvent) : Int :=
  (log.map (PoolEvent.countFor h)).sum

/-- How many of the deadlines from `first` on are not later than a pass; none is before the
first pass. -/
def reachedBy (first : Int) (period : UInt64) : Option Int → Nat
  | none => 0
  | some now => reached first (1000 * period.toNat) now

/-- `h` is set once, and not killed in what follows. -/
def SetOnce (h : UInt32) (now : Int) (firstus periodus : UInt64)
    (log after : List PoolEvent) : Prop :=
  ∃ before, log = before ++ .set h now firstus periodus :: after ∧
    (∀ e ∈ before, e.sets h = false) ∧ ∀ e ∈ after, e.sets h = false ∧ e ≠ .killed h

/-- What follows the last call of `setTimerUs` for `h`. -/
def sinceSet (h : UInt32) (log : List PoolEvent) : List PoolEvent :=
  (log.reverse.takeWhile (fun e => !e.sets h)).reverse

/-- A deadline and the one a period later are 64-bit times. A pass comes no earlier than the
deadline; the lateness in µs modulo the period, with the number of deadlines the pass before
has already reached, makes 1; another deadline has been reached; and the count is an `int`. -/
def onTime (n : Node) (now : Int) (before : Option Int) : Bool :=
  let us := (now - n.info.fireTp) / 1000
  let period : Int := n.info.period.toNat
  let seen : Int := reachedBy n.info.fireTp n.info.period before
  decide (n.info.fireTp ≤ now ∧ n.info.fireTp + 1000 * period ≤ timePointMax ∧
    us % period + seen = 1 ∧ seen ≤ us / period ∧ us / period + us % period < 2 ^ 31)

/-- The first deadline of `h` is a 64-bit time, and each pass that finds `h` due is on time. -/
def punctual (h : UInt32) (x : Recorded EdTimerPool PoolEvent) : Action → Bool
  | .setTimerUs handle firstus _ _ =>
    x.state.chosen handle ≠ h || decide (x.state.now + 1000 * firstus.toNat ≤ timePointMax)
  | .scheduleTimer _ =>
    x.state.timerMap.all (fun n =>
      n.info.handle ≠ h || decide (x.state.now + 1000 ≤ n.info.fireTp) ||
        onTime n x.state.now (passes (sinceSet h x.log)).getLast?)
  | _ => true

/-- The counts in `rest` for the timer at `addr`. -/
def owed (rest : List (Int × Nat)) (addr : Nat) : Int :=
  ((rest.filter (fun e => e.2 = addr)).map Prod.fst).sum

lemma total_append (h : UInt32) (log log' : List PoolEvent) :
    total h (log ++ log') = total h log + total h log' := by
  rw [total, List.map_append, List.sum_append]
  rfl

lemma passes_append (log log' : List PoolEvent) :
    passes (log ++ log') = passes log ++ passes log' :=
  List.filterMap_append

lemma sinceSet_eq {h : UInt32} {now : Int} {firstus periodus : UInt64}
    {log after : List PoolEvent} (hs : SetOnce h now firstus periodus log after) :
    sinceSet h log = after := by
  obtain ⟨before, rfl, -, hafter⟩ := hs
  have hall : ∀ e ∈ after.reverse, (!e.sets h) = true := by
    intro e he
    rw [(hafter e (List.mem_reverse.mp he)).1]
    rfl
  rw [sinceSet, List.reverse_append, List.reverse_cons, List.append_assoc,
    List.takeWhile_append_of_pos hall]
  simp [PoolEvent.sets]

lemma SetOnce.of_concat {h : UInt32} {now : Int} {firstus periodus : UInt64}
    {log after : List PoolEvent} {e : PoolEvent}
    (hs : SetOnce h now firstus periodus (log ++ [e]) after) :
    (∃ after', after = after' ++ [e] ∧ SetOnce h now firstus periodus log after' ∧
      e.sets h = false ∧ e ≠ .killed h) ∨
    (after = [] ∧ e = .set h now firstus periodus ∧ ∀ e ∈ log, e.sets h = false) := by
  obtain ⟨before, heq, hbefore, hafter⟩ := hs
  rcases concat_eq_append_cons heq with ⟨after', rfl, hlog⟩ | ⟨rfl, rfl, rfl⟩
  · refine .inl ⟨after', rfl, ⟨before, hlog, hbefore, fun x hx => ?_⟩, hafter e (by simp)⟩
    exact hafter x (List.mem_append_left _ hx)
  · exact .inr ⟨rfl, rfl, hbefore⟩

variable {h : UInt32} {now first : Int} {firstus period : UInt64} {after : List PoolEvent}
  {x y : Recorded EdTimerPool PoolEvent} {n : Node}

/-- The clock readings and deadlines are those of 64-bit times, and nothing wraps. -/
lemma usBetween_eq (h0 : 0 ≤ now) (h1 : now ≤ timePointMax) (h2 : 0 ≤ first)
    (h3 : first ≤ timePointMax) : usBetween now first = (now - first).tdiv 1000 := by
  unfold timePointMax at h1 h3
  rw [usBetween, toI64_eq (by omega) (by omega)]

lemma due_iff (h0 : 0 ≤ now) (h1 : now ≤ timePointMax) (h2 : 0 ≤ n.info.fireTp)
    (h3 : n.info.fireTp ≤ timePointMax) : due now n = true ↔ n.info.fireTp < now + 1000 := by
  have hsign : Int.sign 1000 = 1 := rfl
  rw [due, decide_eq_true_eq, usBetween_eq h0 h1 h2 h3, Int.tdiv_eq_ediv, hsign]
  split <;> omega

/-- The count is the lateness divided by the period, plus the remainder. -/
lemma count_eq (h0 : n.info.fireTp ≤ now) (h1 : now ≤ timePointMax) (h2 : 0 ≤ n.info.fireTp)
    (hc : (now - n.info.fireTp) / 1000 / n.info.period.toNat +
      (now - n.info.fireTp) / 1000 % n.info.period.toNat < 2 ^ 31) :
    count now n = (now - n.info.fireTp) / 1000 / n.info.period.toNat +
      (now - n.info.fireTp) / 1000 % n.info.period.toNat := by
  have hus : usBetween now n.info.fireTp = (now - n.info.fireTp) / 1000 := by
    rw [usBetween_eq (Int.le_trans h2 h0) h1 h2 (Int.le_trans h0 h1)]
    exact Int.tdiv_eq_ediv_of_nonneg (by omega)
  have hpos : 0 ≤ (now - n.info.fireTp) / 1000 := Int.ediv_nonneg (by omega) (by decide)
  have hu64 : toU64 ((now - n.info.fireTp) / 1000) = (now - n.info.fireTp) / 1000 := by
    unfold timePointMax at h1
    exact Int.emod_eq_of_lt hpos (by omega)
  unfold count
  dsimp only
  rw [hus, hu64]
  generalize (now - n.info.fireTp) / 1000 = us at hpos hc ⊢
  have hd : 0 ≤ us / n.info.period.toNat := Int.ediv_nonneg hpos (by omega)
  have hm : 0 ≤ us % n.info.period.toNat := by
    by_cases hp : (n.info.period.toNat : Int) = 0
    · rw [hp, Int.emod_zero]
      exact hpos
    · exact Int.emod_nonneg _ hp
  exact toI32_eq (by omega) hc

lemma plusUs_eq {tp : Int} {us : UInt64} (h0 : 0 ≤ tp)
    (h1 : tp + 1000 * us.toNat ≤ timePointMax) : plusUs tp us = tp + 1000 * us.toNat := by
  unfold timePointMax at h1
  have hus : toI64 us.toNat = us.toNat := toI64_eq (by omega) (by omega)
  have hns : toI64 ((us.toNat : Int) * 1000) = (us.toNat : Int) * 1000 :=
    toI64_eq (by omega) (by omega)
  rw [plusUs, hus, hns, toI64_eq (by omega) (by omega), Int.mul_comm]

lemma owed_fires {order : List Node} (hn : n ∈ order) (hd : (order.map Node.addr).Nodup) :
    owed (fires now order) n.addr = if due now n then count now n else 0 := by
  have hone : order.filter (fun m => m.addr = n.addr) = [n] := by
    induction order with
    | nil => cases hn
    | cons m order ih =>
      rw [List.map_cons, List.nodup_cons] at hd
      rcases List.mem_cons.mp hn with rfl | hn
      · rw [List.filter_cons_of_pos (by simp)]
        have hnil : order.filter (fun m => m.addr = n.addr) = [] := by
          rw [List.filter_eq_nil_iff]
          intro m hm heq
          exact hd.1 (List.mem_map.mpr ⟨m, hm, by simpa using heq⟩)
        rw [hnil]
      · have hne : ¬ m.addr = n.addr := fun heq =>
          hd.1 (List.mem_map.mpr ⟨n, hn, heq.symm⟩)
        rw [List.filter_cons_of_neg (by simpa using hne)]
        exact ih hn hd.2
  have hcomm : (fires now order).filter (fun e => e.2 = n.addr) =
      ((order.filter (fun m => m.addr = n.addr)).filter (due now)).map
        (fun m => (count now m, m.addr)) := by
    rw [fires, List.filter_map, List.filter_filter, List.filter_filter]
    congr 2
    funext m
    exact Bool.and_comm _ _
  rw [owed, hcomm, hone]
  cases hb : due now n <;> simp [hb]

/-- How the timer `h` stands after `after`, the events since it was set: its deadline is the
`m`-th, and the counts passed and owed sum up. -/
structure Standing (h : UInt32) (first : Int) (period : UInt64) (after : List PoolEvent)
    (s : EdTimerPool) (n : Node) (m : Nat) : Prop where
  mem : n ∈ s.timerMap
  handle : n.info.handle = h
  period_eq : n.info.period = period
  first_nonneg : 0 ≤ first
  deadline : n.info.fireTp = first + m * (1000 * period.toNat)
  deadline_le : n.info.fireTp ≤ timePointMax
  fired_le : m ≤ reachedBy first period (passes after).getLast?
  sum : total h after + owed s.pc.rest n.addr = reachedBy first period (passes after).getLast?
  waits : (∃ e ∈ s.pc.rest, e.2 = n.addr) →
    reachedBy first period (passes after).dropLast.getLast? <
      reachedBy first period (passes after).getLast?
  clock : ∀ c ∈ passes after, c ≤ s.now

def Tracked (h : UInt32) (x : Recorded EdTimerPool PoolEvent) : Prop :=
  ∀ now firstus period after, SetOnce h now firstus period x.log after → 0 < period →
    ∃ n m, Standing h (now + 1000 * firstus.toNat) period after x.state n m

lemma Standing.frame {s t : EdTimerPool} {m : Nat} (hst : Standing h first period after s n m)
    {es : List PoolEvent} (hmem : n ∈ t.timerMap)
    (hsum : total h es + owed t.pc.rest n.addr = owed s.pc.rest n.addr)
    (hrest : ∀ e ∈ t.pc.rest, e ∈ s.pc.rest) (hpass : passes es = []) (hnow : s.now ≤ t.now) :
    Standing h first period (after ++ es) t n m := by
  have hp : passes (after ++ es) = passes after := by
    rw [passes_append, hpass, List.append_nil]
  refine ⟨hmem, hst.handle, hst.period_eq, hst.first_nonneg, hst.deadline, hst.deadline_le, ?_, ?_,
    ?_, ?_⟩
  · rw [hp]
    exact hst.fired_le
  · rw [hp, total_append, Int.add_assoc, hsum]
    exact hst.sum
  · rw [hp]
    rintro ⟨e, he, hea⟩
    exact hst.waits ⟨e, hrest e he, hea⟩
  · rw [hp]
    exact fun c hc => Int.le_trans (hst.clock c hc) hnow

lemma step_pos (hp : 0 < period) : (0 : Int) < 1000 * period.toNat := by
  have : 0 < period.toNat := hp
  omega

lemma reachedBy_shift (hp : 0 < period) {m : Nat} {before : Option Int}
    (hm : m ≤ reachedBy first period before) :
    reachedBy first period before =
      m + reachedBy (first + m * (1000 * period.toNat)) period before := by
  cases before with
  | none =>
    have h0 : m = 0 := Nat.le_zero.mp hm
    rw [h0]
    rfl
  | some now => exact reached_shift (step_pos hp) hm

lemma passes_pass : passes (after ++ [.pass now]) = passes after ++ [now] :=
  passes_append after [.pass now]

lemma total_pass : total h (after ++ [.pass now]) = total h after := by
  rw [total_append]
  exact Int.add_zero _

/-- A count passed on time is the number of new deadlines, and there is one. -/
lemma count_onTime {before : Option Int} (h1 : now ≤ timePointMax) (h2 : 0 ≤ n.info.fireTp)
    (ht : onTime n now before = true) :
    count now n + reachedBy n.info.fireTp n.info.period before =
        reached n.info.fireTp (1000 * n.info.period.toNat) now ∧
      reachedBy n.info.fireTp n.info.period before <
        reached n.info.fireTp (1000 * n.info.period.toNat) now := by
  simp only [onTime, decide_eq_true_eq] at ht
  obtain ⟨hle, -, hone, hnew, hint⟩ := ht
  have hus : 0 ≤ (now - n.info.fireTp) / 1000 / n.info.period.toNat :=
    Int.ediv_nonneg (Int.ediv_nonneg (by omega) (by decide)) (by omega)
  have hreached : (reached n.info.fireTp (1000 * n.info.period.toNat) now : Int) =
      (now - n.info.fireTp) / 1000 / n.info.period.toNat + 1 := by
    have h0 : 0 ≤ (now - n.info.fireTp) / (1000 * n.info.period.toNat) :=
      Int.ediv_nonneg (by omega) (by omega)
    rw [reached, if_pos hle, Int.ediv_ediv_of_nonneg (by decide)]
    omega
  have hcount := count_eq hle h1 h2 hint
  constructor <;> omega

lemma Standing.deadline_nonneg {s : EdTimerPool} {m : Nat}
    (hst : Standing h first period after s n m) : 0 ≤ n.info.fireTp := by
  rw [hst.deadline]
  exact Int.add_nonneg hst.first_nonneg (Int.mul_nonneg (by omega) (by omega))

lemma Standing.reached_le {s : EdTimerPool} {m : Nat}
    (hst : Standing h first period after s n m) (hp : 0 < period) :
    reachedBy first period (passes after).getLast? ≤
      reached first (1000 * period.toNat) s.now := by
  cases hl : (passes after).getLast? with
  | none => exact Nat.zero_le _
  | some c => exact reached_mono (step_pos hp) (hst.clock c (List.mem_of_getLast? hl))

/-- The deadlines up to the last pass and up to now, counted from the one of the node on. -/
lemma Standing.reached_eq {s : EdTimerPool} {m : Nat}
    (hst : Standing h first period after s n m) (hp : 0 < period) :
    reachedBy first period (passes after).getLast? =
        m + reachedBy n.info.fireTp n.info.period (passes after).getLast? ∧
      reached first (1000 * period.toNat) s.now =
        m + reached n.info.fireTp (1000 * n.info.period.toNat) s.now := by
  rw [hst.period_eq, hst.deadline]
  exact ⟨reachedBy_shift hp hst.fired_le,
    reached_shift (step_pos hp) (Nat.le_trans hst.fired_le (hst.reached_le hp))⟩

/-- A pass leaves the timer with the deadlines up to its clock reading counted. -/
lemma Standing.counted {s t : EdTimerPool} {m m' : Nat} {n' : Node}
    (hst : Standing h first period after s n m) (hp : 0 < period) (idle : s.pc = .idle)
    (now : t.now = s.now) (hmem : n' ∈ t.timerMap) (hhandle : n'.info.handle = n.info.handle)
    (hperiod : n'.info.period = n.info.period)
    (hdeadline : n'.info.fireTp = first + m' * (1000 * period.toNat))
    (hle : n'.info.fireTp ≤ timePointMax)
    (hfired : m' ≤ m + reached n.info.fireTp (1000 * n.info.period.toNat) s.now)
    (hcount : owed t.pc.rest n'.addr +
        reachedBy n.info.fireTp n.info.period (passes after).getLast? =
      reached n.info.fireTp (1000 * n.info.period.toNat) s.now)
    (hwaits : (∃ e ∈ t.pc.rest, e.2 = n'.addr) →
      reachedBy n.info.fireTp n.info.period (passes after).getLast? <
        reached n.info.fireTp (1000 * n.info.period.toNat) s.now) :
    Standing h first period (after ++ [.pass s.now]) t n' m' := by
  obtain ⟨hseen, hall⟩ := hst.reached_eq hp
  refine ⟨hmem, hhandle.trans hst.handle, hperiod.trans hst.period_eq, hst.first_nonneg,
    hdeadline, hle, ?_, ?_, ?_, ?_⟩
  · rw [passes_pass, List.getLast?_concat, reachedBy]
    omega
  · have hsum := hst.sum
    have howed : owed s.pc.rest n.addr = 0 := by
      rw [idle]
      rfl
    rw [passes_pass, List.getLast?_concat, reachedBy, total_pass]
    omega
  · intro hcalled
    have hnew := hwaits hcalled
    rw [passes_pass, List.getLast?_concat, List.dropLast_concat, reachedBy]
    omega
  · intro c hc
    rw [passes_pass, List.mem_append, List.mem_singleton] at hc
    rcases hc with hc | rfl
    · exact now ▸ hst.clock c hc
    · exact Int.le_of_eq now.symm

/-- A pass that finds the timer due moves its deadline by one period. -/
lemma Standing.pass_due {s t : EdTimerPool} {m : Nat} {order : List Node} (hS : Sound s)
    (hst : Standing h first period after s n m) (hp : 0 < period) (idle : s.pc = .idle)
    (perm : order.Perm s.timerMap) (map : t.timerMap = order.map (advanced s.now))
    (pc : t.pc = .looping (fires s.now order)) (now : t.now = s.now)
    (hdue : due s.now n = true)
    (htime : onTime n s.now (passes after).getLast? = true) :
    Standing h first period (after ++ [.pass s.now]) t (advanced s.now n) (m + 1) := by
  have hn : n ∈ order := perm.mem_iff.mpr hst.mem
  obtain ⟨hcount, hnew⟩ := count_onTime hS.now_le hst.deadline_nonneg htime
  have hnext : n.info.fireTp + 1000 * (n.info.period.toNat : Int) ≤ timePointMax := by
    simp only [onTime, decide_eq_true_eq] at htime
    exact htime.2.1
  have hfire : (advanced s.now n).info.fireTp =
      n.info.fireTp + 1000 * (n.info.period.toNat : Int) := by
    simp only [advanced, hdue, if_true]
    exact plusUs_eq hst.deadline_nonneg hnext
  have howed : owed t.pc.rest (advanced s.now n).addr = count s.now n := by
    rw [pc, advanced_addr]
    exact (owed_fires hn ((perm.map _).nodup_iff.mpr hS.addrs)).trans (if_pos hdue)
  refine hst.counted hp idle now (map ▸ List.mem_map_of_mem hn) (advanced_handle ..)
    (advanced_period ..) ?_ ?_ ?_ ?_ (fun _ => hnew)
  · rw [hfire, hst.deadline, hst.period_eq, Int.natCast_add, Int.add_mul]
    omega
  · rw [hfire]
    exact hnext
  · omega
  · rw [howed]
    exact hcount

lemma Standing.pass_early {s t : EdTimerPool} {m : Nat} {order : List Node} (hS : Sound s)
    (hst : Standing h first period after s n m) (hp : 0 < period) (idle : s.pc = .idle)
    (perm : order.Perm s.timerMap) (map : t.timerMap = order.map (advanced s.now))
    (pc : t.pc = .looping (fires s.now order)) (now : t.now = s.now)
    (hearly : ¬ due s.now n = true) :
    Standing h first period (after ++ [.pass s.now]) t (advanced s.now n) m := by
  have hn : n ∈ order := perm.mem_iff.mpr hst.mem
  have hfar : ¬ n.info.fireTp < s.now + 1000 := fun hlt =>
    hearly ((due_iff hS.now_nonneg hS.now_le hst.deadline_nonneg hst.deadline_le).mpr hlt)
  have hzero : reached n.info.fireTp (1000 * n.info.period.toNat) s.now = 0 :=
    reached_eq_zero (by omega)
  have hle := hst.reached_le hp
  obtain ⟨hseen, hall⟩ := hst.reached_eq hp
  have hsame : advanced s.now n = n := by
    rw [advanced, if_neg hearly]
  have howed : owed t.pc.rest n.addr = 0 := by
    rw [pc]
    exact (owed_fires hn ((perm.map _).nodup_iff.mpr hS.addrs)).trans (if_neg hearly)
  have hmem : advanced s.now n ∈ t.timerMap := map ▸ List.mem_map_of_mem hn
  rw [hsame] at hmem ⊢
  refine hst.counted hp idle now hmem rfl rfl hst.deadline hst.deadline_le ?_ ?_ ?_
  · omega
  · omega
  · rintro ⟨e, he, hea⟩
    rw [pc] at he
    obtain ⟨n', hn', hd', rfl⟩ := exists_of_mem_fires he
    rw [hS.eq_of_addr (perm.mem_iff.mp hn') hst.mem hea] at hd'
    exact absurd hd' hearly

lemma owed_eq_zero {rest : List (Int × Nat)} {addr : Nat} (hr : ∀ e ∈ rest, e.2 ≠ addr) :
    owed rest addr = 0 := by
  have hnil : rest.filter (fun e => e.2 = addr) = [] := by
    rw [List.filter_eq_nil_iff]
    intro e he
    simpa using hr e he
  rw [owed, hnil]
  rfl

/-- Handles in the map have been set. -/
def Known (x : Recorded EdTimerPool PoolEvent) : Prop :=
  ∀ n ∈ x.state.timerMap, ∃ e ∈ x.log, e.sets n.info.handle = true

lemma Standing.set {s t : EdTimerPool} {info : TimerInfo} (hS : Sound s)
    (hnew : ∀ n ∈ s.timerMap, n.info.handle ≠ info.handle)
    (map : t.timerMap = (s.put info).timerMap) (pc : t.pc = s.pc)
    (hfire : info.fireTp = first) (h0 : 0 ≤ first) (h1 : first ≤ timePointMax) :
    Standing info.handle first info.period [] t ⟨s.addrs, info⟩ 0 := by
  have howed : owed t.pc.rest s.addrs = 0 := by
    rw [pc]
    exact owed_eq_zero (fun e he => Nat.ne_of_lt (hS.rest_fresh e he))
  refine ⟨?_, rfl, rfl, h0, ?_, hfire ▸ h1, Nat.zero_le _, ?_, ?_, by simp [passes]⟩
  · rcases s.put_cases info with ⟨⟨n, hn, hh⟩, -, -⟩ | ⟨-, -, hm⟩
    · exact absurd hh (hnew n hn)
    · rw [map, hm]
      simp
  · rw [hfire]
    simp
  · rw [howed]
    rfl
  · rintro ⟨e, he, hea⟩
    rw [pc] at he
    exact absurd hea (Nat.ne_of_lt (hS.rest_fresh e he))

lemma SetOnce.of_toList {log : List PoolEvent} {o : Option PoolEvent}
    (hset : SetOnce h now firstus period (log ++ o.toList) after) :
    (∃ after', after = after' ++ o.toList ∧ SetOnce h now firstus period log after' ∧
      o ≠ some (.killed h)) ∨
    (after = [] ∧ o = some (.set h now firstus period) ∧ ∀ e ∈ log, e.sets h = false) := by
  cases o with
  | none =>
    rw [Option.toList_none, List.append_nil] at hset
    exact .inl ⟨after, (List.append_nil _).symm, hset, by simp⟩
  | some e =>
    rcases hset.of_concat with ⟨after', hafter, hset', -, hkill⟩ | ⟨rfl, rfl, hno⟩
    · exact .inl ⟨after', hafter, hset', fun heq => hkill (Option.some.inj heq)⟩
    · exact .inr ⟨rfl, rfl, hno⟩

/-- A step that does not set the timer, is no pass, and keeps what is owed to it. -/
lemma Tracked.frame {o : Option PoolEvent} (ht : Tracked h x) (hlog : y.log = x.log ++ o.toList)
    (hset : ∀ now firstus period, o ≠ some (.set h now firstus period))
    (hmem : o ≠ some (.killed h) → ∀ n ∈ x.state.timerMap, n.info.handle = h →
      n ∈ y.state.timerMap ∧
        total h o.toList + owed y.state.pc.rest n.addr = owed x.state.pc.rest n.addr)
    (hrest : ∀ e ∈ y.state.pc.rest, e ∈ x.state.pc.rest) (hpass : passes o.toList = [])
    (hnow : x.state.now ≤ y.state.now) : Tracked h y := by
  intro now firstus period after hs hp
  rw [hlog] at hs
  rcases hs.of_toList with ⟨after', rfl, hs', hkill⟩ | ⟨-, ho, -⟩
  · obtain ⟨n, m, hst⟩ := ht now firstus period after' hs' hp
    obtain ⟨hn, hsum⟩ := hmem hkill n hst.mem hst.handle
    exact ⟨n, m, hst.frame hn hsum hrest hpass hnow⟩
  · exact absurd ho (hset now firstus period)

lemma Tracked.set {firstus periodus : UInt64} {lis : Nat} {info : TimerInfo} (hS : Sound x.state)
    (hk : Known x) (hinfo : info = ⟨h, plusUs x.state.now firstus, periodus, lis⟩)
    (map : y.state.timerMap = (x.state.put info).timerMap) (pc : y.state.pc = x.state.pc)
    (hlog : y.log = x.log ++ [.set h x.state.now firstus periodus])
    (hok : x.state.now + 1000 * firstus.toNat ≤ timePointMax) : Tracked h y := by
  intro now firstus' period after hset hp
  rw [hlog] at hset
  rcases hset.of_concat with ⟨-, -, -, hsets, -⟩ | ⟨rfl, heq, hno⟩
  · simp [PoolEvent.sets] at hsets
  · simp only [PoolEvent.set.injEq] at heq
    obtain ⟨-, rfl, rfl, rfl⟩ := heq
    have hnew : ∀ n ∈ x.state.timerMap, n.info.handle ≠ info.handle := by
      intro n hn heq
      obtain ⟨e, he, hsets⟩ := hk n hn
      rw [heq, hinfo, hno e he] at hsets
      cases hsets
    have hfire : info.fireTp = x.state.now + 1000 * firstus.toNat := by
      rw [hinfo]
      exact plusUs_eq hS.now_nonneg hok
    have hst := Standing.set hS hnew map pc hfire (Int.add_nonneg hS.now_nonneg (by omega)) hok
    rw [show info.handle = h by rw [hinfo], show info.period = periodus by rw [hinfo]] at hst
    exact ⟨_, _, hst⟩

lemma Tracked.pass {order : List Node} (hS : Sound x.state) (ht : Tracked h x)
    (idle : x.state.pc = .idle) (perm : order.Perm x.state.timerMap)
    (map : y.state.timerMap = order.map (advanced x.state.now))
    (pc : y.state.pc = .looping (fires x.state.now order)) (hnow : y.state.now = x.state.now)
    (hlog : y.log = x.log ++ [.pass x.state.now])
    (hok : punctual h x (.scheduleTimer order) = true) : Tracked h y := by
  intro now firstus period after hset hp
  rw [hlog] at hset
  rcases hset.of_concat with ⟨after', rfl, hs', -, -⟩ | ⟨-, heq, -⟩
  · obtain ⟨n, m, hst⟩ := ht now firstus period after' hs' hp
    have htime := List.all_eq_true.mp hok n hst.mem
    simp only [hst.handle, ne_eq, not_true_eq_false, decide_false, Bool.false_or,
      Bool.or_eq_true, decide_eq_true_eq, sinceSet_eq hs'] at htime
    by_cases hdue : due x.state.now n = true
    · have hon := htime.resolve_left (fun hlt => ?_)
      · exact ⟨_, _, hst.pass_due hS hp idle perm map pc hnow hdue hon⟩
      · have := (due_iff hS.now_nonneg hS.now_le hst.deadline_nonneg hst.deadline_le).mp hdue
        omega
    · exact ⟨_, _, hst.pass_early hS hp idle perm map pc hnow hdue⟩
  · cases heq

end EdNio.Timer
