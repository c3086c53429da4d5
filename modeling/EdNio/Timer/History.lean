import EdNio.Library.History
import EdNio.Timer.TimerPool
import Mathlib.Data.List.Nodup

/-!
# The history of a timer pool

What the pool and its user do, in order, and what each step does to the map and to the list
of timers to fire.
-/

namespace EdNio.Timer
open MachineInt Transition

/-- `handle` is the one that `setTimerUs` returns, `info` what the pointer of the call of a
listener leads to. -/
inductive PoolEvent
  | set (handle : UInt32) (now : Int) (firstus periodus : UInt64)
  | killed (id : UInt32)
  | pass (now : Int)
  | called (info : Option TimerInfo) (cnt : Int)
  | passEnd
deriving DecidableEq, Repr

def PoolEvent.sets (h : UInt32) : PoolEvent → Bool
  | .set handle _ _ _ => handle = h
  | _ => false

/-- A pass over an empty map returns before it reads the clock. -/
def recordEvent (s : EdTimerPool) : Action → Option PoolEvent
  | .tick _ => none
  | .setTimerUs handle firstus periodus lis =>
    some (.set (s.setTimerUs handle firstus periodus lis).1 s.now firstus periodus)
  | .killTimer id => some (.killed id)
  | .epoll_wait => none
  | .scheduleTimer _ => if s.timerMap.length = 0 then none else some (.pass s.now)
  | .callListener =>
    match s.pc with
    | .looping ((cnt, addr) :: _) => some (.called (s.find addr) cnt)
    | _ => none
  | .listenerReturn => none
  | .rearm => some .passEnd

def poolHistory : System (Recorded EdTimerPool PoolEvent) Action :=
  timerPool.recorded recordEvent

/-- What is left of `_fireList`. -/
def Pc.rest : Pc → List (Int × Nat)
  | .idle => []
  | .looping rest => rest
  | .listening rest => rest

/-- A pass at `ntp` finds the timer due. -/
def due (ntp : Int) (n : Node) : Bool :=
  decide (0 ≤ usBetween ntp n.info.fireTp)

/-- A timer after the first loop of `scheduleTimer`. -/
def advanced (ntp : Int) (n : Node) : Node :=
  if due ntp n then
    { n with info := { n.info with fireTp := plusUs n.info.fireTp n.info.period } }
  else n

/-- The count of a due timer. -/
def count (ntp : Int) (n : Node) : Int :=
  let us := usBetween ntp n.info.fireTp
  let period : Int := n.info.period.toNat
  toI32 (toU64 us / period + toU64 us % period)

/-- `_fireList` after that loop. -/
def fires (ntp : Int) (order : List Node) : List (Int × Nat) :=
  (order.filter (due ntp)).map (fun n => (count ntp n, n.addr))

lemma visit_eq {ntp : Int} {p q : Pass} {n : Node} (h : p.visit ntp n = some q) :
    q.nodes = p.nodes ++ [advanced ntp n] ∧ q.fireList = p.fireList ++ fires ntp [n] ∧
      (due ntp n = true → n.info.period ≠ 0) := by
  unfold Pass.visit at h
  dsimp only at h
  split at h
  · cases h
  · rename_i hne
    cases h
    by_cases hd : 0 ≤ usBetween ntp n.info.fireTp
    · have hp : n.info.period ≠ 0 := fun h0 => hne ⟨hd, h0⟩
      simp [advanced, fires, due, count, hd, hp]
    · simp [advanced, fires, due, hd]

/-- What the first loop of `scheduleTimer` leaves. -/
lemma foldlM_visit {ntp : Int} (order : List Node) {p q : Pass}
    (h : order.foldlM (Pass.visit ntp) p = some q) :
    q.nodes = p.nodes ++ order.map (advanced ntp) ∧ q.fireList = p.fireList ++ fires ntp order ∧
      ∀ n ∈ order, due ntp n = true → n.info.period ≠ 0 := by
  induction order generalizing p with
  | nil =>
    cases h
    simp [fires]
  | cons n order ih =>
    rw [List.foldlM_cons] at h
    obtain ⟨r, hr, hq⟩ := Option.bind_eq_some_iff.mp h
    obtain ⟨hn, hf, hp⟩ := visit_eq hr
    obtain ⟨hn', hf', hp'⟩ := ih hq
    refine ⟨?_, ?_, ?_⟩
    · rw [hn', hn, List.append_assoc, List.map_cons]
      rfl
    · rw [hf', hf, List.append_assoc, fires, fires, fires, ← List.map_append,
        ← List.filter_append]
      rfl
    · intro m hm
      rcases List.mem_cons.mp hm with rfl | hm
      · exact hp
      · exact hp' m hm

namespace EdTimerPool

variable {s : EdTimerPool}

lemma put_cases (s : EdTimerPool) (info : TimerInfo) :
    ((∃ n ∈ s.timerMap, n.info.handle = info.handle) ∧ (s.put info).addrs = s.addrs ∧
      (s.put info).timerMap =
        s.timerMap.map (fun n => if n.info.handle = info.handle then ⟨n.addr, info⟩ else n)) ∨
    ((∀ n ∈ s.timerMap, n.info.handle ≠ info.handle) ∧ (s.put info).addrs = s.addrs + 1 ∧
      (s.put info).timerMap = s.timerMap ++ [⟨s.addrs, info⟩]) := by
  unfold put
  split
  · rename_i h
    left
    simpa using h
  · rename_i h
    right
    simpa using h

/-- The handle that `setTimerUs` uses. -/
def chosen (s : EdTimerPool) (handle : UInt32) : UInt32 :=
  if handle = 0 then s.nextSeed else handle

lemma put_seed (s : EdTimerPool) (seed : UInt32) (info : TimerInfo) :
    { s with handleSeed := seed }.put info = { s.put info with handleSeed := seed } := by
  unfold put
  dsimp only
  split <;> rfl

lemma setTimerUs_eq (s : EdTimerPool) (handle : UInt32) (firstus periodus : UInt64) (lis : Nat) :
    let info := ⟨s.chosen handle, plusUs s.now firstus, periodus, lis⟩
    let t := (s.setTimerUs handle firstus periodus lis).2
    (s.setTimerUs handle firstus periodus lis).1 = s.chosen handle ∧
      t.timerMap = (s.put info).timerMap ∧ t.addrs = (s.put info).addrs ∧ t.pc = s.pc ∧
      t.now = s.now := by
  have hchosen : (if handle = 0 then if handle = 0 then s.nextSeed else s.handleSeed else handle) =
      s.chosen handle := by
    unfold chosen
    split <;> rfl
  unfold setTimerUs
  dsimp only
  rw [hchosen]
  generalize (if handle = 0 then s.nextSeed else s.handleSeed) = seed
  rw [put_seed]
  obtain ⟨hpc, -, -, hnow⟩ :=
    put_frame (s := s) ⟨s.chosen handle, plusUs s.now firstus, periodus, lis⟩
  split <;> exact ⟨rfl, rfl, rfl, hpc, hnow⟩

lemma put_reported (s : EdTimerPool) (info : TimerInfo) :
    (s.put info).reported = s.reported := by
  unfold put
  split <;> rfl

lemma setTimerUs_main (s : EdTimerPool) (handle : UInt32) (firstus periodus : UInt64)
    (lis : Nat) :
    let t := (s.setTimerUs handle firstus periodus lis).2
    (t.nearTp = if plusUs s.now firstus < s.nearTp then plusUs s.now firstus else s.nearTp) ∧
      (t.mainTimer = if plusUs s.now firstus < s.nearTp then
          s.mainTimer.setUsec (toU64 (usBetween (plusUs s.now firstus) s.now)) 0 s.now
        else s.mainTimer) ∧ t.reported = s.reported := by
  unfold setTimerUs
  simp only [(put_frame _).2.1, (put_frame _).2.2.1, (put_frame _).2.2.2]
  split
  · exact ⟨rfl, rfl, put_reported _ _⟩
  · exact ⟨(put_frame _).2.2.1, (put_frame _).2.1, put_reported _ _⟩

lemma mem_put {info : TimerInfo} {n : Node} (h : n ∈ (s.put info).timerMap) :
    n.info = info ∨ n ∈ s.timerMap ∧ n.info.handle ≠ info.handle := by
  rcases s.put_cases info with ⟨-, -, hm⟩ | ⟨hne, -, hm⟩
  · rw [hm, List.mem_map] at h
    obtain ⟨m, hmem, rfl⟩ := h
    split
    · exact .inl rfl
    · rename_i hh
      exact .inr ⟨hmem, hh⟩
  · rw [hm, List.mem_append, List.mem_singleton] at h
    rcases h with h | rfl
    · exact .inr ⟨h, hne n h⟩
    · exact .inl rfl

lemma info_mem_put (s : EdTimerPool) (info : TimerInfo) :
    ∃ n ∈ (s.put info).timerMap, n.info = info := by
  rcases s.put_cases info with ⟨⟨n, hn, heq⟩, -, hm⟩ | ⟨-, -, hm⟩
  · refine ⟨⟨n.addr, info⟩, ?_, rfl⟩
    rw [hm]
    exact List.mem_map.mpr ⟨n, hn, if_pos heq⟩
  · refine ⟨⟨s.addrs, info⟩, ?_, rfl⟩
    rw [hm]
    exact List.mem_append_right _ (List.mem_singleton_self _)

/-- An element keeps its address, and what it holds unless it is the one that is set. -/
lemma put_keeps (info : TimerInfo) {n : Node} (h : n ∈ s.timerMap) :
    ∃ m ∈ (s.put info).timerMap, m.addr = n.addr ∧ (n.info.handle ≠ info.handle → m = n) := by
  rcases s.put_cases info with ⟨-, -, hm⟩ | ⟨-, -, hm⟩
  · rw [hm]
    refine ⟨_, List.mem_map_of_mem h, ?_, ?_⟩
    · split <;> rfl
    · intro hne
      rw [if_neg hne]
  · rw [hm]
    exact ⟨n, List.mem_append_left _ h, rfl, fun _ => rfl⟩

end EdTimerPool

/-- What an action does to the map, the list of timers to fire and the clock. -/
inductive Effect (s : EdTimerPool) : Action → EdTimerPool → Prop
  | tick {ns : Nat} {t : EdTimerPool} (clock : s.now + ns ≤ timePointMax)
      (map : t.timerMap = s.timerMap) (addrs : t.addrs = s.addrs) (pc : t.pc = s.pc)
      (now : t.now = s.now + ns) : Effect s (.tick ns) t
  | set {handle : UInt32} {firstus periodus : UInt64} {lis : Nat} {t : EdTimerPool}
      {info : TimerInfo}
      (info_eq : info = ⟨s.chosen handle, plusUs s.now firstus, periodus, lis⟩)
      (map : t.timerMap = (s.put info).timerMap) (addrs : t.addrs = (s.put info).addrs)
      (pc : t.pc = s.pc) (now : t.now = s.now) : Effect s (.setTimerUs handle firstus periodus lis) t
  | kill {id : UInt32} : Effect s (.killTimer id) (s.killTimer id)
  | epoll : Effect s .epoll_wait { s with reported := true }
  | nothing {order : List Node} {t : EdTimerPool} (empty : s.timerMap = [])
      (map : t.timerMap = []) (addrs : t.addrs = s.addrs) (pc : t.pc = s.pc)
      (now : t.now = s.now) : Effect s (.scheduleTimer order) t
  | pass {order : List Node} {t : EdTimerPool} (idle : s.pc = .idle) (nonempty : s.timerMap ≠ [])
      (perm : order.Perm s.timerMap) (map : t.timerMap = order.map (advanced s.now))
      (addrs : t.addrs = s.addrs) (pc : t.pc = .looping (fires s.now order))
      (now : t.now = s.now)
      (period : ∀ n ∈ order, due s.now n = true → n.info.period ≠ 0) :
      Effect s (.scheduleTimer order) t
  | call {cnt : Int} {addr : Nat} {rest : List (Int × Nat)}
      (loop : s.pc = .looping ((cnt, addr) :: rest)) :
      Effect s .callListener
        { s with fired := s.fired ++ [(s.find addr, cnt)], pc := .listening rest }
  | back {rest : List (Int × Nat)} (lis : s.pc = .listening rest) :
      Effect s .listenerReturn { s with pc := .looping rest }
  | rearm (loop : s.pc = .looping []) : Effect s .rearm s.rearm

variable {s t : EdTimerPool} {a : Action}

lemma step_effect (hs : step s a = some t) : Effect s a t := by
  cases a with
  | tick ns =>
    simp only [step, Option.ite_none_right_eq_some, Option.some.injEq] at hs
    obtain ⟨hle, rfl⟩ := hs
    exact .tick hle rfl rfl rfl rfl
  | setTimerUs handle firstus periodus lis =>
    simp only [step, Option.ite_none_right_eq_some, Option.some.injEq] at hs
    obtain ⟨-, rfl⟩ := hs
    obtain ⟨-, hm, ha, hp, hn⟩ := s.setTimerUs_eq handle firstus periodus lis
    exact .set rfl hm ha hp hn
  | killTimer id =>
    simp only [step, Option.ite_none_right_eq_some, Option.some.injEq] at hs
    obtain ⟨-, rfl⟩ := hs
    exact .kill
  | epoll_wait =>
    simp only [step, Option.ite_none_right_eq_some, Option.some.injEq] at hs
    obtain ⟨-, rfl⟩ := hs
    exact .epoll
  | scheduleTimer order =>
    simp only [step, Option.ite_none_right_eq_some, List.isPerm_iff] at hs
    obtain ⟨⟨hidle, -, hperm⟩, hs⟩ := hs
    unfold EdTimerPool.scheduleTimer at hs
    dsimp only at hs
    split at hs
    · rename_i hlen
      have hnil := List.length_eq_zero_iff.mp hlen
      cases hs
      exact .nothing hnil hnil rfl rfl rfl
    · rename_i hlen
      obtain ⟨p, hp, rfl⟩ := Option.map_eq_some_iff.mp hs
      obtain ⟨hnodes, hfire, hperiod⟩ := foldlM_visit order hp
      refine .pass hidle (fun h0 => hlen (by rw [h0]; rfl)) hperm ?_ rfl ?_ rfl hperiod
      · simpa using hnodes
      · simpa using hfire
  | callListener =>
    simp only [step] at hs
    split at hs
    · rename_i hpc
      cases hs
      exact .call hpc
    · cases hs
  | listenerReturn =>
    simp only [step] at hs
    split at hs
    · rename_i hpc
      cases hs
      exact .back hpc
    · cases hs
  | rearm =>
    simp only [step, Option.ite_none_right_eq_some, Option.some.injEq] at hs
    obtain ⟨hpc, rfl⟩ := hs
    exact .rearm hpc

lemma eq_killTimer {id : UInt32} (h : recordEvent s a = some (.killed id)) :
    a = .killTimer id := by
  cases a with
  | killTimer id =>
    cases h
    rfl
  | scheduleTimer order =>
    simp only [recordEvent] at h
    split at h <;> cases h
  | callListener =>
    simp only [recordEvent] at h
    split at h <;> cases h
  | _ => cases h

/-- A handle in the map was there or has been set by the step. -/
lemma step_handles (hs : step s a = some t) {n : Node} (hn : n ∈ t.timerMap) :
    (∃ e, recordEvent s a = some e ∧ e.sets n.info.handle = true) ∨
      ∃ m ∈ s.timerMap, m.info.handle = n.info.handle := by
  cases step_effect hs with
  | tick clock map addrs pc now => exact .inr ⟨n, map ▸ hn, rfl⟩
  | @set handle firstus periodus lis t info info_eq map addrs pc now =>
    rw [map] at hn
    rcases EdTimerPool.mem_put hn with hinfo | ⟨hmem, -⟩
    · refine .inl ⟨_, rfl, ?_⟩
      rw [PoolEvent.sets, (s.setTimerUs_eq handle firstus periodus lis).1, hinfo, info_eq]
      exact decide_eq_true rfl
    · exact .inr ⟨n, hmem, rfl⟩
  | kill => exact .inr ⟨n, List.mem_of_mem_filter hn, rfl⟩
  | epoll => exact .inr ⟨n, hn, rfl⟩
  | nothing empty map addrs pc now =>
    rw [map] at hn
    cases hn
  | pass idle nonempty perm map addrs pc now period =>
    rw [map] at hn
    obtain ⟨m, hm, rfl⟩ := List.mem_map.mp hn
    refine .inr ⟨m, perm.mem_iff.mp hm, ?_⟩
    unfold advanced
    split <;> rfl
  | call loop => exact .inr ⟨n, hn, rfl⟩
  | back lis => exact .inr ⟨n, hn, rfl⟩
  | rearm loop => exact .inr ⟨n, hn, rfl⟩

/-- The map is one: handles and addresses are distinct, and a new address is not among them. -/
structure Sound (s : EdTimerPool) : Prop where
  handles : (s.timerMap.map (fun n => n.info.handle)).Nodup
  addrs : (s.timerMap.map Node.addr).Nodup
  fresh : ∀ n ∈ s.timerMap, n.addr < s.addrs
  rest_fresh : ∀ e ∈ s.pc.rest, e.2 < s.addrs
  now_nonneg : 0 ≤ s.now
  now_le : s.now ≤ timePointMax

@[simp] lemma advanced_handle (ntp : Int) (n : Node) :
    (advanced ntp n).info.handle = n.info.handle := by
  unfold advanced
  split <;> rfl

@[simp] lemma advanced_addr (ntp : Int) (n : Node) : (advanced ntp n).addr = n.addr := by
  unfold advanced
  split <;> rfl

@[simp] lemma advanced_period (ntp : Int) (n : Node) :
    (advanced ntp n).info.period = n.info.period := by
  unfold advanced
  split <;> rfl

lemma exists_of_mem_fires {ntp : Int} {order : List Node} {e : Int × Nat}
    (h : e ∈ fires ntp order) : ∃ n ∈ order, due ntp n = true ∧ e = (count ntp n, n.addr) := by
  simp only [fires, List.mem_map, List.mem_filter] at h
  obtain ⟨n, ⟨hn, hd⟩, rfl⟩ := h
  exact ⟨n, hn, hd, rfl⟩

lemma Sound.put (h : Sound s) (info : TimerInfo)
    (map : t.timerMap = (s.put info).timerMap) (addrs : t.addrs = (s.put info).addrs)
    (pc : t.pc = s.pc) (now : t.now = s.now) : Sound t := by
  have hle : s.addrs ≤ t.addrs := by
    rcases s.put_cases info with ⟨-, ha, -⟩ | ⟨-, ha, -⟩
    · exact Nat.le_of_eq (addrs.trans ha).symm
    · rw [addrs, ha]
      exact Nat.le_succ _
  have hrest : ∀ e ∈ t.pc.rest, e.2 < t.addrs := by
    intro e he
    rw [pc] at he
    exact Nat.lt_of_lt_of_le (h.rest_fresh e he) hle
  rcases s.put_cases info with ⟨-, ha, hm⟩ | ⟨hne, ha, hm⟩
  · refine ⟨?_, ?_, ?_, hrest, now ▸ h.now_nonneg, now ▸ h.now_le⟩
    · have heq : t.timerMap.map (fun n => n.info.handle) =
          s.timerMap.map (fun n => n.info.handle) := by
        rw [map, hm, List.map_map]
        apply List.map_congr_left
        intro n _
        simp only [Function.comp_apply]
        split
        · rename_i hh
          exact hh.symm
        · rfl
      rw [heq]
      exact h.handles
    · have heq : t.timerMap.map Node.addr = s.timerMap.map Node.addr := by
        rw [map, hm, List.map_map]
        apply List.map_congr_left
        intro n _
        simp only [Function.comp_apply]
        split <;> rfl
      rw [heq]
      exact h.addrs
    · intro n hn
      rw [map, hm, List.mem_map] at hn
      obtain ⟨m, hmem, rfl⟩ := hn
      rw [addrs, ha]
      split
      · exact h.fresh m hmem
      · exact h.fresh m hmem
  · refine ⟨?_, ?_, ?_, hrest, now ▸ h.now_nonneg, now ▸ h.now_le⟩
    · rw [map, hm, List.map_append, List.nodup_append]
      refine ⟨h.handles, List.nodup_singleton _, ?_⟩
      intro x hx y hy hxy
      obtain ⟨n, hn, rfl⟩ := List.mem_map.mp hx
      rw [List.map_singleton, List.mem_singleton] at hy
      exact hne n hn (hxy.trans hy)
    · rw [map, hm, List.map_append, List.nodup_append]
      refine ⟨h.addrs, List.nodup_singleton _, ?_⟩
      intro x hx y hy hxy
      obtain ⟨n, hn, rfl⟩ := List.mem_map.mp hx
      rw [List.map_singleton, List.mem_singleton] at hy
      exact Nat.ne_of_lt (h.fresh n hn) (hxy.trans hy)
    · intro n hn
      rw [map, hm, List.mem_append, List.mem_singleton] at hn
      rw [addrs, ha]
      rcases hn with hn | rfl
      · exact Nat.lt_succ_of_lt (h.fresh n hn)
      · exact Nat.lt_succ_self _

lemma step_sound (h : Sound s) (hs : step s a = some t) : Sound t := by
  cases step_effect hs with
  | tick clock map addrs pc now =>
    refine ⟨map ▸ h.handles, map ▸ h.addrs, map ▸ addrs ▸ h.fresh, pc ▸ addrs ▸ h.rest_fresh, ?_,
      now ▸ clock⟩
    have := h.now_nonneg
    omega
  | set info_eq map addrs pc now => exact h.put _ map addrs pc now
  | kill =>
    exact ⟨h.handles.sublist (List.filter_sublist.map _),
      h.addrs.sublist (List.filter_sublist.map _),
      fun n hn => h.fresh n (List.mem_of_mem_filter hn), h.rest_fresh, h.now_nonneg, h.now_le⟩
  | epoll => exact ⟨h.handles, h.addrs, h.fresh, h.rest_fresh, h.now_nonneg, h.now_le⟩
  | nothing empty map addrs pc now =>
    refine ⟨?_, ?_, ?_, pc ▸ addrs ▸ h.rest_fresh, now ▸ h.now_nonneg, now ▸ h.now_le⟩ <;>
      simp [map]
  | pass idle nonempty perm map addrs pc now period =>
    refine ⟨?_, ?_, ?_, ?_, now ▸ h.now_nonneg, now ▸ h.now_le⟩
    · rw [map, List.map_map]
      have heq : ((fun n : Node => n.info.handle) ∘ advanced s.now) = fun n => n.info.handle :=
        funext (advanced_handle s.now)
      rw [heq]
      exact (perm.map _).nodup_iff.mpr h.handles
    · rw [map, List.map_map, show Node.addr ∘ advanced s.now = Node.addr from
        funext (advanced_addr s.now)]
      exact (perm.map _).nodup_iff.mpr h.addrs
    · intro n hn
      rw [map] at hn
      obtain ⟨m, hm, rfl⟩ := List.mem_map.mp hn
      rw [advanced_addr, addrs]
      exact h.fresh m (perm.mem_iff.mp hm)
    · intro e he
      rw [pc] at he
      obtain ⟨n, hn, -, rfl⟩ := exists_of_mem_fires he
      rw [addrs]
      exact h.fresh n (perm.mem_iff.mp hn)
  | call loop =>
    refine ⟨h.handles, h.addrs, h.fresh, fun e he => h.rest_fresh e ?_, h.now_nonneg, h.now_le⟩
    rw [loop]
    exact List.mem_cons_of_mem _ he
  | back lis =>
    refine ⟨h.handles, h.addrs, h.fresh, fun e he => h.rest_fresh e ?_, h.now_nonneg, h.now_le⟩
    rw [lis]
    exact he
  | rearm loop =>
    exact ⟨h.handles, h.addrs, h.fresh, by simp [EdTimerPool.rearm, Pc.rest], h.now_nonneg,
      h.now_le⟩

lemma reachable_sound (h : timerPool.Reachable s) : Sound s := by
  apply h.invariant
  · rintro s ⟨h0, hlo, hhi⟩
    rw [h0] at hlo hhi ⊢
    exact ⟨List.nodup_nil, List.nodup_nil, by simp [EdTimerPool.opened],
      by simp [EdTimerPool.opened, Pc.rest], hlo, hhi⟩
  · intro s a t _ hI _ hs
    exact step_sound hI hs

lemma Sound.eq_of_addr (h : Sound s) {n m : Node} (hn : n ∈ s.timerMap) (hm : m ∈ s.timerMap)
    (heq : n.addr = m.addr) : n = m :=
  List.inj_on_of_nodup_map h.addrs hn hm heq

lemma Sound.find_eq (h : Sound s) {n : Node} (hn : n ∈ s.timerMap) :
    s.find n.addr = some n.info := by
  unfold EdTimerPool.find
  cases hf : s.timerMap.find? (fun m => m.addr = n.addr) with
  | none =>
    have := List.find?_eq_none.mp hf n hn
    simp at this
  | some m =>
    have hm := List.mem_of_find?_eq_some hf
    have ha : m.addr = n.addr := by simpa using List.find?_some hf
    rw [h.eq_of_addr hm hn ha]
    rfl

end EdNio.Timer
