import EdNio.Event.TaskTimers

/-!
# Counters and flags of the registrations

`regEdEvent`, `deregEdEvent` and `cleanUpEventResource` with any number of `EdEvent` objects.
An event of the task itself is deregistered by the one who has registered it, once.
-/

namespace EdNio.Event
open Transition

inductive BookAction
  | regEdEvent (a : Addr) (fd : Int) (added : Bool)
  | deregEdEvent (a : Addr)
  | cleanUpEventResource
  | object (a : Action)
deriving DecidableEq, Repr

namespace State

variable (L : Layout) (s : State)

/-- An event that a caller of `regEdEvent` has and has not deregistered. -/
def ofTask (a : Addr) : Bool :=
  (s.reg.heap a).any (fun e => e.isReg && e.user = .task)

def bookStep : BookAction → Option State
  | .regEdEvent a fd added =>
    if s.canRegister a fd added then
      (s.reg.regEdEvent L a fd .task added).map (fun (_, r) => { s with reg := r })
    else none
  | .deregEdEvent a =>
    if s.ofTask a then (s.reg.deregEdEvent L a).map (fun r => { s with reg := r }) else none
  | .cleanUpEventResource =>
    (s.reg.cleanUpEventResource L ((s.reg.lists .mDummyEvtList).length + 1)).map
      (fun r => { s with reg := r })
  | .object a => s.op L a

end State

def bookkeeping (L : Layout) : System State BookAction where
  init s := s = State.init
  step := State.bookStep L

/-- The counters agree with the lists, and the flag of each object with its event. -/
structure Bookkept (s : State) : Prop where
  evt_count : s.reg.evt_count = (s.reg.lists .mEvtList).length
  evt_alloc_cnt : s.reg.evt_alloc_cnt =
    (s.reg.lists .mEvtList).length + (s.reg.lists .mDummyEvtList).length
  mIsReg : ∀ o, (s.objs o).mIsReg = true ↔ ∃ a e, (s.objs o).mEvt = some a ∧
    a ∈ s.reg.lists .mEvtList ∧ s.reg.heap a = some e ∧ e.isReg = true

/-- An `EPOLL_CTL_ADD` that is made succeeds. -/
def adds (s : State) : BookAction → Bool
  | .regEdEvent _ _ added => added
  | .object (.registerEvent o _ added) => (s.objs o).mIsReg || added
  | .object (.changeEvent o _ added) => (s.objs o).mIsReg || added
  | _ => true

/-- The invariant of the runs in which each `EPOLL_CTL_ADD` succeeds. -/
structure Tallied (L : Layout) (s : State) : Prop where
  wf : Wf L s.reg
  owned : Owned s
  evt_count : s.reg.evt_count = (s.reg.lists .mEvtList).length
  evt_alloc_cnt : s.reg.evt_alloc_cnt =
    (s.reg.lists .mEvtList).length + (s.reg.lists .mDummyEvtList).length
  mIsReg : ∀ o, (s.objs o).mIsReg = true ↔ (s.objs o).mEvt ≠ none

namespace Tallied

variable {L : Layout} {s t : State} {o : ObjId} {a : Addr} {added : Bool}

lemma bookkept (h : Tallied L s) : Bookkept s := by
  refine ⟨h.evt_count, h.evt_alloc_cnt, fun o => ?_⟩
  rw [h.mIsReg o, Option.ne_none_iff_exists']
  constructor
  · rintro ⟨b, hb⟩
    obtain ⟨e, he, hr, -⟩ := h.owned o b hb
    exact ⟨b, e, hb, h.wf.mem_mEvtList_iff.mpr ⟨e, he, hr⟩, he, hr⟩
  · rintro ⟨b, e, hb, -⟩
    exact ⟨b, hb⟩

/-- An object that keeps its event and its flag. -/
lemma setObj (h : Tallied L s) {x : EdEvent} (hx : x.mEvt = (s.objs o).mEvt)
    (hreg : x.mIsReg = (s.objs o).mIsReg) : Tallied L (s.setObj o x) := by
  have hk := (Keeps.refl h.wf h.owned).setObj (o := o) (x := x) (fun b hb => hx ▸ hb)
  refine ⟨h.wf, hk.owned, h.evt_count, h.evt_alloc_cnt, fun o' => ?_⟩
  by_cases hoo : o' = o
  · subst hoo
    simpa [State.setObj, hx, hreg] using h.mIsReg o'
  · simpa [State.setObj, hoo] using h.mIsReg o'

lemma sysClose (h : Tallied L s) (fd : Int) :
    Tallied L { s with reg := s.reg.sysClose fd } :=
  ⟨h.wf.sysClose fd, h.owned, h.evt_count, h.evt_alloc_cnt, h.mIsReg⟩

lemma registerEvent (h : Tallied L s) (hc : s.canRegister a (s.objs o).mFd added)
    (hok : ((s.objs o).mIsReg || added) = true) (hs : s.registerEvent L o a added = some t) :
    Tallied L t := by
  obtain ⟨u, hu, hk⟩ := Keeps.registerEvent h.wf h.owned hc
  rw [hs, Option.some.injEq] at hu
  subst hu
  unfold State.registerEvent at hs
  simp only at hs
  split at hs
  · cases hs
    exact h
  rename_i hreg
  split at hs
  case isFalse =>
    cases hs
    exact h
  obtain rfl : added = true := by simpa [hreg] using hok
  rw [Registry.regEdEvent_added] at hs
  cases hs
  refine ⟨hk.wf, hk.owned, Registry.evt_count_added h.evt_count,
    Registry.evt_alloc_cnt_added h.evt_alloc_cnt, fun o' => ?_⟩
  by_cases hoo : o' = o
  · simp [State.setObj, hoo]
  · simpa [State.setObj, hoo] using h.mIsReg o'

lemma deregisterEvent (h : Tallied L s) (hs : s.deregisterEvent L o = some t) :
    Tallied L t ∧ (t.objs o).mEvt = none ∧ (t.objs o).mIsReg = false := by
  obtain ⟨u, hu, hk⟩ := Keeps.deregisterEvent h.wf h.owned o
  rw [hs, Option.some.injEq] at hu
  subst hu
  have hflag := h.mIsReg o
  unfold State.deregisterEvent at hs
  simp only at hs
  split at hs
  · rename_i hreg
    cases hs
    refine ⟨h, ?_, hreg⟩
    simpa [hreg] using hflag
  rename_i hreg
  split at hs
  case h_2 hnone => simp [hnone, hreg] at hflag
  rename_i b hb
  obtain ⟨e, he, hr, -⟩ := h.owned o b hb
  rw [Registry.deregEdEvent_eq h.wf he hr] at hs
  cases hs
  have hmem := h.wf.mem_mEvtList_iff.mpr ⟨e, he, hr⟩
  refine ⟨⟨hk.wf, hk.owned, Registry.evt_count_retired h.evt_count hmem,
    Registry.evt_alloc_cnt_retired h.evt_alloc_cnt hmem, fun o' => ?_⟩, ?_, ?_⟩
  · by_cases hoo : o' = o
    · simp [State.setObj, hoo]
    · simpa [State.setObj, hoo] using h.mIsReg o'
  · simp [State.setObj]
  · simp [State.setObj]

lemma changeEvent (h : Tallied L s) (hc : s.canRegister a (s.objs o).mFd added)
    (hok : ((s.objs o).mIsReg || added) = true) (hs : s.changeEvent L o a added = some t) :
    Tallied L t := by
  obtain ⟨u, hu, hk⟩ := Keeps.changeEvent h.wf h.owned hc
  rw [hs, Option.some.injEq] at hu
  subst hu
  unfold State.changeEvent at hs
  split at hs
  · obtain ⟨r, hr, rfl⟩ := Option.map_eq_some_iff.mp hs
    obtain ⟨e, -, rfl⟩ := Option.map_eq_some_iff.mp hr
    have hcount := h.evt_count
    have halloc := h.evt_alloc_cnt
    refine ⟨hk.wf, hk.owned, ?_, ?_, h.mIsReg⟩
    · split <;> exact hcount
    · split <;> exact halloc
  · exact h.registerEvent hc hok hs

lemma close (h : Tallied L s) (hs : s.close L o = some t) : Tallied L t := by
  unfold State.close at hs
  simp only at hs
  split at hs
  · obtain ⟨u, hu, rfl⟩ := Option.map_eq_some_iff.mp hs
    exact ((h.deregisterEvent hu).1.sysClose _).setObj rfl rfl
  · cases hs
    exact h

lemma destroy (h : Tallied L s) (hs : s.destroy L o = some t) : Tallied L t := by
  unfold State.destroy at hs
  simp only at hs
  obtain ⟨u, hu, rfl⟩ := Option.map_eq_some_iff.mp hs
  split at hu
  · obtain ⟨hu', hevt, hreg⟩ := h.deregisterEvent hu
    exact hu'.setObj hevt.symm hreg.symm
  · rename_i hsome
    cases hu
    have hevt : (s.objs o).mEvt = none := by simpa using hsome
    have hreg : (s.objs o).mIsReg = false := by
      have hflag := h.mIsReg o
      simpa [hevt] using hflag
    exact h.setObj hevt.symm hreg.symm

lemma op {act : Action} (h : Tallied L s) (hok : adds s (.object act) = true)
    (hs : s.op L act = some t) : Tallied L t := by
  cases act with
  | setFd o fd =>
    simp only [State.op, Option.ite_none_right_eq_some, Option.some.injEq] at hs
    exact hs.2 ▸ h.setObj rfl rfl
  | registerEvent o b added =>
    simp only [State.op, Option.ite_none_right_eq_some] at hs
    exact h.registerEvent hs.1.2 hok hs.2
  | changeEvent o b added =>
    simp only [State.op, Option.ite_none_right_eq_some] at hs
    exact h.changeEvent hs.1.2 hok hs.2
  | deregisterEvent o => exact (h.deregisterEvent hs).1
  | close o => exact h.close hs
  | destroy o => exact h.destroy hs
  | sysClose fd =>
    cases hs
    exact h.sysClose fd
  | _ => cases hs

lemma regEdEvent {fd : Int} (h : Tallied L s) (hc : s.canRegister a fd true) :
    Tallied L { s with reg := s.reg.added L a fd .task } := by
  obtain ⟨ha, hadd⟩ := hc
  refine ⟨h.wf.added ha (hadd rfl).1, fun o b hb => ?_, Registry.evt_count_added h.evt_count,
    Registry.evt_alloc_cnt_added h.evt_alloc_cnt, h.mIsReg⟩
  obtain ⟨e, he, hp⟩ := h.owned o b hb
  have hba : b ≠ a := by
    rintro rfl
    simp [ha] at he
  exact ⟨e, update_some_iff.mpr (.inr ⟨hba, he⟩), hp⟩

lemma deregEdEvent {r : Registry} (h : Tallied L s) (ha : s.ofTask a = true)
    (hr : s.reg.deregEdEvent L a = some r) : Tallied L { s with reg := r } := by
  obtain ⟨e, he, hreg⟩ := (Option.any_eq_true _ _).mp ha
  rw [Bool.and_eq_true, decide_eq_true_iff] at hreg
  rw [Registry.deregEdEvent_eq h.wf he hreg.1] at hr
  cases hr
  have hmem := h.wf.mem_mEvtList_iff.mpr ⟨e, he, hreg.1⟩
  refine ⟨h.wf.retired he hreg.1, fun o b hb => ?_, Registry.evt_count_retired h.evt_count hmem,
    Registry.evt_alloc_cnt_retired h.evt_alloc_cnt hmem, h.mIsReg⟩
  obtain ⟨p, hp, hpr, hpu⟩ := h.owned o b hb
  have hba : b ≠ a := by
    rintro rfl
    rw [he] at hp
    cases hp
    rw [hreg.2] at hpu
    cases hpu
  exact ⟨p, update_some_iff.mpr (.inr ⟨hba, hp⟩), hpr, hpu⟩

lemma cleanUpEventResource {r : Registry} {n : Nat} (h : Tallied L s)
    (hn : (s.reg.lists .mDummyEvtList).length < n)
    (hr : s.reg.cleanUpEventResource L n = some r) : Tallied L { s with reg := r } := by
  obtain ⟨r', hr', hw, -⟩ := h.wf.cleanUpEventResource hn
  rw [hr, Option.some.injEq] at hr'
  subst hr'
  obtain ⟨-, hkeep, hevt, halloc', hcount'⟩ := cleanUpEventResource_count h.wf hr
  have hcount := h.evt_count
  have halloc := h.evt_alloc_cnt
  refine ⟨hw, fun o b hb => ?_, ?_, ?_, h.mIsReg⟩
  · obtain ⟨e, he, hp⟩ := h.owned o b hb
    exact ⟨e, hkeep b e hp.1 he, hp⟩
  · dsimp only
    rw [hevt, hcount', hcount]
  · dsimp only
    rw [hevt]
    omega

theorem bookStep {act : BookAction} (h : Tallied L s) (hok : adds s act = true)
    (hs : s.bookStep L act = some t) : Tallied L t := by
  cases act with
  | regEdEvent a fd added =>
    obtain rfl : added = true := hok
    simp only [State.bookStep, Registry.regEdEvent_added, Option.ite_none_right_eq_some,
      Option.map_some, Option.some.injEq] at hs
    obtain ⟨hc, rfl⟩ := hs
    exact h.regEdEvent hc
  | deregEdEvent a =>
    simp only [State.bookStep, Option.ite_none_right_eq_some, Option.map_eq_some_iff] at hs
    obtain ⟨ha, r, hr, rfl⟩ := hs
    exact h.deregEdEvent ha hr
  | cleanUpEventResource =>
    obtain ⟨r, hr, rfl⟩ := Option.map_eq_some_iff.mp hs
    exact h.cleanUpEventResource (Nat.lt_succ_self _) hr
  | object act => exact h.op hok hs

/-- `evt_count` stays as it was before a registration that epoll refuses. -/
lemma registerEvent_refused (h : Tallied L s) (ha : s.reg.heap a = none)
    (hreg : (s.objs o).mIsReg = false) (hs : s.registerEvent L o a false = some t) :
    ¬ Bookkept t := by
  intro hb
  have hcount := h.evt_count
  have hevt : (s.objs o).mEvt = none := by
    have hflag := h.mIsReg o
    simpa [hreg] using hflag
  simp only [State.registerEvent, hreg, hevt, Registry.regEdEvent_refused ha, Bool.false_eq_true,
    if_false, if_true, Option.map_some, Option.some.injEq] at hs
  have hcount' := hb.evt_count
  rw [← hs] at hcount'
  simp only [State.setObj, Registry.refused] at hcount'
  omega

/-- A step with an `EPOLL_CTL_ADD` that fails. -/
lemma not_bookkept {act : BookAction} (h : Tallied L s) (hok : ¬ adds s act = true)
    (hs : s.bookStep L act = some t) : ¬ Bookkept t := by
  cases act with
  | regEdEvent a fd added =>
    simp only [adds, Bool.not_eq_true] at hok
    subst hok
    simp only [State.bookStep, Option.ite_none_right_eq_some] at hs
    obtain ⟨hc, hs⟩ := hs
    rw [Registry.regEdEvent_refused hc.1] at hs
    cases hs
    intro hb
    have hcount := h.evt_count
    have hcount' := hb.evt_count
    simp only [Registry.refused] at hcount'
    omega
  | deregEdEvent | cleanUpEventResource => exact absurd rfl hok
  | object act =>
    cases act with
    | registerEvent o b added =>
      simp only [adds, Bool.or_eq_true, not_or, Bool.not_eq_true] at hok
      simp only [State.bookStep, State.op, Option.ite_none_right_eq_some] at hs
      rw [hok.2] at hs
      exact h.registerEvent_refused hs.1.2.1 hok.1 hs.2
    | changeEvent o b added =>
      simp only [adds, Bool.or_eq_true, not_or, Bool.not_eq_true] at hok
      simp only [State.bookStep, State.op, Option.ite_none_right_eq_some] at hs
      have hevt : (s.objs o).mEvt = none := by
        have hflag := h.mIsReg o
        simpa [hok.1] using hflag
      simp only [State.changeEvent, hevt, hok.2] at hs
      exact h.registerEvent_refused hs.1.2.1 hok.1 hs.2
    | _ => exact absurd rfl hok

lemma init : Tallied L State.init := by
  have hI : Inv L State.init := Inv.init
  refine ⟨hI.wf, hI.owned, rfl, rfl, fun o => ?_⟩
  simp [State.init, EdEvent.initMembers]

end Tallied

/-- A run in which each `EPOLL_CTL_ADD` succeeds, and the first one that fails. -/
theorem registration_bookkept (L : Layout) {s : State}
    (h : (bookkeeping L).Reaches (fun s a => adds s a = true) s) :
    Bookkept s ∧ ∀ a t, (bookkeeping L).step s a = some t → (Bookkept t ↔ adds s a = true) := by
  apply h.exact (I := Tallied L) (P := Bookkept)
  · rintro s rfl
    exact Tallied.init
  · intro s a t hI hok hs
    exact hI.bookStep hok hs
  · intro s hI
    exact hI.bookkept
  · intro s a t hI hok hs
    exact hI.not_bookkept hok hs

/-- Two objects and an event of the task; one object is changed, and the other one is closed and
its event released. -/
theorem registration_bookkept_changedRun : ∃ s,
    (bookkeeping sampleLayout).Reaches (fun s a => adds s a = true) s ∧
      s.reg.evt_alloc_cnt = 2 ∧ Bookkept s := by
  obtain ⟨s, hr, hs⟩ := System.exists_of_exec_restrict (M := bookkeeping sampleLayout) (T := adds)
    (s := .init) (f := fun s => s.reg.evt_alloc_cnt) (b := 2) rfl
    (l := [.regEdEvent 10 3 true, .object (.setFd 0 5), .object (.registerEvent 0 20 true),
      .object (.setFd 1 6), .object (.registerEvent 1 21 true), .object (.changeEvent 0 22 false),
      .object (.close 1), .cleanUpEventResource])
    (by decide +kernel)
  exact ⟨s, hr, hs, (registration_bookkept sampleLayout hr).1⟩

/-- Epoll refuses the only registration. -/
theorem not_registration_bookkept :
    ¬ ∀ s, (bookkeeping sampleLayout).Reachable s → Bookkept s := by
  intro h
  obtain ⟨s, hr, hs⟩ := System.exists_of_exec (M := bookkeeping sampleLayout) (s := .init)
    (f := fun s => (s.reg.evt_count, s.reg.lists .mEvtList)) (b := (1, [])) rfl
    (l := [.object (.setFd 0 5), .object (.registerEvent 0 20 false)]) (by decide +kernel)
  have hcount := (h s hr).evt_count
  rw [Prod.mk.injEq] at hs
  rw [hs.1, hs.2] at hcount
  cases hcount

end EdNio.Event
