import EdNio.Event.BatchSafety
import EdNio.Event.TaskProc

/-!
# Task timers at the end of a task

Every registered event is that of the message eventfd or held by an object, and
`evt_alloc_cnt` counts the events on the two lists. `edEventLoop` looks for events that are
still registered while the task timers hold theirs.
-/

namespace EdNio.Event
open MachineInt Transition

section CleanUp

variable {L : Layout} {r t : Registry} {n : Nat}

/-- `cleanUpEventResource` only frees events that are not registered, and counts them. -/
lemma cleanUpEventResource_count (h : Wf L r)
    (ht : Registry.cleanUpEventResource L n r = some t) :
    (∀ b p, t.heap b = some p → r.heap b = some p) ∧
      (∀ b p, p.isReg = true → r.heap b = some p → t.heap b = some p) ∧
      t.lists .mEvtList = r.lists .mEvtList ∧
      t.evt_alloc_cnt + (r.lists .mDummyEvtList).length =
        r.evt_alloc_cnt + (t.lists .mDummyEvtList).length ∧ t.evt_count = r.evt_count := by
  induction n generalizing r with
  | zero => simp [Registry.cleanUpEventResource] at ht
  | succ n ih =>
    cases hl : r.lists .mDummyEvtList with
    | nil =>
      rw [Registry.cleanUpEventResource_nil hl] at ht
      obtain rfl := Option.some.inj ht
      exact ⟨fun _ _ hb => hb, fun _ _ _ hb => hb, rfl, by rw [hl], rfl⟩
    | cons a rest =>
      obtain ⟨e, ha, hr⟩ := h.mem_mDummyEvtList_iff.mp (by rw [hl]; exact List.mem_cons_self)
      rw [Registry.cleanUpEventResource_cons h ha hr hl] at ht
      obtain ⟨hheap, hkeep, hevt, hcount, hregs⟩ := ih (h.released ha hr hl) ht
      refine ⟨fun b p hb => (update_none_iff.mp (hheap b p hb)).2, fun b p hp hb => ?_, ?_, ?_,
        hregs⟩
      · exact hkeep b p hp (update_none_iff.mpr ⟨Wf.ne_of_isReg ha hb hr hp, hb⟩)
      · rw [hevt, Registry.released_mEvtList]
      · rw [Registry.released_mDummyEvtList] at hcount
        simp only [Registry.released] at hcount
        rw [List.length_cons]
        omega

end CleanUp

/-- The events are accounted for; `m` is the event of the message eventfd. -/
structure Books (m : Option Addr) (s : State) : Prop where
  held : ∀ a e, s.reg.heap a = some e → e.isReg = true → m = some a ∨ ∃ o, (s.objs o).mEvt = some a
  isReg : ∀ o, (s.objs o).mEvt ≠ none → (s.objs o).mIsReg = true
  msg : ∀ a, m = some a → ∃ e, s.reg.heap a = some e ∧ e.isReg = true ∧ e.user = .task
  count : s.reg.evt_alloc_cnt =
    (s.reg.lists .mEvtList).length + (s.reg.lists .mDummyEvtList).length

namespace Books

variable {L : Layout} {m : Option Addr} {s t : State} {o : ObjId} {a : Addr} {added : Bool}

/-- An object that keeps its event. -/
lemma setObj (h : Books m s) {x : EdEvent} (hx : x.mEvt = (s.objs o).mEvt)
    (hreg : (s.objs o).mEvt ≠ none → x.mIsReg = true) : Books m (s.setObj o x) where
  held a e ha hr := by
    rcases h.held a e ha hr with hm | ⟨o', ho'⟩
    · exact .inl hm
    · refine .inr ⟨o', ?_⟩
      by_cases hoo : o' = o
      · subst hoo
        simpa [State.setObj, hx] using ho'
      · simpa [State.setObj, hoo] using ho'
  isReg o' := by
    by_cases hoo : o' = o
    · subst hoo
      simpa [State.setObj, hx] using hreg
    · simpa [State.setObj, hoo] using h.isReg o'
  msg := h.msg
  count := h.count

lemma sysClose (h : Books m s) (fd : Int) : Books m { s with reg := s.reg.sysClose fd } :=
  ⟨h.held, h.isReg, h.msg, h.count⟩

lemma registerEvent (h : Books m s) (hc : s.canRegister a (s.objs o).mFd added)
    (hs : s.registerEvent L o a added = some t) : Books m t := by
  obtain ⟨ha, -⟩ := hc
  unfold State.registerEvent at hs
  simp only at hs
  split at hs
  · cases hs
    exact h
  split at hs
  case isFalse =>
    cases hs
    exact h
  rename_i hnone
  cases added with
  | false =>
    rw [Registry.regEdEvent_refused ha] at hs
    cases hs
    have href : Books m { s with reg := s.reg.refused } := ⟨h.held, h.isReg, h.msg, h.count⟩
    exact href.setObj (by simp [hnone]) (by simp)
  | true =>
    rw [Registry.regEdEvent_added] at hs
    cases hs
    have hne : ∀ {b : Addr} {e : Edevt}, s.reg.heap b = some e → b ≠ a := by
      rintro b e hb rfl
      simp [ha] at hb
    constructor
    · intro b e hb hr
      rcases update_some_iff.mp hb with ⟨rfl, -⟩ | ⟨-, hb⟩
      · exact .inr ⟨o, by simp [State.setObj]⟩
      · rcases h.held b e hb hr with hm | ⟨o', ho'⟩
        · exact .inl hm
        · have hoo : o' ≠ o := by
            rintro rfl
            simp [hnone] at ho'
          exact .inr ⟨o', by simpa [State.setObj, hoo] using ho'⟩
    · intro o'
      by_cases hoo : o' = o
      · simp [State.setObj, hoo]
      · simpa [State.setObj, hoo] using h.isReg o'
    · intro b hb
      obtain ⟨e, he, hreg⟩ := h.msg b hb
      exact ⟨e, update_some_iff.mpr (.inr ⟨hne he, he⟩), hreg⟩
    · exact Registry.evt_alloc_cnt_added h.count

lemma deregisterEvent (h : Books m s) (hw : Wf L s.reg) (ho : Owned s)
    (hs : s.deregisterEvent L o = some t) : Books m t := by
  unfold State.deregisterEvent at hs
  simp only at hs
  split at hs
  · cases hs
    exact h
  split at hs
  case h_2 hnone =>
    cases hs
    exact h.setObj rfl (by simp [hnone])
  rename_i b hb
  obtain ⟨e, he, hr, hu⟩ := ho o b hb
  rw [Registry.deregEdEvent_eq hw he hr] at hs
  cases hs
  constructor
  · intro c p hc hp
    rcases update_some_iff.mp hc with ⟨-, rfl⟩ | ⟨hcb, hc⟩
    · simp at hp
    · rcases h.held c p hc hp with hm | ⟨o', ho'⟩
      · exact .inl hm
      · have hoo : o' ≠ o := by
          rintro rfl
          rw [hb] at ho'
          exact hcb (Option.some.inj ho').symm
        exact .inr ⟨o', by simpa [State.setObj, hoo] using ho'⟩
  · intro o'
    by_cases hoo : o' = o
    · simp [State.setObj, hoo]
    · simpa [State.setObj, hoo] using h.isReg o'
  · intro c hc
    obtain ⟨p, hp, hpr, hpu⟩ := h.msg c hc
    have hcb : c ≠ b := by
      rintro rfl
      rw [he] at hp
      cases hp
      rw [hu] at hpu
      cases hpu
    exact ⟨p, update_some_iff.mpr (.inr ⟨hcb, hp⟩), hpr, hpu⟩
  · exact Registry.evt_alloc_cnt_retired h.count (hw.mem_mEvtList_iff.mpr ⟨e, he, hr⟩)

lemma changeEvent (h : Books m s) (hc : s.canRegister a (s.objs o).mFd added)
    (hs : s.changeEvent L o a added = some t) : Books m t := by
  unfold State.changeEvent at hs
  split at hs
  · obtain ⟨r, hr, rfl⟩ := Option.map_eq_some_iff.mp hs
    obtain ⟨e, -, rfl⟩ := Option.map_eq_some_iff.mp hr
    split <;> exact ⟨h.held, h.isReg, h.msg, h.count⟩
  · exact h.registerEvent hc hs

/-- `deregisterEvent` leaves its object without an event. -/
lemma deregisterEvent_mEvt (h : Books m s) (hs : s.deregisterEvent L o = some t) :
    (t.objs o).mEvt = none := by
  unfold State.deregisterEvent at hs
  simp only at hs
  split at hs
  · rename_i hreg
    cases hs
    by_contra hne
    simp [h.isReg o hne] at hreg
  split at hs
  · obtain ⟨r, -, rfl⟩ := Option.map_eq_some_iff.mp hs
    simp [State.setObj]
  · rename_i hnone
    cases hs
    simp [State.setObj, hnone]

end Books

/-- What an operation on the objects keeps. -/
structure Kept (L : Layout) (m : Option Addr) (s t : State) : Prop where
  keeps : Keeps L s t
  books : Books m t

namespace Kept

variable {L : Layout} {m : Option Addr} {s t u : State} {o : ObjId} {a : Addr} {added : Bool}

lemma refl (hw : Wf L s.reg) (ho : Owned s) (h : Books m s) : Kept L m s s :=
  ⟨.refl hw ho, h⟩

lemma trans (h : Kept L m s t) (h' : Kept L m t u) : Kept L m s u :=
  ⟨h.keeps.trans h'.keeps, h'.books⟩

lemma bind {f : State → Option State} {s? : Option State} (h : ∃ t, s? = some t ∧ Kept L m s t)
    (hf : ∀ t, Kept L m s t → ∃ u, f t = some u ∧ Kept L m t u) :
    ∃ u, s?.bind f = some u ∧ Kept L m s u := by
  obtain ⟨t, rfl, ht⟩ := h
  obtain ⟨u, hu, hk⟩ := hf t ht
  exact ⟨u, hu, ht.trans hk⟩

lemma registerEvent (hw : Wf L s.reg) (ho : Owned s) (h : Books m s)
    (hc : s.canRegister a (s.objs o).mFd added) :
    ∃ t, s.registerEvent L o a added = some t ∧ Kept L m s t := by
  obtain ⟨t, ht, hk⟩ := Keeps.registerEvent hw ho hc
  exact ⟨t, ht, hk, h.registerEvent hc ht⟩

lemma deregisterEvent (hw : Wf L s.reg) (ho : Owned s) (h : Books m s) (o : ObjId) :
    ∃ t, s.deregisterEvent L o = some t ∧ Kept L m s t := by
  obtain ⟨t, ht, hk⟩ := Keeps.deregisterEvent hw ho o
  exact ⟨t, ht, hk, h.deregisterEvent hw ho ht⟩

lemma changeEvent (hw : Wf L s.reg) (ho : Owned s) (h : Books m s)
    (hc : s.canRegister a (s.objs o).mFd added) :
    ∃ t, s.changeEvent L o a added = some t ∧ Kept L m s t := by
  obtain ⟨t, ht, hk⟩ := Keeps.changeEvent hw ho hc
  exact ⟨t, ht, hk, h.changeEvent hc ht⟩

lemma setFd (hw : Wf L s.reg) (ho : Owned s) (h : Books m s) (o : ObjId) (fd : Int) :
    Kept L m s (s.setFd o fd) :=
  ⟨(Keeps.refl hw ho).setObj (fun _ hb => hb), h.setObj rfl (h.isReg o)⟩

lemma sysClose (hw : Wf L s.reg) (ho : Owned s) (h : Books m s) (fd : Int) :
    Kept L m s { s with reg := s.reg.sysClose fd } :=
  ⟨(Keeps.refl hw ho).sysClose fd, h.sysClose fd⟩

lemma close (hw : Wf L s.reg) (ho : Owned s) (h : Books m s) (o : ObjId) :
    ∃ t, s.close L o = some t ∧ Kept L m s t := by
  unfold State.close
  simp only
  split
  · obtain ⟨t, ht, hk⟩ := deregisterEvent hw ho h o
    rw [ht]
    exact ⟨_, rfl, (hk.keeps.sysClose _).setObj (fun _ hb => hb),
      (hk.books.sysClose _).setObj rfl (hk.books.isReg o)⟩
  · exact ⟨s, rfl, refl hw ho h⟩

lemma destroy (hw : Wf L s.reg) (ho : Owned s) (h : Books m s) (o : ObjId) :
    ∃ t, s.destroy L o = some t ∧ Kept L m s t := by
  unfold State.destroy
  simp only
  split
  · obtain ⟨t, ht, hk⟩ := deregisterEvent hw ho h o
    have hnone := h.deregisterEvent_mEvt ht
    rw [ht]
    exact ⟨_, rfl, hk.keeps.setObj (by simp [EdEvent.initMembers]),
      hk.books.setObj hnone.symm (fun hne => absurd hnone hne)⟩
  · rename_i hsome
    have hnone : (s.objs o).mEvt = none := by simpa using hsome
    exact ⟨_, rfl, (Keeps.refl hw ho).setObj (by simp [EdEvent.initMembers]),
      h.setObj hnone.symm (fun hne => absurd hnone hne)⟩

lemma delete (hw : Wf L s.reg) (ho : Owned s) (h : Books m s) (o : ObjId) :
    ∃ t, s.delete L o = some t ∧ Kept L m s t :=
  bind (close hw ho h o) (fun _ hk => destroy hk.keeps.wf hk.keeps.owned hk.books o)

/-- `kill` and `delete` of a timer. -/
lemma dispose (hw : Wf L s.reg) (ho : Owned s) (h : Books m s) (o : ObjId) :
    ∃ t, (s.kill L o).bind (fun s => s.delete L o) = some t ∧ Kept L m s t :=
  bind (close hw ho h o) (fun _ hk => delete hk.keeps.wf hk.keeps.owned hk.books o)

lemma killAll (hw : Wf L s.reg) (ho : Owned s) (h : Books m s) (order : List ObjId) :
    ∃ t, TaskProc.killAll L order s = some t ∧ Kept L m s t := by
  induction order generalizing s with
  | nil => exact ⟨s, rfl, refl hw ho h⟩
  | cons pt rest ih =>
    exact bind (dispose hw ho h pt) (fun _ hk => ih hk.keeps.wf hk.keeps.owned hk.books)

lemma setUsec {fd : Int} (hw : Wf L s.reg) (ho : Owned s) (h : Books m s)
    (hs : s.setUsec L o fd a added = some t) : Kept L m s t := by
  unfold State.setUsec at hs
  split at hs
  · obtain ⟨hc, hs⟩ := Option.ite_none_right_eq_some.mp hs
    have hset := setFd hw ho h o fd
    have hc' : (s.setFd o fd).canRegister a ((s.setFd o fd).objs o).mFd added := by
      simpa [State.canRegister, State.setFd, State.setObj] using hc
    obtain ⟨u, hu, hk⟩ := registerEvent (L := L) hset.keeps.wf hset.keeps.owned hset.books hc'
    rw [hu] at hs
    cases hs
    exact hset.trans hk
  · cases hs
    exact refl hw ho h

lemma op {act : Action} (hw : Wf L s.reg) (ho : Owned s) (h : Books m s)
    (hs : s.op L act = some t) : Kept L m s t := by
  have hsome : ∀ {s? : Option State}, (∃ u, s? = some u ∧ Kept L m s u) → s? = some t →
      Kept L m s t := by
    rintro s? ⟨u, rfl, hk⟩ heq
    cases heq
    exact hk
  cases act with
  | setFd o fd =>
    simp only [State.op, Option.ite_none_right_eq_some, Option.some.injEq] at hs
    exact hs.2 ▸ setFd hw ho h o fd
  | registerEvent o b added =>
    simp only [State.op, Option.ite_none_right_eq_some] at hs
    exact hsome (registerEvent hw ho h hs.1.2) hs.2
  | changeEvent o b added =>
    simp only [State.op, Option.ite_none_right_eq_some] at hs
    exact hsome (changeEvent hw ho h hs.1.2) hs.2
  | deregisterEvent o => exact hsome (deregisterEvent hw ho h o) hs
  | close o => exact hsome (close hw ho h o) hs
  | destroy o => exact hsome (destroy hw ho h o) hs
  | sysClose fd => exact hsome ⟨_, rfl, sysClose hw ho h fd⟩ hs
  | _ => cases hs

end Kept

/-- What is kept by the task, in its main loop and in the handler of `EDM_CLOSE`. -/
structure ProcInv (L : Layout) (x : TaskProc) : Prop where
  wf : Wf L x.loop.reg
  owned : Owned x.loop
  books : Books x.mEdMsgEvt x.loop
  inLoop : x.pc = .esMain → Inv L x.loop
  start : x.loop.pc = .start → x.exit_flag = false ∧ x.pc = .esMain ∧ x.loop.reg = .empty
  msgEvt : x.exit_flag = true → x.mEdMsgEvt ≠ none
  left : x.pc ≠ .esMain → x.exit_flag = true

namespace ProcInv

variable {L : Layout} {x y : TaskProc} {s : State}

lemma init : ProcInv L TaskProc.init where
  wf := Wf.empty
  owned := Inv.init (L := L).owned
  books := by constructor <;> simp [TaskProc.init, State.init, Registry.empty, EdEvent.initMembers]
  inLoop _ := Inv.init
  start _ := ⟨rfl, rfl, rfl⟩
  msgEvt h := by cases h
  left h := absurd rfl h

lemma inHandler_loop (h : x.inHandler = true) (hpc : x.pc = .esMain) :
    ∃ st e rest, x.loop.pc = .evtcb st e rest := by
  cases hl : x.loop.pc with
  | evtcb st e rest => exact ⟨st, e, rest, rfl⟩
  | _ => simp [TaskProc.inHandler, hpc, hl] at h

/-- An operation in a callback or in the handler of `EDM_CLOSE`. -/
lemma handler (hI : ProcInv L x) (hin : x.inHandler = true) (hk : Kept L x.mEdMsgEvt x.loop s)
    (timers : List (UInt32 × ObjId)) :
    ProcInv L { x with loop := s, mTimerMap := timers } where
  wf := hk.keeps.wf
  owned := hk.keeps.owned
  books := hk.books
  inLoop hpc := by
    obtain ⟨st, e, rest, hcb⟩ := inHandler_loop hin hpc
    exact (hI.inLoop hpc).user hcb hk.keeps
  start hpc := by
    have hpc : x.loop.pc = .start := hk.keeps.pc ▸ hpc
    obtain ⟨st, e, rest, hcb⟩ := inHandler_loop hin (hI.start hpc).2.1
    rw [hpc] at hcb
    cases hcb
  msgEvt := hI.msgEvt
  left := hI.left

/-- A step of `esMain` that leaves the events alone. -/
lemma move (hI : ProcInv L x) (hpc : x.pc = .esMain) (hs : Inv L s) (hne : s.pc ≠ .start)
    (hb : Books x.mEdMsgEvt s) : ProcInv L { x with loop := s } where
  wf := hs.wf
  owned := hs.owned
  books := hb
  inLoop _ := hs
  start h := absurd h hne
  msgEvt := hI.msgEvt
  left h := absurd hpc h

lemma start_step {a : Addr} {fd : Int} {added : Bool} {p : Option Addr × Registry}
    (hI : ProcInv L x) (hpc : x.loop.pc = .start) (hc : x.loop.canRegister a fd added)
    (hp : x.loop.reg.regEdEvent L a fd .task added = some p) :
    ProcInv L { x with
      loop := { x.loop with reg := p.2, pc := .epoll_wait }
      mEdMsgEvt := p.1 } := by
  obtain ⟨hexit, hmain, hempty⟩ := hI.start hpc
  have hinv := (hI.inLoop hmain).start hpc hc hp
  refine ⟨hinv.wf, hinv.owned, ?_, fun _ => hinv, ?_, ?_, fun h => absurd hmain h⟩
  · have hreg := hI.books.isReg
    cases added with
    | false =>
      rw [Registry.regEdEvent_refused hc.1] at hp
      cases hp
      refine ⟨?_, hreg, ?_, ?_⟩ <;> simp [hempty, Registry.refused, Registry.empty]
    | true =>
      rw [Registry.regEdEvent_added] at hp
      cases hp
      refine ⟨fun b e hb _ => ?_, hreg, fun b hb => ?_, ?_⟩
      · rcases update_some_iff.mp hb with ⟨rfl, -⟩ | ⟨-, hb⟩
        · exact .inl rfl
        · simp [hempty, Registry.empty] at hb
      · obtain rfl := Option.some.inj hb
        exact ⟨_, update_some_iff.mpr (.inl ⟨rfl, rfl⟩), rfl, rfl⟩
      · simp [hempty, Registry.added, Registry.empty]
  · intro h
    cases h
  · intro h
    rw [show x.exit_flag = true from h] at hexit
    cases hexit

/-- A step of `esMain` leaves the events alone, except in its clean-up. -/
lemma esMain_cases {s t : State} (hs : s.esMain L = some t) :
    (t.reg = s.reg ∧ t.objs = s.objs ∧ t.pc ≠ .start) ∨
      ∃ n r, s.reg.cleanUpEventResource L n = some r ∧
        t = { s with reg := r, pc := .epoll_wait } := by
  unfold State.esMain at hs
  split at hs
  · split at hs <;> cases hs
    · exact .inl ⟨rfl, rfl, by simp⟩
    · refine .inl ⟨rfl, rfl, ?_⟩
      simp only
      split <;> simp
  · rename_i st e rest hpc
    split at hs
    · cases hs
      exact .inl ⟨rfl, rfl, by simp⟩
    split at hs
    · cases hs
      exact .inl ⟨rfl, rfl, (inBatch_nextEntry rest).1.1⟩
    split at hs <;> cases hs
    · exact .inl ⟨rfl, rfl, by simp⟩
    · exact .inl ⟨rfl, rfl, (inBatch_nextStage st e rest).1.1⟩
  · split at hs
    · cases hs
      exact .inl ⟨rfl, rfl, by simp⟩
    · rename_i r hr
      cases hs
      exact .inr ⟨_, r, hr, rfl⟩
  · cases hs

lemma esMain (hI : ProcInv L x) (hpc : x.pc = .esMain) (hs : x.loop.esMain L = some s) :
    ProcInv L { x with loop := s } := by
  have hinv := (hI.inLoop hpc).esMain hs
  rcases esMain_cases hs with ⟨hreg, hobjs, hne⟩ | ⟨n, r, hr, rfl⟩
  · refine hI.move hpc hinv hne ?_
    constructor
    · rw [hreg, hobjs]
      exact hI.books.held
    · rw [hobjs]
      exact hI.books.isReg
    · rw [hreg]
      exact hI.books.msg
    · rw [hreg]
      exact hI.books.count
  · refine hI.move hpc hinv (by simp) ?_
    obtain ⟨hheap, hkeep, hevt, hcount, -⟩ := cleanUpEventResource_count hI.wf hr
    refine ⟨fun a e ha hreg => hI.books.held a e (hheap a e ha) hreg, hI.books.isReg,
      fun a ha => ?_, ?_⟩
    · obtain ⟨e, he, hreg, huser⟩ := hI.books.msg a ha
      exact ⟨e, hkeep a e hreg he, hreg, huser⟩
    · have hbooks := hI.books.count
      simp only [hevt]
      omega

theorem step {a : ProcAction} (hI : ProcInv L x) (hs : x.step L a = some y) : ProcInv L y := by
  cases a with
  | start a fd added =>
    simp only [TaskProc.step, Option.ite_none_right_eq_some, Option.map_eq_some_iff] at hs
    obtain ⟨⟨-, hpc, hc⟩, p, hp, rfl⟩ := hs
    exact hI.start_step hpc hc hp
  | epoll_wait fds =>
    simp only [TaskProc.step, Option.ite_none_right_eq_some, Option.map_eq_some_iff] at hs
    obtain ⟨⟨hpc, -⟩, s, hs, rfl⟩ := hs
    have hinv := (hI.inLoop hpc).step hs
    simp only [State.step, Option.ite_none_right_eq_some, Option.map_eq_some_iff] at hs
    obtain ⟨-, es, -, rfl⟩ := hs
    exact hI.move hpc hinv (inBatch_nextEntry es).1.1
      ⟨hI.books.held, hI.books.isReg, hI.books.msg, hI.books.count⟩
  | esMain =>
    simp only [TaskProc.step, Option.ite_none_right_eq_some, Option.map_eq_some_iff] at hs
    obtain ⟨hpc, s, hs, rfl⟩ := hs
    exact hI.esMain hpc hs
  | evtcbReturn =>
    simp only [TaskProc.step, Option.ite_none_right_eq_some, Option.map_eq_some_iff] at hs
    obtain ⟨hpc, s, hs, rfl⟩ := hs
    have hinv := (hI.inLoop hpc).step hs
    simp only [State.step] at hs
    split at hs
    · rename_i st e rest hcb
      cases hs
      exact hI.move hpc hinv (inBatch_nextStage st e rest).1.1
        ⟨hI.books.held, hI.books.isReg, hI.books.msg, hI.books.count⟩
    · cases hs
  | exitMsg =>
    simp only [TaskProc.step] at hs
    split at hs
    · rename_i st e rest hcb
      simp only [Option.ite_none_right_eq_some, Option.some.injEq] at hs
      obtain ⟨hevt, rfl⟩ := hs
      refine ⟨hI.wf, hI.owned, hI.books, hI.inLoop, fun hpc => ?_, fun _ => ?_, fun _ => rfl⟩
      · rw [show x.loop.pc = .start from hpc] at hcb
        cases hcb
      · simp [hevt]
    · cases hs
  | leaveLoop =>
    simp only [TaskProc.step, Option.ite_none_right_eq_some, Option.some.injEq] at hs
    obtain ⟨⟨-, hpc, hexit⟩, rfl⟩ := hs
    refine ⟨hI.wf, hI.owned, hI.books, fun h => ?_, fun h => ?_, hI.msgEvt, fun _ => hexit⟩
    · cases h
    · rw [show x.loop.pc = .start from h] at hpc
      cases hpc
  | user act =>
    simp only [TaskProc.step, Option.ite_none_right_eq_some, Option.map_eq_some_iff] at hs
    obtain ⟨⟨hin, -⟩, s, hs, rfl⟩ := hs
    exact hI.handler hin (.op hI.wf hI.owned hI.books hs) x.mTimerMap
  | setTimer id t fd a added =>
    simp only [TaskProc.step, Option.ite_none_right_eq_some, TaskProc.setTimer] at hs
    obtain ⟨hin, hs⟩ := hs
    split at hs
    · obtain ⟨s, hset, rfl⟩ := Option.map_eq_some_iff.mp hs
      exact hI.handler hin (.setUsec hI.wf hI.owned hI.books hset) x.mTimerMap
    · simp only [Option.ite_none_right_eq_some, Option.map_eq_some_iff] at hs
      obtain ⟨-, s, hs, rfl⟩ := hs
      exact hI.handler hin (.setUsec hI.wf hI.owned hI.books hs) _
  | killTimer id =>
    simp only [TaskProc.step, Option.ite_none_right_eq_some, TaskProc.killTimer] at hs
    obtain ⟨hin, hs⟩ := hs
    split at hs
    · rename_i p hp
      obtain ⟨s, hdel, rfl⟩ := Option.map_eq_some_iff.mp hs
      obtain ⟨t, ht, hk⟩ := Kept.dispose (L := L) hI.wf hI.owned hI.books p
      obtain rfl := Option.some.inj (hdel.symm.trans ht)
      exact hI.handler hin hk _
    · cases hs
      exact hI
  | handlerReturn =>
    simp only [TaskProc.step, Option.ite_none_right_eq_some, Option.some.injEq] at hs
    obtain ⟨hpc, rfl⟩ := hs
    refine ⟨hI.wf, hI.owned, hI.books, fun h => ?_, fun h => ?_, hI.msgEvt, fun _ => ?_⟩
    · cases h
    · rw [(hI.start h).2.1] at hpc
      cases hpc
    · exact hI.left (by simp [hpc])

end ProcInv

theorem reachable_proc {L : Layout} {x : TaskProc} (hr : (taskProc L).Reachable x) :
    ProcInv L x :=
  hr.invariant (fun _ h0 => h0 ▸ ProcInv.init) (fun _ _ _ _ hI _ hs => hI.step hs)

section Idle

variable {L : Layout} {s t u : State}

/-- No object of `t` has an event, and the events are those of `s`. -/
structure Idle (s t : State) : Prop where
  mEvt : ∀ o, (t.objs o).mEvt = none
  heap : t.reg.heap = s.reg.heap
  count : t.reg.evt_alloc_cnt = s.reg.evt_alloc_cnt

lemma Idle.setObj (h : Idle s t) {o : ObjId} {x : EdEvent} (hx : x.mEvt = none) :
    Idle s (t.setObj o x) where
  mEvt o' := by
    by_cases hoo : o' = o
    · simp [State.setObj, hoo, hx]
    · simpa [State.setObj, hoo] using h.mEvt o'
  heap := h.heap
  count := h.count

lemma Idle.deregisterEvent (h : Idle s t) (o : ObjId) :
    ∃ u, t.deregisterEvent L o = some u ∧ Idle s u := by
  unfold State.deregisterEvent
  simp only [h.mEvt o]
  split
  · exact ⟨t, rfl, h⟩
  · exact ⟨_, rfl, h.setObj rfl⟩

lemma Idle.close (h : Idle s t) (o : ObjId) : ∃ u, t.close L o = some u ∧ Idle s u := by
  unfold State.close
  simp only
  split
  · obtain ⟨u, hu, hidle⟩ := h.deregisterEvent (L := L) o
    rw [hu]
    have hclose : Idle s { u with reg := u.reg.sysClose (t.objs o).mFd } :=
      ⟨hidle.mEvt, hidle.heap, hidle.count⟩
    exact ⟨_, rfl, hclose.setObj (hidle.mEvt o)⟩
  · exact ⟨t, rfl, h⟩

lemma Idle.destroy (h : Idle s t) (o : ObjId) : ∃ u, t.destroy L o = some u ∧ Idle s u := by
  simp only [State.destroy, h.mEvt o]
  exact ⟨_, rfl, h.setObj rfl⟩

/-- Timers without an event are deleted without a trace. -/
lemma Idle.killAll (h : Idle s t) (order : List ObjId) :
    ∃ u, TaskProc.killAll L order t = some u ∧ Idle s u := by
  induction order generalizing t with
  | nil => exact ⟨t, rfl, h⟩
  | cons pt rest ih =>
    obtain ⟨t₁, h₁, hi₁⟩ := h.close (L := L) pt
    obtain ⟨t₂, h₂, hi₂⟩ := hi₁.close (L := L) pt
    obtain ⟨t₃, h₃, hi₃⟩ := hi₂.destroy (L := L) pt
    obtain ⟨u, hu, hi⟩ := ih hi₃
    refine ⟨u, ?_, hi⟩
    simp [TaskProc.killAll, State.kill, State.delete, h₁, h₂, h₃, hu]

end Idle

section End

variable {L : Layout} {x : TaskProc} {s : State} {a : Addr} {order : List ObjId}

/-- The event of the message eventfd is given up. -/
lemma Books.retired {e : Edevt} (h : Books (some a) s) (hw : Wf L s.reg)
    (he : s.reg.heap a = some e) (hr : e.isReg = true) :
    Books none { s with reg := s.reg.retired L a e } where
  held b p hb hp := by
    rcases update_some_iff.mp hb with ⟨-, rfl⟩ | ⟨hba, hb⟩
    · simp at hp
    · rcases h.held b p hb hp with hm | ho
      · exact absurd (Option.some.inj hm).symm hba
      · exact .inr ho
  isReg := h.isReg
  msg b hb := by cases hb
  count := Registry.evt_alloc_cnt_retired h.count (hw.mem_mEvtList_iff.mpr ⟨e, he, hr⟩)

/-- What `edEventLoop` finds at its leak check: the events of the objects. -/
lemma leakCheck (hI : ProcInv L x) (hm : x.mEdMsgEvt ≠ none) :
    ∃ r, x.edEventLoop L = (if 0 < toI32 (r.lists .mEvtList).length then none
        else some { x with loop := { x.loop with reg := r } }) ∧
      Wf L r ∧ r.lists .mDummyEvtList = [] ∧ Owned { x.loop with reg := r } ∧
      Books none { x.loop with reg := r } := by
  obtain ⟨a, ha⟩ := Option.ne_none_iff_exists'.mp hm
  obtain ⟨e, he, hr, huser⟩ := hI.books.msg a ha
  have hbooks := hI.books
  rw [ha] at hbooks
  have hbooks := hbooks.retired hI.wf he hr
  have hw := hI.wf.retired he hr
  obtain ⟨r, hclean, hwr, hdummy, -⟩ := hw.cleanUpEventResource (Nat.lt_succ_self _)
  obtain ⟨hheap, hkeep, hevt, hcount, -⟩ := cleanUpEventResource_count hw hclean
  refine ⟨r, ?_, hwr, hdummy, ?_, ⟨fun b p hb hp => hbooks.held b p (hheap b p hb) hp,
    hbooks.isReg, by simp, ?_⟩⟩
  · unfold TaskProc.edEventLoop
    rw [ha, Option.bind_some, Registry.deregEdEvent_eq hI.wf he hr, Option.bind_some, hclean,
      Option.bind_some]
  · intro o b hb
    obtain ⟨p, hp, hpr, hpu⟩ := hI.owned o b hb
    have hba : b ≠ a := by
      rintro rfl
      rw [he] at hp
      cases hp
      rw [huser] at hpu
      cases hpu
    exact ⟨p, hkeep b p hpr (update_some_iff.mpr (.inr ⟨hba, hp⟩)), hpr, hpu⟩
  · have hold := hbooks.count
    simp only [hdummy, hevt, List.length_nil] at hcount hold ⊢
    omega

/-- Without events on `mDummyEvtList`, an allocated event is held by an object. -/
lemma heap_held (hw : Wf L s.reg) (hd : s.reg.lists .mDummyEvtList = []) (hb : Books none s)
    {e : Edevt} (ha : s.reg.heap a = some e) : ∃ o, (s.objs o).mEvt = some a := by
  rcases hb.held a e ha (hw.isReg_of_nil hd ha) with hm | ho
  · cases hm
  · exact ho

/-- With no event in an object nothing is allocated. -/
lemma heap_empty (hw : Wf L s.reg) (hd : s.reg.lists .mDummyEvtList = []) (hb : Books none s)
    (hnone : ∀ o, (s.objs o).mEvt = none) :
    (∀ a, s.reg.heap a = none) ∧ s.reg.lists .mEvtList = [] := by
  have hheap : ∀ a, s.reg.heap a = none := by
    intro a
    by_contra ha
    obtain ⟨e, he⟩ := Option.ne_none_iff_exists'.mp ha
    obtain ⟨o, ho⟩ := heap_held hw hd hb he
    rw [hnone o] at ho
    cases ho
  refine ⟨hheap, ?_⟩
  apply List.eq_nil_iff_forall_not_mem.mpr
  intro a
  exact hw.not_mem (hheap a) _

/-- A task whose user objects are closed ends with all events freed exactly if no task timer
has an event when the handler of `EDM_CLOSE` returns. -/
theorem clean_shutdown_iff (hr : (taskProc L).Reachable x) (hpc : x.pc = .closed)
    (huser : UserClosed x) (order : List ObjId) :
    (∃ y, x.taskProcEnd L order = some y ∧ Released y.loop.reg) ↔
      ∀ t ∈ x.timers, (x.loop.objs t).mEvt = none := by
  have hI := reachable_proc hr
  have hm := hI.msgEvt (hI.left (by simp [hpc]))
  obtain ⟨r, hloop, hw, hdummy, howned, hbooks⟩ := leakCheck hI hm
  constructor
  · rintro ⟨y, hy, hcount, hfree⟩ t -
    by_contra hevt
    obtain ⟨a, ha⟩ := Option.ne_none_iff_exists'.mp hevt
    obtain ⟨e, he, -⟩ := howned t a ha
    simp only [TaskProc.taskProcEnd, Option.map_eq_some_iff, Option.bind_eq_some_iff,
      TaskProc.cleanupAllTimer] at hy
    obtain ⟨_, ⟨x', hx', s, hs, rfl⟩, rfl⟩ := hy
    rw [hloop, Option.ite_none_left_eq_some] at hx'
    obtain ⟨-, hx'⟩ := hx'
    obtain rfl := Option.some.inj hx'
    -- what is allocated stays allocated while the timers are deleted
    obtain ⟨s', hs', hk⟩ := Kept.killAll hw howned hbooks order
    obtain rfl := Option.some.inj (hs.symm.trans hs')
    obtain ⟨p, hp, -⟩ := hk.keeps.live a e he
    have hnone : s.reg.heap a = none := hfree a
    rw [hp] at hnone
    cases hnone
  · intro htimers
    have hnone : ∀ o, (x.loop.objs o).mEvt = none := by
      intro o
      by_cases ho : o ∈ x.timers
      · exact htimers o ho
      · exact huser o ho
    obtain ⟨hheap, hevt⟩ : (∀ a, r.heap a = none) ∧ r.lists .mEvtList = [] :=
      heap_empty hw hdummy hbooks hnone
    have hidle : Idle { x.loop with reg := r } { x.loop with reg := r } := ⟨hnone, rfl, rfl⟩
    obtain ⟨s, hs, hidle⟩ := hidle.killAll (L := L) order
    refine ⟨TaskProc.esClose { x with loop := s, mTimerMap := [] }, ?_, ?_, ?_⟩
    · simp [TaskProc.taskProcEnd, hloop, hevt, toI32, TaskProc.cleanupAllTimer, hs]
    · have hcount := hbooks.count
      simp only [hevt, hdummy, List.length_nil] at hcount
      exact hidle.count.trans hcount
    · intro a
      change s.reg.heap a = none
      rw [hidle.heap]
      exact hheap a

end End

/-- A task timer is set in a callback, and `EDM_EXIT` is dispatched. -/
def pendingRun (last : List ProcAction) : List ProcAction :=
  .start 10 3 true :: .epoll_wait [(3, ⟨true, false, false, false, false⟩)] :: .esMain ::
    .esMain :: .setTimer 1 7 5 20 true :: .exitMsg :: .evtcbReturn :: .esMain :: .esMain ::
    .esMain :: .esMain :: .leaveLoop :: last

/-- The objects after writes to the timer. -/
def written (objs : ObjId → EdEvent) : List EdEvent → ObjId → EdEvent
  | [] => objs
  | x :: rest => written (Function.update objs 7 x) rest

lemma written_other {objs : ObjId → EdEvent} {xs : List EdEvent} {o : ObjId} (ho : o ≠ 7) :
    written objs xs o = objs o := by
  induction xs generalizing objs with
  | nil => rfl
  | cons x rest ih => rw [written, ih, Function.update_of_ne ho]

/-- The handler of `EDM_CLOSE` kills the timer. -/
theorem clean_shutdown_iff_killed : ∃ x, (taskProc sampleLayout).Reachable x ∧
    x.pc = .closed ∧ ∃ y, x.taskProcEnd sampleLayout [] = some y ∧ Released y.loop.reg := by
  obtain ⟨x, hr, hx⟩ := System.exists_of_exec (M := taskProc sampleLayout) (s := TaskProc.init)
    (f := fun x => (x.pc, x.timers, x.loop.objs)) rfl
    (l := pendingRun [.killTimer 1, .handlerReturn])
    (b := (.closed, [], written State.init.objs [⟨5, false, none, true⟩,
      ⟨5, true, some 20, true⟩, ⟨5, false, none, false⟩, ⟨-1, false, none, false⟩,
      .initMembers])) rfl
  simp only [Prod.mk.injEq] at hx
  obtain ⟨hpc, htimers, hobjs⟩ := hx
  refine ⟨x, hr, hpc, (clean_shutdown_iff hr hpc (fun o _ => ?_) []).mpr (by simp [htimers])⟩
  rw [hobjs]
  by_cases ho : o = 7
  · rw [ho]
    rfl
  · rw [written_other ho]
    rfl

/-- The timer is pending at the leak check. -/
theorem not_clean_shutdown : ¬ ∀ x order, (taskProc sampleLayout).Reachable x →
    x.pc = .closed → UserClosed x → order.Perm x.timers →
      ∃ y, x.taskProcEnd sampleLayout order = some y ∧ Released y.loop.reg := by
  intro h
  obtain ⟨x, hr, hx⟩ := System.exists_of_exec (M := taskProc sampleLayout) (s := TaskProc.init)
    (f := fun x => (x.pc, x.timers, (x.taskProcEnd sampleLayout [7]).isNone, x.loop.objs)) rfl
    (l := pendingRun [.handlerReturn])
    (b := (.closed, [7], true,
      written State.init.objs [⟨5, false, none, true⟩, ⟨5, true, some 20, true⟩])) rfl
  simp only [Prod.mk.injEq] at hx
  obtain ⟨hpc, htimers, hnone, hobjs⟩ := hx
  have huser : UserClosed x := by
    intro o ho
    rw [htimers, List.mem_singleton] at ho
    rw [hobjs, written_other ho]
    rfl
  obtain ⟨y, hy, -⟩ := h x [7] hr hpc huser (htimers ▸ List.Perm.refl _)
  rw [hy] at hnone
  cases hnone

end EdNio.Event
