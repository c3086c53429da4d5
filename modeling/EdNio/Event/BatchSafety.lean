import EdNio.Event.MainLoop

/-!
# Safety of an event batch

A callback changes the registry without freeing anything, and only touches events that are
registered. So the entries of a batch stay valid until its `cleanUpEventResource`.
-/

namespace EdNio.Event
open Transition

/-- The entries of the batch that `esMain` still looks at. -/
def Pc.entries : Pc → List Entry
  | .entry e rest => e :: rest
  | .check _ e rest => e :: rest
  | .evtcb _ e rest => e :: rest
  | _ => []

/-- The entries of the batch point to events that have not been freed, no call was made for
a deregistered event, and each deregistered event is freed by the clean-up of its batch,
once. -/
structure BatchSafe (s : State) : Prop where
  noFault : s.pc ≠ .fault
  entries : ∀ e ∈ s.pc.entries, ∃ p, s.reg.heap e.ptr = some p ∧ p.birth = e.birth
  calls : ∀ c ∈ s.calls, c.deregistered = false
  deferred : s.pc ≠ .epoll_wait → ∀ x ∈ s.reg.freed, x.2 < s.reg.batch
  cleaned : s.pc = .epoll_wait → ∀ x ∈ s.reg.deregistered,
    s.reg.freed.filter (fun y => y.1 = x.1) = [x]
  only : ∀ x ∈ s.reg.freed, x ∈ s.reg.deregistered

/-- An object that has an event has registered it. -/
def Owned (s : State) : Prop :=
  ∀ o a, (s.objs o).mEvt = some a →
    ∃ e, s.reg.heap a = some e ∧ e.isReg = true ∧ e.user = .obj o

/-- What the operations of a callback keep. -/
structure Keeps (L : Layout) (s t : State) : Prop where
  wf : Wf L t.reg
  owned : Owned t
  live : ∀ a e, s.reg.heap a = some e → ∃ p, t.reg.heap a = some p ∧ p.birth = e.birth
  freed : t.reg.freed = s.reg.freed
  batch : t.reg.batch = s.reg.batch
  pc : t.pc = s.pc
  calls : t.calls = s.calls

namespace Keeps

variable {L : Layout} {s t u : State} {o : ObjId} {a : Addr}

lemma refl (hw : Wf L s.reg) (ho : Owned s) : Keeps L s s :=
  ⟨hw, ho, fun _ e he => ⟨e, he, rfl⟩, rfl, rfl, rfl, rfl⟩

lemma trans (h : Keeps L s t) (h' : Keeps L t u) : Keeps L s u where
  wf := h'.wf
  owned := h'.owned
  live b e he := by
    obtain ⟨p, hp, hb⟩ := h.live b e he
    obtain ⟨q, hq, hb'⟩ := h'.live b p hp
    exact ⟨q, hq, hb'.trans hb⟩
  freed := h'.freed.trans h.freed
  batch := h'.batch.trans h.batch
  pc := h'.pc.trans h.pc
  calls := h'.calls.trans h.calls

/-- An object that gets no new event. -/
lemma setObj (h : Keeps L s t) {x : EdEvent} (hx : ∀ b, x.mEvt = some b →
    (t.objs o).mEvt = some b) : Keeps L s (t.setObj o x) where
  wf := h.wf
  owned o' b hb := by
    by_cases ho : o' = o
    · subst ho
      simp only [State.setObj, Function.update_self] at hb
      exact h.owned o' b (hx b hb)
    · simp only [State.setObj, Function.update_of_ne ho] at hb
      exact h.owned o' b hb
  live := h.live
  freed := h.freed
  batch := h.batch
  pc := h.pc
  calls := h.calls

lemma sysClose (h : Keeps L s t) (fd : Int) :
    Keeps L s { t with reg := t.reg.sysClose fd } :=
  { h with wf := h.wf.sysClose fd }

lemma registerEvent (hw : Wf L s.reg) (ho : Owned s) {added : Bool}
    (hc : s.canRegister a (s.objs o).mFd added) :
    ∃ t, s.registerEvent L o a added = some t ∧ Keeps L s t := by
  obtain ⟨ha, hadd⟩ := hc
  unfold State.registerEvent
  simp only
  split
  · exact ⟨s, rfl, refl hw ho⟩
  split
  · rename_i hnone
    cases added with
    | false =>
      rw [Registry.regEdEvent_refused ha]
      refine ⟨_, rfl, ?_⟩
      apply setObj (t := { s with reg := s.reg.refused })
      · exact { refl hw ho with wf := hw.refused }
      · simp
    | true =>
      rw [Registry.regEdEvent_added]
      refine ⟨_, rfl, hw.added ha (hadd rfl).1, ?_, ?_, rfl, rfl, rfl, rfl⟩
      · intro o' b hb
        by_cases hoo : o' = o
        · subst hoo
          simp only [State.setObj, Function.update_self, Option.some.injEq] at hb
          subst hb
          exact ⟨_, Function.update_self _ _ _, rfl, rfl⟩
        · simp only [State.setObj, Function.update_of_ne hoo] at hb
          obtain ⟨e, he, hp⟩ := ho o' b hb
          have hba : b ≠ a := by
            rintro rfl
            simp [ha] at he
          exact ⟨e, by simpa [State.setObj, Registry.added, Function.update_of_ne hba] using he, hp⟩
      · intro b e he
        have hba : b ≠ a := by
          rintro rfl
          simp [ha] at he
        exact ⟨e, by simpa [State.setObj, Registry.added, Function.update_of_ne hba] using he, rfl⟩
  · exact ⟨s, rfl, refl hw ho⟩

lemma deregisterEvent (hw : Wf L s.reg) (ho : Owned s) (o : ObjId) :
    ∃ t, s.deregisterEvent L o = some t ∧ Keeps L s t := by
  unfold State.deregisterEvent
  simp only
  split
  · exact ⟨s, rfl, refl hw ho⟩
  split
  · rename_i b hb
    obtain ⟨e, he, hr, hu⟩ := ho o b hb
    rw [Registry.deregEdEvent_eq hw he hr]
    refine ⟨_, rfl, hw.retired he hr, ?_, ?_, rfl, rfl, rfl, rfl⟩
    · intro o' c hc
      by_cases hoo : o' = o
      · subst hoo
        simp [State.setObj] at hc
      · simp only [State.setObj, Function.update_of_ne hoo] at hc
        obtain ⟨p, hp, hpr, hpu⟩ := ho o' c hc
        have hcb : c ≠ b := by
          rintro rfl
          rw [he] at hp
          cases hp
          rw [hu] at hpu
          cases hpu
          exact hoo rfl
        exact ⟨p, by simpa [State.setObj, Registry.retired, Function.update_of_ne hcb] using hp,
          hpr, hpu⟩
    · intro c p hp
      by_cases hcb : c = b
      · subst hcb
        rw [he] at hp
        cases hp
        exact ⟨_, Function.update_self _ _ _, rfl⟩
      · exact ⟨p, by simpa [State.setObj, Registry.retired, Function.update_of_ne hcb] using hp,
          rfl⟩
  · exact ⟨_, rfl, (refl hw ho).setObj (by simp [*])⟩

lemma changeEvent (hw : Wf L s.reg) (ho : Owned s) {added : Bool}
    (hc : s.canRegister a (s.objs o).mFd added) :
    ∃ t, s.changeEvent L o a added = some t ∧ Keeps L s t := by
  unfold State.changeEvent
  split
  · rename_i b hb
    obtain ⟨e, he, hr, -⟩ := ho o b hb
    obtain ⟨r, hr, hw', hheap, hdereg, hfreed, hbatch⟩ := hw.changeEdEvent he hr
    rw [hr]
    refine ⟨_, rfl, hw', ?_, ?_, hfreed, hbatch, rfl, rfl⟩
    · intro o' c hoc
      simpa [hheap] using ho o' c hoc
    · intro c p hp
      exact ⟨p, by simpa [hheap] using hp, rfl⟩
  · exact registerEvent hw ho hc

lemma close (hw : Wf L s.reg) (ho : Owned s) (o : ObjId) :
    ∃ t, s.close L o = some t ∧ Keeps L s t := by
  unfold State.close
  simp only
  split
  · obtain ⟨t, ht, hk⟩ := deregisterEvent hw ho o
    rw [ht]
    exact ⟨_, rfl, (hk.sysClose _).setObj (fun _ hb => hb)⟩
  · exact ⟨s, rfl, refl hw ho⟩

lemma destroy (hw : Wf L s.reg) (ho : Owned s) (o : ObjId) :
    ∃ t, s.destroy L o = some t ∧ Keeps L s t := by
  unfold State.destroy
  simp only
  split
  · obtain ⟨t, ht, hk⟩ := deregisterEvent hw ho o
    rw [ht]
    exact ⟨_, rfl, hk.setObj (by simp [EdEvent.initMembers])⟩
  · exact ⟨_, rfl, (refl hw ho).setObj (by simp [EdEvent.initMembers])⟩

end Keeps

structure Inv (L : Layout) (s : State) : Prop where
  wf : Wf L s.reg
  owned : Owned s
  noFault : s.pc ≠ .fault
  entries : ∀ e ∈ s.pc.entries, ∃ p, s.reg.heap e.ptr = some p ∧ p.birth = e.birth
  calls : ∀ c ∈ s.calls, c.deregistered = false
  outside : s.pc = .start ∨ s.pc = .epoll_wait → s.reg.lists .mDummyEvtList = []
  deferred : s.pc ≠ .epoll_wait → ∀ x ∈ s.reg.freed, x.2 < s.reg.batch

/-- Between `epoll_wait` and the end of the clean-up. -/
def Pc.inBatch (p : Pc) : Prop :=
  p ≠ .start ∧ p ≠ .epoll_wait ∧ p ≠ .fault

lemma inBatch_nextEntry (rest : List Entry) :
    (State.nextEntry rest).inBatch ∧ (State.nextEntry rest).entries = rest := by
  cases rest <;> simp [State.nextEntry, Pc.inBatch, Pc.entries]

lemma inBatch_nextStage (st : Stage) (e : Entry) (rest : List Entry) :
    (State.nextStage st e rest).inBatch ∧ (State.nextStage st e rest).entries ⊆ e :: rest := by
  cases st with
  | release =>
    obtain ⟨hb, he⟩ := inBatch_nextEntry rest
    refine ⟨hb, ?_⟩
    rw [State.nextStage, Stage.next, he]
    exact List.subset_cons_self e rest
  | EVT_READ | EVT_HANGUP | EVT_WRITE =>
    simp [State.nextStage, Stage.next, Pc.inBatch, Pc.entries]

lemma report_entries {s : State} {fds : List (Int × Events)} {es : List Entry}
    (h : fds.mapM s.report = some es) : ∀ e ∈ es, ∃ fd, s.report fd = some e := by
  induction fds generalizing es with
  | nil =>
    simp only [List.mapM_nil, Option.pure_def, Option.some.injEq] at h
    simp [← h]
  | cons fd fds ih =>
    simp only [List.mapM_cons, Option.pure_def, Option.bind_eq_bind, Option.bind_eq_some_iff,
      Option.some.injEq] at h
    obtain ⟨e, he, es', hes, rfl⟩ := h
    intro e' he'
    rcases List.mem_cons.mp he' with rfl | he'
    · exact ⟨fd, he⟩
    · exact ih hes e' he'

/-- Without events that wait to be freed, the next batch can begin. -/
lemma Wf.nextBatch {L : Layout} {r : Registry} (h : Wf L r)
    (hl : r.lists .mDummyEvtList = []) : Wf L { r with batch := r.batch + 1 } :=
  { h with
    live := by
      intro a e ha n
      have hreg := h.isReg_of_nil hl ha
      have hlive := h.live a e ha n
      simpa [hreg] using hlive
    old := fun x hx => (h.old x hx).imp_right Nat.le_succ_of_le }

lemma filter_once {l : List (Nat × Nat)} {x : Nat × Nat} (hx : x ∈ l)
    (hn : (l.map Prod.fst).Nodup) : l.filter (fun y => y.1 = x.1) = [x] := by
  induction l with
  | nil => simp at hx
  | cons y l ih =>
    simp only [List.map_cons, List.nodup_cons, List.mem_map, not_exists, not_and] at hn
    rcases List.mem_cons.mp hx with rfl | hx
    · have hnone : l.filter (fun y => y.1 = x.1) = [] := by
        apply List.filter_eq_nil_iff.mpr
        intro z hz
        simpa using hn.1 z hz
      simp [hnone]
    · have hne : y.1 ≠ x.1 := fun heq => hn.1 x hx heq.symm
      simp [hne, ih hx hn.2]

namespace Inv

variable {L : Layout} {s t : State}

lemma init : Inv L State.init := by
  constructor
  case wf => exact Wf.empty
  all_goals simp [State.init, Owned, EdEvent.initMembers, Pc.entries, Registry.empty]

/-- `esMain` moves on within the batch. -/
lemma move (h : Inv L s) (hs : s.pc ≠ .epoll_wait) {p : Pc} (hp : p.inBatch)
    (he : p.entries ⊆ s.pc.entries) : Inv L { s with pc := p } where
  wf := h.wf
  owned := h.owned
  noFault := hp.2.2
  entries e hin := h.entries e (he hin)
  calls := h.calls
  outside hout := absurd hout (not_or.mpr ⟨hp.1, hp.2.1⟩)
  deferred _ := h.deferred hs

lemma user {st : Stage} {e : Entry} {rest : List Entry} (h : Inv L s)
    (hpc : s.pc = .evtcb st e rest) (hk : Keeps L s t) : Inv L t where
  wf := hk.wf
  owned := hk.owned
  noFault := by simp [hk.pc, hpc]
  entries e hin := by
    rw [hk.pc] at hin
    obtain ⟨p, hp, hb⟩ := h.entries e hin
    obtain ⟨q, hq, hb'⟩ := hk.live _ p hp
    exact ⟨q, hq, hb'.trans hb⟩
  calls := hk.calls ▸ h.calls
  outside hout := by simp [hk.pc, hpc] at hout
  deferred _ := by
    rw [hk.freed, hk.batch]
    exact h.deferred (by simp [hpc])

lemma userStep {s? : Option State} (h : Inv L s) (hk : ∃ u, s? = some u ∧ Keeps L s u)
    (hs : s.user s? = some t) : Inv L t := by
  obtain ⟨u, rfl, hk⟩ := hk
  unfold State.user at hs
  split at hs
  · rename_i hpc
    cases hs
    exact h.user hpc hk
  · simp at hs

lemma start {a : Addr} {fd : Int} {added : Bool} (h : Inv L s) (hpc : s.pc = .start)
    (hc : s.canRegister a fd added) {x : Option Addr × Registry}
    (hr : s.reg.regEdEvent L a fd .task added = some x) :
    Inv L { s with reg := x.2, pc := .epoll_wait } := by
  have hdummy := h.outside (.inl hpc)
  cases added with
  | false =>
    rw [Registry.regEdEvent_refused hc.1, Option.some.injEq] at hr
    subst hr
    constructor
    case wf => exact h.wf.refused
    case owned => exact h.owned
    case calls => exact h.calls
    case outside => exact fun _ => hdummy
    all_goals simp [Pc.entries]
  | true =>
    rw [Registry.regEdEvent_added, Option.some.injEq] at hr
    subst hr
    constructor
    case wf => exact h.wf.added hc.1 (hc.2 rfl).1
    case owned =>
      intro o b hb
      obtain ⟨e, he, hp⟩ := h.owned o b hb
      have hba : b ≠ a := by
        rintro rfl
        simp [hc.1] at he
      exact ⟨e, by simpa [Registry.added, Function.update_of_ne hba] using he, hp⟩
    case calls => exact h.calls
    case outside => simp [Registry.added, hdummy]
    all_goals simp [Pc.entries]

lemma epoll_wait {fds : List (Int × Events)} {es : List Entry} (h : Inv L s)
    (hpc : s.pc = .epoll_wait) (hes : fds.mapM s.report = some es) :
    Inv L { s with
      reg := { s.reg with batch := s.reg.batch + 1 }
      pc := State.nextEntry es } := by
  obtain ⟨hb, hent⟩ := inBatch_nextEntry es
  constructor
  case wf => exact h.wf.nextBatch (h.outside (.inr hpc))
  case owned => exact h.owned
  case noFault => exact hb.2.2
  case entries =>
    intro e he
    rw [hent] at he
    obtain ⟨fd, hfd⟩ := report_entries hes e he
    simp only [State.report, Option.map_eq_some_iff] at hfd
    obtain ⟨a, ha, rfl⟩ := hfd
    obtain ⟨p, hp, -⟩ := h.wf.interest _ a ha
    exact ⟨p, hp, by simp [hp]⟩
  case calls => exact h.calls
  case outside => exact fun hout => absurd hout (not_or.mpr ⟨hb.1, hb.2.1⟩)
  case deferred =>
    intro _ x hx
    exact Nat.lt_succ_of_le (h.wf.old x (h.wf.freed x hx)).2

lemma cleanUp {r : Registry} (h : Inv L s)
    (hr : s.reg.cleanUpEventResource L ((s.reg.lists .mDummyEvtList).length + 1) = some r) :
    Inv L { s with reg := r, pc := .epoll_wait } := by
  obtain ⟨t, ht, hw, hempty, -, -, hkeep⟩ := h.wf.cleanUpEventResource (Nat.lt_succ_self _)
  rw [ht, Option.some.injEq] at hr
  subst hr
  constructor
  case wf => exact hw
  case owned =>
    intro o a ha
    obtain ⟨e, he, hp⟩ := h.owned o a ha
    exact ⟨e, hkeep a e hp.1 he, hp⟩
  case calls => exact h.calls
  case outside => exact fun _ => hempty
  all_goals simp [Pc.entries]

/-- No event that is registered has been deregistered. -/
lemma not_deregistered (h : Inv L s) {a : Addr} {p : Edevt} (ha : s.reg.heap a = some p)
    (hr : p.isReg = true) : s.reg.deregistered.any (fun x => x.1 = p.birth) = false := by
  apply List.any_eq_false.mpr
  intro x hx
  simp only [decide_eq_true_eq]
  intro hbirth
  have hwaits := (h.wf.waits ha hx hbirth.symm).1
  simp [hr] at hwaits

lemma esMain (h : Inv L s) (hs : s.esMain L = some t) : Inv L t := by
  unfold State.esMain at hs
  split at hs
  · rename_i e rest hpc
    obtain ⟨p, hp, -⟩ := h.entries e (by simp [hpc, Pc.entries])
    have hfd : p.fd ≠ 0 := Int.ne_of_gt (h.wf.fd _ p hp)
    simp only [hp, hfd, if_false, Option.some.injEq] at hs
    subst hs
    apply h.move (by simp [hpc])
    · simp [Pc.inBatch]
    · simp [hpc, Pc.entries]
  · rename_i st e rest hpc
    obtain ⟨p, hp, -⟩ := h.entries e (by simp [hpc, Pc.entries])
    simp only [hp] at hs
    split at hs
    · cases hs
      obtain ⟨hb, he⟩ := inBatch_nextEntry rest
      apply h.move (by simp [hpc]) hb
      rw [he, hpc]
      exact List.subset_cons_self e rest
    split at hs
    · rename_i hreg _
      cases hs
      have hm : Inv L { s with pc := .evtcb st e rest } := by
        apply h.move (by simp [hpc])
        · simp [Pc.inBatch]
        · simp [hpc, Pc.entries]
      refine { hm with calls := ?_ }
      intro c hc
      rcases List.mem_append.mp hc with hc | hc
      · exact h.calls c hc
      · rw [List.mem_singleton.mp hc]
        exact h.not_deregistered hp (by simpa using hreg)
    · cases hs
      obtain ⟨hb, he⟩ := inBatch_nextStage st e rest
      apply h.move (by simp [hpc]) hb
      simpa only [hpc, Pc.entries] using he
  · obtain ⟨r, hr, -⟩ := h.wf.cleanUpEventResource (Nat.lt_succ_self _)
    simp only [hr, Option.some.injEq] at hs
    subst hs
    exact h.cleanUp hr
  · simp at hs

lemma step {a : Action} (h : Inv L s) (hs : s.step L a = some t) : Inv L t := by
  cases a with
  | start b fd added =>
    simp only [State.step, Option.ite_none_right_eq_some, Option.map_eq_some_iff] at hs
    obtain ⟨⟨hpc, hc⟩, x, hx, rfl⟩ := hs
    exact h.start hpc hc hx
  | epoll_wait fds =>
    simp only [State.step, Option.ite_none_right_eq_some, Option.map_eq_some_iff] at hs
    obtain ⟨hpc, es, hes, rfl⟩ := hs
    exact h.epoll_wait hpc hes
  | esMain => exact h.esMain hs
  | evtcbReturn =>
    simp only [State.step] at hs
    split at hs
    · rename_i st e rest hpc
      cases hs
      obtain ⟨hb, he⟩ := inBatch_nextStage st e rest
      apply h.move (by simp [hpc]) hb
      simpa only [hpc, Pc.entries] using he
    · simp at hs
  | setFd o fd =>
    simp only [State.step, Option.ite_none_right_eq_some] at hs
    exact h.userStep ⟨s.setFd o fd, rfl, (Keeps.refl h.wf h.owned).setObj (fun _ hb => hb)⟩ hs.2
  | registerEvent o b added =>
    simp only [State.step, Option.ite_none_right_eq_some] at hs
    exact h.userStep (Keeps.registerEvent h.wf h.owned hs.1.2) hs.2
  | changeEvent o b added =>
    simp only [State.step, Option.ite_none_right_eq_some] at hs
    exact h.userStep (Keeps.changeEvent h.wf h.owned hs.1.2) hs.2
  | deregisterEvent o => exact h.userStep (Keeps.deregisterEvent h.wf h.owned o) hs
  | close o => exact h.userStep (Keeps.close h.wf h.owned o) hs
  | destroy o => exact h.userStep (Keeps.destroy h.wf h.owned o) hs
  | sysClose fd =>
    exact h.userStep ⟨_, rfl, (Keeps.refl h.wf h.owned).sysClose fd⟩ hs

lemma batchSafe (h : Inv L s) : BatchSafe s where
  noFault := h.noFault
  entries := h.entries
  calls := h.calls
  deferred := h.deferred
  cleaned hpc x hx := by
    apply filter_once _ h.wf.once
    rcases h.wf.accounted x hx with hf | ⟨a, e, ha, hbirth⟩
    · exact hf
    · have hin := h.wf.mem_mDummyEvtList_iff.mpr ⟨e, ha, (h.wf.waits ha hx hbirth).1⟩
      simp [h.outside (.inr hpc)] at hin
  only := h.wf.freed

end Inv

/-- In every run of the main loop, whatever the callbacks do. -/
theorem batch_safe (L : Layout) {s : State} (h : (mainLoop L).Reachable s) : BatchSafe s := by
  have hI : Inv L s := h.invariant (fun _ h0 => h0 ▸ Inv.init) (fun _ _ _ _ hI _ hs => hI.step hs)
  exact hI.batchSafe

def sampleLayout : Layout where
  addr
    | .mEvtList => 4096
    | .mDummyEvtList => 4160

/-- Two objects are registered; in the next batch the first one closes itself and the other,
whose entry comes later, and is opened again. -/
def closingRun : List Action :=
  [.start 10 3 true, .epoll_wait [(3, ⟨true, false, false, false, false⟩)], .esMain, .esMain,
    .setFd 0 5, .registerEvent 0 20 true, .setFd 1 6, .registerEvent 1 21 true, .evtcbReturn,
    .esMain, .esMain, .esMain, .esMain,
    .epoll_wait [(5, ⟨true, true, false, false, false⟩), (6, ⟨true, false, false, false, false⟩)],
    .esMain, .esMain, .close 0, .close 1, .setFd 0 5, .registerEvent 0 22 true, .evtcbReturn,
    .esMain, .esMain, .esMain, .esMain]

theorem batch_safe_closingRun : ∃ s, (mainLoop sampleLayout).Reachable s ∧
    s.reg.deregistered = [(1, 2), (2, 2)] ∧
      s.reg.freed.filter (fun y => y.1 = 1) = [(1, 2)] ∧
      s.reg.freed.filter (fun y => y.1 = 2) = [(2, 2)] := by
  obtain ⟨s, hr, hs⟩ := System.exists_of_exec (M := mainLoop sampleLayout) rfl
    (show ((mainLoop sampleLayout).exec State.init closingRun).map
      (fun s => (s.pc, s.reg.deregistered)) = some (.epoll_wait, [(1, 2), (2, 2)]) by decide)
  simp only [Prod.mk.injEq] at hs
  have hsafe := (batch_safe sampleLayout hr).cleaned hs.1
  exact ⟨s, hr, hs.2, hsafe (1, 2) (by simp [hs.2]), hsafe (2, 2) (by simp [hs.2])⟩

end EdNio.Event
