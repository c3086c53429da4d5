import EdNio.Event.EventObjects

/-!
# Who closes a descriptor

Each open descriptor is closed by one object, in its `close`, `kill` or destructor, or by the
program. An object that is opened once more without a close forgets the descriptor it had. `EdMq`
closes the queue it has when it is opened again, but does not know one with descriptor 0, and its
destructor closes nothing.
-/

namespace EdNio.Event.Objects
open Transition

def newFds (fd : Int) : List Int :=
  if 0 ≤ fd then [fd] else []

/-- The descriptors that the `close` or `kill` of the class closes. -/
def Subclass.held (mFd : Int) : Subclass → List Int
  | .EdPipe mRecvFd mSendFd => if mRecvFd ≠ -1 then [mRecvFd, mSendFd] else []
  | .EdMq mMqd => if 0 < mMqd then [mMqd] else []
  | _ => newFds mFd

def Object.held (x : Object) : List Int :=
  x.cls.held x.mFd

/-- The descriptors of the class in its constructor. -/
def Subclass.fresh : Subclass → Subclass
  | .EdPipe _ _ => .EdPipe (-1) (-1)
  | .EdMq _ => .EdMq (-1)
  | cls => cls

namespace OwnTask

variable (s : OwnTask) (o : Nat)

/-- The destructor of the class; that of `EdMq` is empty. -/
def destructor : Option OwnTask :=
  match (s.objs o).cls with
  | .EdMq _ => some s
  | _ => s.close o

/-- `~EdEvent`, which asserts that it runs on the task of an object that is still registered. -/
def destroyEdEvent : Option OwnTask :=
  if (s.objs o).mEvt = none then some s else s.deregisterEvent o

/-- An object is destroyed, and another one of its class is constructed in its place. -/
def destroy (mContext : Bool) : Option OwnTask :=
  (s.destructor o).bind (fun t => (t.destroyEdEvent o).map (fun u =>
    u.setObj o (.new mContext (u.objs o).cls.fresh)))

end OwnTask

/-- A task, and the descriptors that the program has opened itself and given to no object. -/
structure Ledger where
  task : OwnTask
  own : Int → Bool

inductive LedgerAction
  | act (a : Action)
  | destroy (o : Nat) (mContext : Bool)
deriving DecidableEq, Repr

namespace Ledger

variable (x : Ledger)

/-- `setFd` gives a descriptor of the program to an object. -/
def owns : Action → Int → Bool
  | .sysOpen fd => fun i => x.own i || (i = fd && 0 ≤ fd)
  | .sysClose fd => fun i => x.own i && i ≠ fd
  | .call o (.setFd fd) => fun i => x.own i && i ∉ (x.task.objs o).cls.held fd
  | .call _ _ => x.own

def step : LedgerAction → Option Ledger
  | .act a => (x.task.step a).map (fun t => ⟨t, x.owns a⟩)
  | .destroy o mContext => (x.task.destroy o mContext).map (fun t => ⟨t, x.own⟩)

/-- Each open descriptor is closed by one object, or by the program, and none is closed that is
not open. -/
structure Accounted (x : Ledger) : Prop where
  opened : ∀ fd, x.task.opened fd = true ↔ x.own fd = true ∨ ∃ o, fd ∈ (x.task.objs o).held
  apart : ∀ o, ∀ fd ∈ (x.task.objs o).held, x.own fd = false
  once : ∀ o o' fd, fd ∈ (x.task.objs o).held → fd ∈ (x.task.objs o').held → o = o'
  nodup : ∀ o, (x.task.objs o).held.Nodup

end Ledger

/-- An object is only opened when it holds nothing, and is only given a descriptor of the
program; `EdMq` closes the queue it has. -/
def Object.keeps (own : Int → Bool) (x : Object) : Call → Bool
  | .setFd fd =>
    match x.cls with
    | .EdPipe _ _ | .EdMq _ => true
    | _ => fd = x.mFd || (x.mFd < 0 && (fd < 0 || own fd))
  | .openSock _ | .openChildSock _ _ => x.held = []
  | .openEventFd fd _ | .setSignal fd _ => fd < 0 || x.held = []
  | .openPipe fds _ => fds = none || x.held = []
  | .openMq fd _ _ => fd ≠ 0
  | _ => true

/-- The destructor closes what the object holds. -/
def Object.closesAll (x : Object) : Bool :=
  match x.cls with
  | .EdMq mMqd => mMqd ≤ 0
  | _ => true

/-- The program closes no descriptor of an object, and destroys no `EdMq` that has a queue. -/
def Ledger.keeps (x : Ledger) : LedgerAction → Bool
  | .act (.sysOpen _) => true
  | .act (.sysClose fd) => x.own fd || !x.task.opened fd
  | .act (.call o c) => (x.task.objs o).keeps x.own c
  | .destroy o _ => (x.task.objs o).closesAll

/-- A task with what its program opens; what is open at the start is the program's. -/
def ledger : System Ledger LedgerAction where
  init x := ownTask.init x.task ∧ x.own = x.task.opened
  step := Ledger.step

namespace OwnTask

variable {s t u : OwnTask} {o : Nat} {flags : UInt32} {room : Bool} {fd : Int}
  {closes opens holds : List Int}

/-- The descriptors of the objects are the same, and none is opened or closed. -/
structure Same (s t : OwnTask) : Prop where
  cls : ∀ i, (t.objs i).cls = (s.objs i).cls
  mFd : ∀ i, (t.objs i).mFd = (s.objs i).mFd
  opened : t.opened = s.opened

/-- Of the objects only `o` changes what it holds. -/
structure Changes (s : OwnTask) (o : Nat) (closes opens holds : List Int) (t : OwnTask) :
    Prop where
  others : ∀ i, i ≠ o → (t.objs i).held = (s.objs i).held
  here : (t.objs o).held = holds
  opened : ∀ fd, t.opened fd = true ↔ (s.opened fd = true ∧ fd ∉ closes) ∨ fd ∈ opens

lemma Same.refl (s : OwnTask) : Same s s :=
  ⟨fun _ => rfl, fun _ => rfl, rfl⟩

lemma Same.held (h : Same s t) (i : Nat) : (t.objs i).held = (s.objs i).held := by
  rw [Object.held, h.cls i, h.mFd i, Object.held]

lemma Same.setObj (h : Same s t) {x : Object} (hcls : x.cls = (s.objs o).cls)
    (hfd : x.mFd = (s.objs o).mFd) : Same s (t.setObj o x) := by
  refine ⟨fun i => ?_, fun i => ?_, h.opened⟩ <;> by_cases hi : i = o
  · subst hi
    simpa [OwnTask.setObj] using hcls
  · simpa [OwnTask.setObj, hi] using h.cls i
  · subst hi
    simpa [OwnTask.setObj] using hfd
  · simpa [OwnTask.setObj, hi] using h.mFd i

lemma Same.registerEvent (hs : s.registerEvent o flags room = some t) : Same s t := by
  unfold OwnTask.registerEvent at hs
  dsimp only at hs
  split at hs
  · cases hs
    exact .refl s
  split at hs
  · cases hs
  split at hs
  · split at hs
    · cases hs
      have hreg : ∀ fd, Same s (s.regEdEvent fd flags o room).2 := by
        intro fd
        unfold OwnTask.regEdEvent
        dsimp only
        split <;> exact ⟨fun _ => rfl, fun _ => rfl, rfl⟩
      exact (hreg _).setObj rfl rfl
    · cases hs
  · cases hs
    exact .refl s

lemma Same.deregisterEvent (hs : s.deregisterEvent o = some t) : Same s t := by
  unfold OwnTask.deregisterEvent at hs
  dsimp only at hs
  split at hs
  · cases hs
  split at hs
  · cases hs
    exact .refl s
  split at hs
  · cases hs
  obtain ⟨u, hu, rfl⟩ := Option.map_eq_some_iff.mp hs
  have hsame : Same s u := by
    split at hu
    · obtain ⟨-, hu⟩ := Option.ite_none_right_eq_some.mp hu
      cases hu
      exact ⟨fun _ => rfl, fun _ => rfl, rfl⟩
    · cases hu
      exact .refl s
  exact hsame.setObj rfl rfl

lemma Same.changeEvent (hs : s.changeEvent o flags room = some t) : Same s t := by
  unfold OwnTask.changeEvent at hs
  dsimp only at hs
  split at hs
  · cases hs
  split at hs
  · obtain ⟨-, hs⟩ := Option.ite_none_right_eq_some.mp hs
    cases hs
    unfold changeEdEvent
    split <;> exact ⟨fun _ => rfl, fun _ => rfl, rfl⟩
  · exact Same.registerEvent hs

lemma Same.destroyEdEvent (hs : s.destroyEdEvent o = some t) : Same s t := by
  unfold OwnTask.destroyEdEvent at hs
  split at hs
  · cases hs
    exact .refl s
  · exact Same.deregisterEvent hs

lemma Same.changes (h : Same s t) (o : Nat) : Changes s o [] [] (s.objs o).held t :=
  ⟨fun i _ => h.held i, h.held o, fun fd => by simp [h.opened]⟩

lemma Changes.same (h : Changes s o closes opens holds t) (h' : Same t u) :
    Changes s o closes opens holds u :=
  ⟨fun i hi => (h'.held i).trans (h.others i hi), (h'.held o).trans h.here, fun fd => by
    rw [h'.opened]
    exact h.opened fd⟩

lemma Changes.of_same (h : Same s t) (h' : Changes t o closes opens holds u) :
    Changes s o closes opens holds u :=
  ⟨fun i hi => (h'.others i hi).trans (h.held i), h'.here, fun fd => by
    rw [h'.opened, h.opened]⟩

lemma Changes.closes_congr (h : Changes s o closes opens holds t) {closes' : List Int}
    (hmem : ∀ fd, fd ∈ closes ↔ fd ∈ closes') : Changes s o closes' opens holds t :=
  ⟨h.others, h.here, fun fd => by rw [← hmem]; exact h.opened fd⟩

/-- The object is written anew. -/
lemma Changes.setObj (h : Changes s o closes opens holds t) (x : Object) :
    Changes s o closes opens x.held (t.setObj o x) := by
  refine ⟨fun i hi => ?_, ?_, h.opened⟩
  · simpa [OwnTask.setObj, hi] using h.others i hi
  · simp [OwnTask.setObj]

lemma Changes.sysOpen (h : Changes s o closes opens holds t) (fd : Int) :
    Changes s o closes (newFds fd ++ opens) holds (t.sysOpen fd) := by
  unfold OwnTask.sysOpen newFds
  split
  · refine ⟨h.others, h.here, fun i => ?_⟩
    by_cases heq : i = fd
    · simp [heq]
    · simp [heq, h.opened i]
  · exact h

lemma Changes.sysClose (h : Changes s o closes [] holds t) (fd : Int) :
    Changes s o (fd :: closes) [] holds (t.sysClose fd) := by
  refine ⟨h.others, h.here, fun i => ?_⟩
  unfold OwnTask.sysClose
  by_cases heq : i = fd
  · simp [heq]
  · simp [heq, h.opened i]

lemma objs_sysOpen (s : OwnTask) (fd : Int) : (s.sysOpen fd).objs = s.objs := by
  unfold OwnTask.sysOpen
  split <;> rfl

lemma Changes.openFd (h : Changes s o closes opens holds t)
    (hu : t.openFd o fd flags room = some u) :
    Changes s o closes (newFds fd ++ opens) ((t.objs o).cls.held fd) u := by
  have hopen := (h.sysOpen fd).setObj { (t.sysOpen fd).objs o with
    mFd := fd, mContext := true, mTask := true }
  have hsame := hopen.same (Same.registerEvent hu)
  rwa [objs_sysOpen] at hsame

/-- The classes that close `mFd`. -/
lemma closeFd_changes (hcls : ∀ fd, (s.objs o).cls.held fd = newFds fd)
    (hs : s.closeFd o = some t) : Changes s o (s.objs o).held [] [] t := by
  rw [Object.held, hcls]
  unfold closeFd at hs
  dsimp only at hs
  split at hs
  · rename_i hfd
    obtain ⟨u, hu, rfl⟩ := Option.map_eq_some_iff.mp hs
    have hsame := Same.deregisterEvent hu
    have hclose := ((hsame.changes o).sysClose (s.objs o).mFd).setObj { u.objs o with mFd := -1 }
    have hheld : Object.held { u.objs o with mFd := -1 } = [] := by
      change (u.objs o).cls.held (-1) = []
      rw [hsame.cls o, hcls]
      rfl
    rw [newFds, if_pos hfd]
    rwa [hheld] at hclose
  · rename_i hfd
    cases hs
    have hsame := (Same.refl s).changes o
    rw [newFds, if_neg hfd]
    rwa [Object.held, hcls, newFds, if_neg hfd] at hsame

lemma EdPipe_close_changes {mRecvFd mSendFd : Int} (hcls : (s.objs o).cls = .EdPipe mRecvFd mSendFd)
    (hs : EdPipe.close s o mRecvFd mSendFd = some t) : Changes s o (s.objs o).held [] [] t := by
  rw [Object.held, hcls, Subclass.held]
  unfold EdPipe.close at hs
  split at hs
  · rename_i hfd
    obtain ⟨u, hu, rfl⟩ := Option.map_eq_some_iff.mp hs
    have hsame := Same.deregisterEvent hu
    have hclose := (((hsame.changes o).sysClose mRecvFd).sysClose mSendFd).setObj
      { u.objs o with cls := .EdPipe (-1) (-1) }
    rw [if_pos hfd]
    exact hclose.closes_congr (fun fd => by simp [or_comm])
  · rename_i hfd
    cases hs
    have hsame := (Same.refl s).changes o
    rw [if_neg hfd]
    rwa [Object.held, hcls, Subclass.held, if_neg hfd] at hsame

lemma EdMq_close_changes {mMqd : Int} (hcls : (s.objs o).cls = .EdMq mMqd)
    (hs : EdMq.close s o mMqd = some t) : Changes s o (s.objs o).held [] [] t := by
  rw [Object.held, hcls, Subclass.held]
  unfold EdMq.close at hs
  split at hs
  · rename_i hfd
    obtain ⟨u, hu, rfl⟩ := Option.map_eq_some_iff.mp hs
    have hsame := Same.deregisterEvent hu
    rw [if_pos hfd]
    exact ((hsame.changes o).sysClose mMqd).setObj { u.objs o with cls := .EdMq 0 }
  · rename_i hfd
    cases hs
    have hsame := (Same.refl s).changes o
    rw [if_neg hfd]
    rwa [Object.held, hcls, Subclass.held, if_neg hfd] at hsame

lemma close_changes (hs : s.close o = some t) : Changes s o (s.objs o).held [] [] t := by
  unfold OwnTask.close at hs
  split at hs
  · rename_i hcls
    exact closeFd_changes (fun fd => by rw [hcls]; rfl) hs
  · rename_i hcls
    exact closeFd_changes (fun fd => by rw [hcls]; rfl) hs
  · rename_i hcls
    exact closeFd_changes (fun fd => by rw [hcls]; rfl) hs
  · rename_i hcls
    exact closeFd_changes (fun fd => by rw [hcls]; rfl) hs
  · rename_i mRecvFd mSendFd hcls
    exact EdPipe_close_changes hcls hs
  · rename_i mMqd hcls
    exact EdMq_close_changes hcls hs

lemma openFd_changes (hcls : ∀ fd, (s.objs o).cls.held fd = newFds fd)
    (hs : s.openFd o fd flags room = some t) : Changes s o [] (newFds fd) (newFds fd) t := by
  have hc := ((Same.refl s).changes o).openFd hs
  rwa [hcls, List.append_nil] at hc

lemma EdPipe_open_changes {mRecvFd mSendFd : Int} (hfd : 0 ≤ mRecvFd ∧ 0 ≤ mSendFd)
    (hs : EdPipe.open s o (some (mRecvFd, mSendFd)) room = some t) :
    Changes s o [] [mRecvFd, mSendFd] [mRecvFd, mSendFd] t := by
  have hne : mRecvFd ≠ -1 := by omega
  have hc := (((Same.refl s).changes o).sysOpen mSendFd).setObj
    { (s.sysOpen mSendFd).objs o with cls := .EdPipe mRecvFd mSendFd }
  have hopens : newFds mRecvFd ++ (newFds mSendFd ++ []) = [mRecvFd, mSendFd] := by
    simp [newFds, hfd.1, hfd.2]
  unfold EdPipe.open at hs
  dsimp only at hs
  split at hs
  · have hc := (hc.setObj { (((s.sysOpen mSendFd).setClass o (.EdPipe mRecvFd mSendFd)).objs o)
      with mContext := true }).openFd hs
    rw [hopens] at hc
    simpa [setObj, setClass, Subclass.held, hne] using hc
  · have hc := hc.openFd hs
    rw [hopens] at hc
    simpa [setObj, Subclass.held, hne] using hc

lemma EdMq_open_changes {mMqd : Int} {creat : Bool} (hcls : (s.objs o).cls = .EdMq mMqd)
    (hs : EdMq.open s o mMqd fd creat room = some t) :
    Changes s o (s.objs o).held (newFds fd) (if 0 < fd then [fd] else []) t := by
  have hclose : Changes s o (s.objs o).held [] (s.objs o).held (EdMq.mqClose s mMqd) := by
    have hsame := (Same.refl s).changes o
    unfold EdMq.mqClose
    split
    · rename_i hfd
      have hheld : (s.objs o).held = [mMqd] := by
        rw [Object.held, hcls]
        exact if_pos hfd
      have hc := hsame.sysClose mMqd
      rwa [hheld] at hc ⊢
    · rename_i hfd
      have hheld : (s.objs o).held = [] := by
        rw [Object.held, hcls]
        exact if_neg hfd
      rwa [hheld] at hsame ⊢
  have hc := hclose.setObj { (EdMq.mqClose s mMqd).objs o with cls := .EdMq fd }
  unfold EdMq.open at hs
  dsimp only at hs
  split at hs
  · rename_i hneg
    cases hs
    rw [newFds, if_neg (by omega)]
    exact hc
  · have hc := hc.openFd hs
    rw [List.append_nil] at hc
    simpa [setObj, setClass, Subclass.held] using hc

end OwnTask

section Accounted

variable {x y : Ledger} {o : Nat} {closes opens holds : List Int}

/-- A call that opens and closes these descriptors leaves every open descriptor with one who
closes it, if and only if the object now holds what it held and did not close, what it opened,
and what the program gave it. -/
lemma Ledger.Accounted.changes_iff (h : x.Accounted)
    (hc : x.task.Changes o closes opens holds y.task) (hcloses : closes ⊆ (x.task.objs o).held)
    (hopens : ∀ fd ∈ opens, x.task.opened fd = true → fd ∈ closes) (hnodup : holds.Nodup)
    (hown : ∀ fd, y.own fd = true ↔ x.own fd = true ∧ fd ∉ holds) :
    y.Accounted ↔
      (∀ fd ∈ holds, (fd ∈ (x.task.objs o).held ∧ fd ∉ closes) ∨ fd ∈ opens ∨ x.own fd = true) ∧
      ∀ fd, (fd ∈ (x.task.objs o).held ∧ fd ∉ closes) ∨ fd ∈ opens → fd ∈ holds := by
  have hheld : ∀ {i fd}, fd ∈ (x.task.objs i).held → x.task.opened fd = true :=
    fun {i fd} hfd => (h.opened fd).mpr (.inr ⟨i, hfd⟩)
  constructor
  · intro hy
    have hyheld : ∀ fd, fd ∈ (y.task.objs o).held ↔ fd ∈ holds := fun fd => by rw [hc.here]
    refine ⟨fun fd hfd => ?_, fun fd hfd => ?_⟩
    · have hyfd := (hyheld fd).mpr hfd
      rcases (hc.opened fd).mp ((hy.opened fd).mpr (.inr ⟨o, hyfd⟩)) with ⟨hopen, hnot⟩ | hopen
      · rcases (h.opened fd).mp hopen with how | ⟨i, hi⟩
        · exact .inr (.inr how)
        · by_cases hio : i = o
          · exact .inl ⟨hio ▸ hi, hnot⟩
          · have hyi : fd ∈ (y.task.objs i).held := by
              rw [hc.others i hio]
              exact hi
            exact absurd (hy.once i o fd hyi hyfd) hio
      · exact .inr (.inl hopen)
    · have hopen : y.task.opened fd = true := by
        refine (hc.opened fd).mpr ?_
        rcases hfd with ⟨hfd, hnot⟩ | hfd
        · exact .inl ⟨hheld hfd, hnot⟩
        · exact .inr hfd
      -- nobody else had it: it was held by `o`, or it was not open
      have hfree : x.own fd = false ∧ ∀ i, i ≠ o → fd ∉ (x.task.objs i).held := by
        rcases hfd with ⟨hfd, -⟩ | hfd
        · exact ⟨h.apart o fd hfd, fun i hi hmem => hi (h.once i o fd hmem hfd)⟩
        · refine ⟨?_, fun i hi hmem => ?_⟩
          · by_contra hne
            have how : x.own fd = true := by simpa using hne
            have hmem := hcloses (hopens fd hfd ((h.opened fd).mpr (.inl how)))
            rw [h.apart o fd hmem] at how
            cases how
          · exact hi (h.once i o fd hmem (hcloses (hopens fd hfd (hheld hmem))))
      rcases (hy.opened fd).mp hopen with how | ⟨i, hi⟩
      · rw [((hown fd).mp how).1] at hfree
        exact absurd hfree.1 (by simp)
      · by_cases hio : i = o
        · exact (hyheld fd).mp (hio ▸ hi)
        · rw [hc.others i hio] at hi
          exact absurd hi (hfree.2 i hio)
  · rintro ⟨hin, hout⟩
    have hmem : ∀ {i fd}, fd ∈ (y.task.objs i).held ↔
        if i = o then fd ∈ holds else fd ∈ (x.task.objs i).held := by
      intro i fd
      split
      · rename_i hio
        rw [hio, hc.here]
      · rename_i hio
        rw [hc.others i hio]
    -- what `o` holds now, no other object held
    have hapart : ∀ {i fd}, fd ∈ holds → i ≠ o → fd ∉ (x.task.objs i).held := by
      intro i fd hfd hio hi
      rcases hin fd hfd with ⟨hold, -⟩ | hnew | how
      · exact hio (h.once i o fd hi hold)
      · exact hio (h.once i o fd hi (hcloses (hopens fd hnew (hheld hi))))
      · rw [h.apart i fd hi] at how
        cases how
    refine ⟨fun fd => ?_, fun i fd hfd => ?_, fun i j fd hi hj => ?_, fun i => ?_⟩
    · rw [hc.opened, hown]
      constructor
      · rintro (⟨hopen, hnot⟩ | hnew)
        · by_cases hfd : fd ∈ holds
          · exact .inr ⟨o, hmem.mpr (by rw [if_pos rfl]; exact hfd)⟩
          rcases (h.opened fd).mp hopen with how | ⟨i, hi⟩
          · exact .inl ⟨how, hfd⟩
          · have hio : i ≠ o := fun heq => hfd (hout fd (.inl ⟨heq ▸ hi, hnot⟩))
            exact .inr ⟨i, hmem.mpr (by rw [if_neg hio]; exact hi)⟩
        · exact .inr ⟨o, hmem.mpr (by rw [if_pos rfl]; exact hout fd (.inr hnew))⟩
      · rintro (⟨how, -⟩ | ⟨i, hi⟩)
        · refine .inl ⟨(h.opened fd).mpr (.inl how), fun hfd => ?_⟩
          rw [h.apart o fd (hcloses hfd)] at how
          cases how
        · have hi := hmem.mp hi
          split at hi
          · rcases hin fd hi with ⟨hold, hnot⟩ | hnew | how
            · exact .inl ⟨hheld hold, hnot⟩
            · exact .inr hnew
            · refine .inl ⟨(h.opened fd).mpr (.inl how), fun hfd => ?_⟩
              rw [h.apart o fd (hcloses hfd)] at how
              cases how
          · rename_i hio
            exact .inl ⟨hheld hi, fun hfd => hio (h.once i o fd hi (hcloses hfd))⟩
    · have hfd := hmem.mp hfd
      rw [Bool.eq_false_iff]
      intro how
      have how := (hown fd).mp how
      split at hfd
      · exact how.2 hfd
      · rw [h.apart i fd hfd] at how
        cases how.1
    · have hi := hmem.mp hi
      have hj := hmem.mp hj
      split at hi <;> split at hj
      · rename_i hio hjo
        exact hio.trans hjo.symm
      · rename_i hio hjo
        exact absurd hj (hapart hi hjo)
      · rename_i hio hjo
        exact absurd hi (hapart hj hio)
      · exact h.once i j fd hi hj
    · by_cases hio : i = o
      · rw [hio, hc.here]
        exact hnodup
      · rw [hc.others i hio]
        exact h.nodup i

namespace Ledger.Accounted

lemma own_opened (h : x.Accounted) {fd : Int} (how : x.own fd = true) :
    x.task.opened fd = true :=
  (h.opened fd).mpr (.inl how)

lemma held_opened (h : x.Accounted) {fd : Int} (hfd : fd ∈ (x.task.objs o).held) :
    x.task.opened fd = true :=
  (h.opened fd).mpr (.inr ⟨o, hfd⟩)

/-- The program keeps its descriptors. -/
lemma own_iff (h : x.Accounted) (hown : y.own = x.own)
    (hholds : ∀ fd ∈ holds, fd ∈ (x.task.objs o).held ∨ x.task.opened fd = false) (fd : Int) :
    y.own fd = true ↔ x.own fd = true ∧ fd ∉ holds := by
  rw [hown]
  refine ⟨fun how => ⟨how, fun hfd => ?_⟩, And.left⟩
  rcases hholds fd hfd with hheld | hnew
  · rw [h.apart o fd hheld] at how
    cases how
  · rw [h.own_opened how] at hnew
    cases hnew

lemma same (h : x.Accounted) (hs : x.task.Same y.task) (hown : y.own = x.own) (o : Nat) :
    y.Accounted := by
  refine (h.changes_iff (hs.changes o) (List.nil_subset _) (by simp) (h.nodup o)
    (h.own_iff hown (fun fd hfd => .inl hfd))).mpr ⟨fun fd hfd => ?_, fun fd hfd => ?_⟩
  · exact .inl ⟨hfd, List.not_mem_nil⟩
  · simpa using hfd

lemma close (h : x.Accounted)
    (hc : x.task.Changes o (x.task.objs o).held [] [] y.task) (hown : y.own = x.own) :
    y.Accounted := by
  refine (h.changes_iff hc (List.Subset.refl _) (by simp) List.nodup_nil
    (h.own_iff (o := o) hown (by simp))).mpr ⟨by simp, fun fd hfd => ?_⟩
  rcases hfd with ⟨hfd, hnot⟩ | hfd
  · exact absurd hfd hnot
  · exact hfd

/-- New descriptors for an object: what it held is forgotten. -/
lemma open_iff (h : x.Accounted) (hc : x.task.Changes o [] opens opens y.task)
    (hnew : ∀ fd ∈ opens, x.task.opened fd = false) (hnodup : opens.Nodup)
    (hown : y.own = x.own) : y.Accounted ↔ (x.task.objs o).held = [] := by
  rw [h.changes_iff hc (List.nil_subset _)
    (fun fd hfd hopen => absurd (hnew fd hfd) (by simp [hopen])) hnodup
    (h.own_iff (o := o) hown (fun fd hfd => .inr (hnew fd hfd)))]
  constructor
  · rintro ⟨-, hout⟩
    refine List.eq_nil_iff_forall_not_mem.mpr (fun fd hfd => ?_)
    have hnew := hnew fd (hout fd (.inl ⟨hfd, List.not_mem_nil⟩))
    rw [h.held_opened hfd] at hnew
    cases hnew
  · intro hnone
    refine ⟨fun fd hfd => .inr (.inl hfd), fun fd hfd => ?_⟩
    rcases hfd with ⟨hfd, -⟩ | hfd
    · rw [hnone] at hfd
      cases hfd
    · exact hfd

lemma newFds_new {s : OwnTask} {fd : Int} (hfd : s.newFd fd = true) :
    ∀ i ∈ newFds fd, s.opened i = false := by
  intro i hi
  unfold newFds at hi
  split at hi
  · rename_i hpos
    obtain rfl := List.mem_singleton.mp hi
    have hne : i ≠ -1 := by omega
    simpa [OwnTask.newFd, hne, hpos] using hfd
  · cases hi

lemma nodup_newFds (fd : Int) : (newFds fd).Nodup := by
  unfold newFds
  split <;> simp

/-- The one descriptor of a class that closes `mFd`. -/
lemma openFd_iff {flags : UInt32} {room : Bool} {fd : Int} (h : x.Accounted)
    (hcls : ∀ fd, (x.task.objs o).cls.held fd = newFds fd) (hfd : x.task.newFd fd = true)
    (hs : x.task.openFd o fd flags room = some y.task) (hown : y.own = x.own) :
    y.Accounted ↔ (x.task.objs o).held = [] :=
  h.open_iff (OwnTask.openFd_changes hcls hs) (newFds_new hfd) (nodup_newFds fd) hown

/-- A queue is closed before the next one is opened. A queue with descriptor 0 is lost. -/
lemma openMq_iff {fd : Int} (h : x.Accounted)
    (hc : x.task.Changes o (x.task.objs o).held (newFds fd) (if 0 < fd then [fd] else []) y.task)
    (hnew : ∀ i ∈ newFds fd, x.task.opened i = true → i ∈ (x.task.objs o).held)
    (hown : y.own = x.own) : y.Accounted ↔ fd ≠ 0 := by
  have hsub : ∀ i ∈ (if 0 < fd then [fd] else []), i ∈ newFds fd := by
    intro i hi
    split at hi
    · rename_i hpos
      rw [newFds, if_pos (by omega)]
      exact hi
    · cases hi
  have hnodup : (if 0 < fd then [fd] else []).Nodup := by
    split <;> simp
  rw [h.changes_iff hc (List.Subset.refl _) hnew hnodup (h.own_iff (o := o) hown
    (fun i hi => by
      cases hopen : x.task.opened i with
      | true => exact .inl (hnew i (hsub i hi) hopen)
      | false => exact .inr rfl))]
  constructor
  · rintro ⟨-, hout⟩ rfl
    have hmem := hout 0 (.inr (List.mem_singleton_self 0))
    cases hmem
  · intro hne
    refine ⟨fun i hi => .inr (.inl (hsub i hi)), fun i hi => ?_⟩
    rcases hi with ⟨hi, hnot⟩ | hi
    · exact absurd hi hnot
    · unfold newFds at hi
      split at hi
      · rw [if_pos (by omega)]
        exact hi
      · cases hi

lemma mem_newFds {fd i : Int} : i ∈ newFds fd ↔ i = fd ∧ 0 ≤ fd := by
  unfold newFds
  split <;> simp [*]

/-- An object of which `mFd` is the descriptor is given another one. -/
lemma given_iff {own : Int → Bool} (mFd fd : Int) :
    ((∀ i ∈ newFds fd, i ∈ newFds mFd ∨ own i = true) ∧ ∀ i ∈ newFds mFd, i ∈ newFds fd) ↔
      fd = mFd ∨ (mFd < 0 ∧ (fd < 0 ∨ own fd = true)) := by
  simp only [mem_newFds]
  constructor
  · rintro ⟨hin, hout⟩
    by_cases hm : 0 ≤ mFd
    · exact .inl (hout mFd ⟨rfl, hm⟩).1.symm
    refine .inr ⟨by omega, ?_⟩
    by_cases hfd : 0 ≤ fd
    · exact .inr ((hin fd ⟨rfl, hfd⟩).resolve_left (fun hmem => hm hmem.2))
    · exact .inl (by omega)
  · rintro (rfl | ⟨hm, hfd⟩)
    · exact ⟨fun i hi => .inl hi, fun i hi => hi⟩
    · refine ⟨fun i hi => .inr ?_, fun i hi => absurd hi.2 (by omega)⟩
      rw [hi.1]
      exact hfd.resolve_left (by omega)

lemma setFd_iff {fd : Int} (h : x.Accounted) (hs : y.task = x.task.setFd o fd)
    (hown : y.own = x.owns (.call o (.setFd fd))) :
    y.Accounted ↔ (x.task.objs o).keeps x.own (.setFd fd) = true := by
  have hc : x.task.Changes o [] [] ((x.task.objs o).cls.held fd) y.task := by
    rw [hs]
    exact ((OwnTask.Same.refl x.task).changes o).setObj
      { x.task.objs o with mFd := fd, mContext := true, mTask := true }
  have hnodup : ((x.task.objs o).cls.held fd).Nodup := by
    have hold := h.nodup o
    rw [Object.held] at hold
    unfold Subclass.held at hold ⊢
    split
    · rename_i hcls
      rwa [hcls] at hold
    · rename_i hcls
      rwa [hcls] at hold
    · exact nodup_newFds fd
  rw [h.changes_iff hc (List.nil_subset _) (by simp) hnodup (fun i => by
    rw [hown]
    simp [Ledger.owns])]
  simp only [List.not_mem_nil, not_false_eq_true, and_true, false_or, or_false]
  cases hcls : (x.task.objs o).cls with
  | EdPipe mRecvFd mSendFd =>
    simp only [Object.keeps, Object.held, hcls, Subclass.held, iff_true]
    exact ⟨fun i hi => .inl hi, fun i hi => hi⟩
  | EdMq mMqd =>
    simp only [Object.keeps, Object.held, hcls, Subclass.held, iff_true]
    exact ⟨fun i hi => .inl hi, fun i hi => hi⟩
  | EdSocket | EdTimer | EdEventFd | EdSignalFd =>
    rw [Object.held, hcls]
    simpa [Object.keeps, hcls, Subclass.held] using given_iff (x.task.objs o).mFd fd

lemma openSock_iff {fd : Int} (h : x.Accounted) (hcls : (x.task.objs o).cls = .EdSocket)
    (hfd : x.task.newFd fd = true) (hs : y.task = EdSocket.openSock x.task o fd)
    (hown : y.own = x.own) : y.Accounted ↔ (x.task.objs o).held = [] := by
  have hobjs : ((x.task.sysOpen fd).objs o).cls = .EdSocket := by
    rw [OwnTask.objs_sysOpen]
    exact hcls
  have hc := ((((OwnTask.Same.refl x.task).changes o).sysOpen fd).setObj
    { (x.task.sysOpen fd).objs o with mContext := true }).setObj
    { ((x.task.sysOpen fd).setDefaultContext o).objs o with
      mFd := fd, mContext := true, mTask := true }
  have hheld : Object.held { ((x.task.sysOpen fd).setDefaultContext o).objs o with
      mFd := fd, mContext := true, mTask := true } = newFds fd := by
    simp [Object.held, OwnTask.setDefaultContext, OwnTask.setContext, OwnTask.setObj, hobjs,
      Subclass.held]
  rw [hheld, List.append_nil] at hc
  have hchanges : x.task.Changes o [] (newFds fd) (newFds fd) y.task := by
    rw [hs]
    exact hc
  exact h.open_iff hchanges (newFds_new hfd) (nodup_newFds fd) hown

/-- A call keeps the account if and only if it keeps to its condition. -/
lemma call_iff {c : Call} (h : x.Accounted) (hs : x.step (.act (.call o c)) = some y) :
    y.Accounted ↔ (x.task.objs o).keeps x.own c = true := by
  obtain ⟨t, ht, rfl⟩ := Option.map_eq_some_iff.mp hs
  change x.task.call o c = some t at ht
  have hsame : x.task.Same t → ∀ c, x.owns (.call o c) = x.own →
      Ledger.Accounted ⟨t, x.owns (.call o c)⟩ := fun hst c hown => h.same hst hown o
  cases c with
  | setFd fd => exact h.setFd_iff (Option.some.inj ht).symm rfl
  | setContext ctx =>
    cases ht
    exact iff_of_true (h.same ((OwnTask.Same.refl _).setObj rfl rfl) rfl o) rfl
  | registerEvent flag room => exact iff_of_true (h.same (.registerEvent ht) rfl o) rfl
  | deregisterEvent => exact iff_of_true (h.same (.deregisterEvent ht) rfl o) rfl
  | changeEvent flags room => exact iff_of_true (h.same (.changeEvent ht) rfl o) rfl
  | openSock fd =>
    obtain ⟨⟨hcls, hfd⟩, ht⟩ := Option.ite_none_right_eq_some.mp ht
    refine (h.openSock_iff (y := ⟨t, _⟩) hcls hfd (Option.some.inj ht).symm rfl).trans ?_
    simp [Object.keeps]
  | openChildSock fd room =>
    obtain ⟨⟨hcls, hfd, -⟩, ht⟩ := Option.ite_none_right_eq_some.mp ht
    have hctx : x.task.Same (x.task.setDefaultContext o) :=
      (OwnTask.Same.refl x.task).setObj rfl rfl
    have hcls' : ∀ f, ((x.task.setDefaultContext o).objs o).cls.held f = newFds f := by
      intro f
      rw [hctx.cls o, hcls]
      rfl
    refine (h.open_iff (y := ⟨t, _⟩) (.of_same hctx (OwnTask.openFd_changes hcls' ht))
      (newFds_new hfd) (nodup_newFds fd) rfl).trans ?_
    simp [Object.keeps]
  | setUsec fd room =>
    obtain ⟨⟨hcls, hfd⟩, ht⟩ := Option.ite_none_right_eq_some.mp ht
    unfold EdTimer.setUsec at ht
    split at ht
    · rename_i hneg
      refine iff_of_true ((h.openFd_iff (y := ⟨t, _⟩) ?_ hfd ht rfl).mpr ?_) rfl
      · rw [hcls]
        exact fun f => rfl
      · rw [Object.held, hcls]
        exact if_neg (by omega)
    · cases ht
      exact iff_of_true (h.same (.refl _) rfl o) rfl
  | openEventFd fd room =>
    obtain ⟨⟨hcls, hfd⟩, ht⟩ := Option.ite_none_right_eq_some.mp ht
    unfold EdEventFd.open at ht
    split at ht
    · rename_i hpos
      refine (h.openFd_iff (y := ⟨t, _⟩) ?_ hfd ht rfl).trans ?_
      · rw [hcls]
        exact fun f => rfl
      · simp [Object.keeps, Int.not_lt.mpr hpos]
    · rename_i hneg
      cases ht
      exact iff_of_true (h.same (.refl _) rfl o) (by simp [Object.keeps, Int.not_le.mp hneg])
  | setSignal fd room =>
    obtain ⟨⟨hcls, hfd⟩, ht⟩ := Option.ite_none_right_eq_some.mp ht
    unfold EdSignalFd.setSignal at ht
    split at ht
    · rename_i hneg
      cases ht
      exact iff_of_true (h.same (.refl _) rfl o) (by simp [Object.keeps, hneg])
    · rename_i hpos
      refine (h.openFd_iff (y := ⟨t, _⟩) ?_ hfd ht rfl).trans ?_
      · rw [hcls]
        exact fun f => rfl
      · simp [Object.keeps, hpos]
  | openPipe fds room =>
    cases hcls : (x.task.objs o).cls with
    | EdPipe r w =>
      simp only [OwnTask.call, hcls] at ht
      obtain ⟨hfds, ht⟩ := Option.ite_none_right_eq_some.mp ht
      cases fds with
      | none =>
        cases ht
        exact iff_of_true (h.same (.refl _) rfl o) rfl
      | some p =>
        obtain ⟨mRecvFd, mSendFd⟩ := p
        simp only [Option.all_some, Bool.and_eq_true, decide_eq_true_eq] at hfds
        obtain ⟨⟨⟨⟨hr, hw⟩, hr0⟩, hw0⟩, hne⟩ := hfds
        refine (h.open_iff (y := ⟨t, _⟩) (OwnTask.EdPipe_open_changes ⟨hr0, hw0⟩ ht) ?_
          (by simpa using hne) rfl).trans ?_
        · intro i hi
          rcases List.mem_cons.mp hi with rfl | hi
          · exact newFds_new hr i (mem_newFds.mpr ⟨rfl, hr0⟩)
          · obtain rfl := List.mem_singleton.mp hi
            exact newFds_new hw i (mem_newFds.mpr ⟨rfl, hw0⟩)
        · simp [Object.keeps]
    | _ => simp [OwnTask.call, hcls] at ht
  | openMq fd creat room =>
    cases hcls : (x.task.objs o).cls with
    | EdMq mMqd =>
      simp only [OwnTask.call, hcls] at ht
      obtain ⟨hfd, ht⟩ := Option.ite_none_right_eq_some.mp ht
      refine (h.openMq_iff (y := ⟨t, _⟩) (OwnTask.EdMq_open_changes hcls ht) ?_ rfl).trans ?_
      · intro i hi hopen
        have hnew := newFds_new hfd i hi
        unfold EdMq.mqClose at hnew
        split at hnew
        · rename_i hpos
          have hi : i = mMqd := by
            by_contra hne
            rw [OwnTask.sysClose] at hnew
            simp [Function.update_of_ne hne, hopen] at hnew
          rw [Object.held, hcls, Subclass.held, if_pos hpos, hi]
          exact List.mem_singleton_self mMqd
        · rw [hopen] at hnew
          cases hnew
      · simp [Object.keeps]
    | _ => simp [OwnTask.call, hcls] at ht
  | close => exact iff_of_true (h.close (OwnTask.close_changes ht) rfl) rfl

lemma sysOpen {fd : Int} (h : x.Accounted) (hfd : x.task.newFd fd = true) :
    Ledger.Accounted ⟨x.task.sysOpen fd, x.owns (.sysOpen fd)⟩ := by
  unfold OwnTask.sysOpen
  split
  · rename_i hpos
    have hclosed := newFds_new hfd fd (mem_newFds.mpr ⟨rfl, hpos⟩)
    refine ⟨fun i => ?_, fun o i hi => ?_, h.once, h.nodup⟩
    · by_cases hi : i = fd
      · simp [Ledger.owns, hi, hpos]
      · simp [Ledger.owns, hi, h.opened i]
    · have hne : i ≠ fd := by
        rintro rfl
        rw [h.held_opened hi] at hclosed
        cases hclosed
      simp [Ledger.owns, hne, h.apart o i hi]
  · rename_i hneg
    have hown : x.owns (.sysOpen fd) = x.own := by
      funext i
      simp [Ledger.owns, hneg]
    rw [hown]
    exact h

lemma sysClose_iff {fd : Int} (h : x.Accounted) :
    Ledger.Accounted ⟨x.task.sysClose fd, x.owns (.sysClose fd)⟩ ↔
      x.keeps (.act (.sysClose fd)) = true := by
  simp only [Ledger.keeps, Bool.or_eq_true, Bool.not_eq_true']
  constructor
  · intro hy
    by_contra hkeep
    rw [not_or] at hkeep
    obtain ⟨hown, hopen⟩ := hkeep
    obtain ⟨o, ho⟩ := ((h.opened fd).mp (by simpa using hopen)).resolve_left hown
    have hyopen := (hy.opened fd).mpr (.inr ⟨o, ho⟩)
    simp [OwnTask.sysClose] at hyopen
  · intro hkeep
    have hnot : ∀ o, fd ∉ (x.task.objs o).held := by
      intro o ho
      rcases hkeep with hown | hclosed
      · rw [h.apart o fd ho] at hown
        cases hown
      · rw [h.held_opened ho] at hclosed
        cases hclosed
    refine ⟨fun i => ?_, fun o i hi => ?_, h.once, h.nodup⟩
    · by_cases hi : i = fd
      · subst hi
        have hnone : ¬ ∃ o, i ∈ (x.task.objs o).held := fun ⟨o, ho⟩ => hnot o ho
        simpa [OwnTask.sysClose, Ledger.owns] using hnone
      · simp [OwnTask.sysClose, Ledger.owns, hi, h.opened i]
    · simp [Ledger.owns, h.apart o i hi]

/-- A destructor closes what its object holds, but for that of `EdMq`. -/
lemma destroy_iff {mContext : Bool} (h : x.Accounted)
    (hs : x.step (.destroy o mContext) = some y) :
    y.Accounted ↔ x.keeps (.destroy o mContext) = true := by
  obtain ⟨t, ht, rfl⟩ := Option.map_eq_some_iff.mp hs
  obtain ⟨u, hu, ht⟩ := Option.bind_eq_some_iff.mp ht
  obtain ⟨v, hv, rfl⟩ := Option.map_eq_some_iff.mp ht
  have hsame := OwnTask.Same.destroyEdEvent hv
  have hnew : Object.held (.new mContext (v.objs o).cls.fresh) = [] := by
    cases hcls : (v.objs o).cls <;> rfl
  unfold OwnTask.destructor at hu
  split at hu
  · rename_i mMqd hcls
    cases hu
    have hc := (hsame.changes o).setObj (.new mContext (v.objs o).cls.fresh)
    rw [hnew] at hc
    refine (h.open_iff (y := ⟨_, x.own⟩) hc (by simp) List.nodup_nil rfl).trans ?_
    simp [Ledger.keeps, Object.closesAll, Object.held, hcls, Subclass.held]
  · rename_i hcls
    have hc := ((OwnTask.close_changes hu).same hsame).setObj (.new mContext (v.objs o).cls.fresh)
    rw [hnew] at hc
    refine iff_of_true (h.close (y := ⟨_, x.own⟩) hc rfl) ?_
    change (x.task.objs o).closesAll = true
    unfold Object.closesAll
    split
    · rename_i mMqd hcls'
      exact absurd hcls' (hcls mMqd)
    · rfl

/-- One step keeps the account if and only if it keeps to its condition. -/
lemma step_iff {a : LedgerAction} (h : x.Accounted) (hs : x.step a = some y) :
    y.Accounted ↔ x.keeps a = true := by
  cases a with
  | destroy o mContext => exact h.destroy_iff hs
  | act a =>
    cases a with
    | call o c => exact h.call_iff hs
    | sysOpen fd =>
      obtain ⟨t, ht, rfl⟩ := Option.map_eq_some_iff.mp hs
      obtain ⟨hfd, ht⟩ := Option.ite_none_right_eq_some.mp ht
      cases ht
      exact iff_of_true (h.sysOpen hfd) rfl
    | sysClose fd =>
      cases hs
      exact h.sysClose_iff

lemma init (h : ledger.init x) : x.Accounted := by
  obtain ⟨⟨hnew, -, -⟩, hown⟩ := h
  have hnone : ∀ o, (x.task.objs o).held = [] := by
    intro o
    obtain ⟨mContext, cls, hcls, ho⟩ := hnew o
    rw [ho, Object.held]
    cases cls with
    | EdPipe r w => exact if_neg (fun hne => hne hcls.1)
    | EdMq m =>
      obtain rfl : m = -1 := hcls
      rfl
    | EdSocket | EdTimer | EdEventFd | EdSignalFd => rfl
  refine ⟨fun fd => ?_, fun o fd hfd => ?_, fun o o' fd hfd => ?_, fun o => ?_⟩
  · simp [hnone, hown]
  · rw [hnone] at hfd
    cases hfd
  · rw [hnone] at hfd
    cases hfd
  · rw [hnone]
    exact List.nodup_nil

end Ledger.Accounted

end Accounted

/-- In every run in which an object is only opened while it holds nothing, or is an `EdMq`, which
is destroyed only when it is closed, and the program closes no descriptor of an object, each open
descriptor is closed by exactly one object or by the program. The first step that does otherwise,
or opens a queue with descriptor 0, ends that. -/
theorem descriptors_exact {x : Ledger} (h : ledger.Reaches (fun x a => x.keeps a = true) x) :
    x.Accounted ∧ ∀ a y, ledger.step x a = some y → (y.Accounted ↔ x.keeps a = true) :=
  h.exact (I := Ledger.Accounted) (fun _ h0 => .init h0)
    (fun _ _ _ hI hok hs => (hI.step_iff hs).mpr hok) (fun _ hI => hI)
    (fun _ _ _ hI hok hs hy => hok ((hI.step_iff hs).mp hy))

/-- A task with one socket in use, and descriptors 0 to 2 open. -/
def oneSocket : Ledger :=
  ⟨⟨fun _ => .new true .EdSocket, fun fd => 0 ≤ fd && fd ≤ 2, fun _ => none⟩,
    fun fd => 0 ≤ fd && fd ≤ 2⟩

lemma init_oneSocket : ledger.init oneSocket := by
  refine ⟨⟨fun o => ⟨true, .EdSocket, trivial, rfl⟩, fun fd hfd => ?_, rfl⟩, rfl⟩
  have hneg : ¬ 0 ≤ fd := by omega
  simp [oneSocket, hneg]

/-- A socket is opened; opening it again, without a close, would lose its descriptor. -/
theorem descriptors_exact_oneSocket : ∃ x, ledger.Reaches (fun x a => x.keeps a = true) x ∧
    (x.task.objs 0).held = [3] ∧ x.Accounted ∧
    ∃ y, ledger.step x (.act (.call 0 (.openSock 4))) = some y ∧ ¬ y.Accounted := by
  obtain ⟨x, hx, hobs⟩ := System.exists_of_exec_restrict (M := ledger)
    (T := fun x a => x.keeps a) (l := [.act (.call 0 (.openSock 3))])
    (f := fun x => ((x.task.objs 0).held,
      (ledger.step x (.act (.call 0 (.openSock 4)))).isSome,
      x.keeps (.act (.call 0 (.openSock 4))))) (b := ([3], true, false)) init_oneSocket
    (by decide +kernel)
  simp only [Prod.mk.injEq] at hobs
  obtain ⟨hheld, hsome, hkeep⟩ := hobs
  obtain ⟨hacc, hexact⟩ := descriptors_exact hx
  obtain ⟨y, hy⟩ := Option.isSome_iff_exists.mp hsome
  refine ⟨x, hx, hheld, hacc, y, hy, fun hyacc => ?_⟩
  have hok := (hexact _ y hy).mp hyacc
  rw [hkeep] at hok
  cases hok

end EdNio.Event.Objects
