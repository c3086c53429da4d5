import EdNio.Container.HandleObjects

/-!
# What a new handle shows

The object belongs to the slot, and neither `allocHandle` nor `freeHandle` touches it. A new
handle shows the object of an earlier handle of its slot, unless that was taken away.
-/

namespace EdNio.Container
open LinkedList Transition

variable {ω : Type}

/-- What is stored under `handle` after an event. -/
def HandleEvent.next (handle : UInt32) (obj : Option ω) : HandleEvent ω → Option ω
  | .issued g => if g = handle then none else obj
  | .freed _ => obj
  | .stored g o => if g = handle then o else obj

/-- What `setObject` has stored last under a handle since it was issued. -/
def lastStored (handle : UInt32) (log : List (HandleEvent ω)) : Option ω :=
  log.foldl (HandleEvent.next handle) none

/-- Every live handle shows what was stored under it. -/
def ShowsStored (x : LoggedHandles ω) : Prop :=
  ∀ handle ∈ x.state.live, x.state.objects.getObject handle = lastStored handle x.log

/-- The slot that is first on the free list has no object. -/
def FrontEmpty (m : HandleObjects ω) : Prop :=
  ∀ p, (m.manager.mHandleFreeList.vars ()).mphead = some p → m.obj p = none

/-- A slot is given out without an object, and `freeHandle(0)` is not called while slot 0 is
free. -/
def ReusesEmpty (x : LoggedHandles ω) : HandleCall ω → Prop
  | .allocHandle => FrontEmpty x.state.objects
  | .freeHandle handle => sparesFree x.state.managed (.freeHandle handle) = true
  | .setObject _ _ => True

variable {x t : LoggedHandles ω} {l : List Nat} {g handle : UInt32}

lemma lastStored_concat (handle : UInt32) (log : List (HandleEvent ω)) (e : HandleEvent ω) :
    lastStored handle (log ++ [e]) = e.next handle (lastStored handle log) := by
  rw [lastStored, List.foldl_concat]
  rfl

/-- The objects of the live handles are what was stored under them. -/
structure StoredInv (x : LoggedHandles ω) : Prop where
  slots : ∃ l, Slots x.state.managed l
  stored : ∀ g ∈ x.state.live, x.state.objects.obj (HIDX g) = lastStored g x.log

lemma handleToObj_some {m : EsHandleManager} {p : Nat} (h : m.handleToObj g = some p) :
    p = HIDX g ∧ (m.mRes p).handle = g := by
  rw [EsHandleManager.handleToObj] at h
  split at h
  · cases h
  · rw [Option.ite_none_right_eq_some] at h
    obtain ⟨hg, hp⟩ := h
    obtain rfl := Option.some.inj hp
    exact ⟨rfl, hg⟩

lemma setObject_obj {x : LiveObjects ω} {f : UInt32} (hs : Slots x.managed l) (hf : f ∈ x.live)
    (hne : f ≠ g) (obj : Option ω) :
    (x.objects.setObject g obj).obj (HIDX f) = x.objects.obj (HIDX f) := by
  unfold HandleObjects.setObject
  split
  · rename_i p hp
    obtain ⟨rfl, hg⟩ := handleToObj_some hp
    have hslot : HIDX f ≠ HIDX g := by
      intro heq
      rw [← heq] at hg
      exact hne ((hs.live f hf).1.symm.trans hg)
    exact Function.update_of_ne hslot ..
  · rfl

lemma getObject_live {x : LiveObjects ω} (hs : Slots x.managed l) (hg : g ∈ x.live) :
    x.objects.getObject g = x.objects.obj (HIDX g) := by
  rw [HandleObjects.getObject, show x.objects.manager.handleToObj g = some (HIDX g) from
    hs.handleToObj_live hg]

lemma getObject_setObject {x : LiveObjects ω} (hs : Slots x.managed l) (hg : g ∈ x.live)
    (obj : Option ω) : (x.objects.setObject g obj).obj (HIDX g) = obj := by
  rw [HandleObjects.setObject, show x.objects.manager.handleToObj g = some (HIDX g) from
    hs.handleToObj_live hg]
  exact Function.update_self ..

/-- The free list begins with the slot that is given out next. -/
lemma Slots.mphead {x : Managed} (hs : Slots x l) :
    (x.manager.mHandleFreeList.vars ()).mphead = l.head? :=
  hs.list.linked.forward.head

namespace StoredInv

lemma init (h0 : (handleLog ω false).init x) : StoredInv x := by
  obtain ⟨⟨max, seed, listSeed, hdr, info, newObj, -, hx⟩, hlog⟩ := h0
  constructor
  · rw [hx]
    exact ⟨_, Slots.new max seed listSeed hdr info⟩
  · rw [hx]
    intro g hg
    cases hg

lemma shows (h : StoredInv x) : ShowsStored x := by
  obtain ⟨l, hs⟩ := h.slots
  intro g hg
  rw [getObject_live hs hg]
  exact h.stored g hg

lemma setObject (h : StoredInv x) {obj : Option ω}
    (ht : t.state = x.state.call (.setObject g obj)) (hlog : t.log = x.log ++ [.stored g obj]) :
    StoredInv t := by
  obtain ⟨l, hs⟩ := h.slots
  constructor
  · rw [ht, managed_setObject]
    exact ⟨l, hs⟩
  · rw [ht, hlog]
    intro f hf
    change f ∈ x.state.live at hf
    change (x.state.objects.setObject g obj).obj (HIDX f) = _
    rw [lastStored_concat, HandleEvent.next]
    by_cases hgf : g = f
    · subst hgf
      rw [if_pos rfl, getObject_setObject hs hf]
    · rw [if_neg hgf, setObject_obj hs hf (Ne.symm hgf)]
      exact h.stored f hf

lemma freeHandle (h : StoredInv x) (hok : ReusesEmpty x (.freeHandle g))
    (ht : t.state = x.state.call (.freeHandle g)) (hlog : t.log = x.log ++ [.freed g]) :
    StoredInv t := by
  obtain ⟨l, hs⟩ := h.slots
  constructor
  · rw [ht]
    exact hs.freeHandle hok
  · rw [ht, hlog]
    intro f hf
    rw [lastStored_concat]
    exact h.stored f (List.mem_of_mem_erase hf)

/-- The handle that is issued, the slot it takes and what it shows. -/
lemma issue {p : Nat} (hs : Slots x.state.managed (p :: l))
    (ht : t.state = x.state.call .allocHandle)
    (hlog : t.log = x.log ++ (x.state.event .allocHandle).toList) :
    ∃ g, Slots t.state.managed l ∧ t.state.live = x.state.live ++ [g] ∧ HIDX g = p ∧
      g ∉ x.state.live ∧ t.log = x.log ++ [.issued g] ∧
      t.state.objects.obj = x.state.objects.obj := by
  obtain ⟨hs', hne, hidx⟩ := hs.allocHandle_cons
  change x.state.objects.allocHandle.1 ≠ 0 at hne
  refine ⟨x.state.objects.allocHandle.1, ?_, ?_, hidx, ?_, ?_, ?_⟩
  · rw [ht]
    exact hs'
  · rw [ht, LiveObjects.call, if_neg hne]
  · exact fun hlive => hs.integrity.alloc hne _ hlive rfl
  · rw [hlog, LiveObjects.event, if_neg hne]
    rfl
  · rw [ht]
    rfl

lemma allocHandle (h : StoredInv x) (hok : ReusesEmpty x .allocHandle)
    (ht : t.state = x.state.call .allocHandle)
    (hlog : t.log = x.log ++ (x.state.event .allocHandle).toList) : StoredInv t := by
  obtain ⟨l, hs⟩ := h.slots
  cases l with
  | nil => exact hs.eq_of_allocHandle ht hlog ▸ h
  | cons p l =>
    obtain ⟨g, hs', hlive, hidx, hnew, hlog', hobj⟩ := issue hs ht hlog
    refine ⟨⟨l, hs'⟩, fun f hf => ?_⟩
    rw [hlog', lastStored_concat, HandleEvent.next, hobj]
    rw [hlive, List.mem_append, List.mem_singleton] at hf
    rcases hf with hf | rfl
    · have hgf : g ≠ f := by
        rintro rfl
        exact hnew hf
      rw [if_neg hgf]
      exact h.stored f hf
    · rw [if_pos rfl, hidx]
      exact hok p hs.mphead

lemma not_shows (h : StoredInv x) (hok : ¬ ReusesEmpty x .allocHandle)
    (ht : t.state = x.state.call .allocHandle)
    (hlog : t.log = x.log ++ (x.state.event .allocHandle).toList) : ¬ ShowsStored t := by
  obtain ⟨l, hs⟩ := h.slots
  intro hshows
  apply hok
  intro p hp
  cases l with
  | nil =>
    rw [show (x.state.objects.manager.mHandleFreeList.vars ()).mphead = none from hs.mphead] at hp
    cases hp
  | cons p' l =>
    rw [show (x.state.objects.manager.mHandleFreeList.vars ()).mphead = some p' from hs.mphead]
      at hp
    obtain rfl := Option.some.inj hp
    obtain ⟨g, hs', hlive, hidx, -, hlog', hobj⟩ := issue hs ht hlog
    have hg : g ∈ t.state.live := by
      rw [hlive]
      exact List.mem_append_right _ (List.mem_singleton_self g)
    have hshown := hshows g hg
    rw [getObject_live hs' hg, hobj, hidx, hlog', lastStored_concat, HandleEvent.next,
      if_pos rfl] at hshown
    exact hshown

lemma step {c : HandleCall ω} (h : StoredInv x) (hok : ReusesEmpty x c)
    (hs : (handleLog ω false).step x c = some t) : StoredInv t := by
  obtain ⟨hstep, hlog⟩ := recorded_step hs
  have ht : t.state = x.state.call c := (Option.some.inj hstep).symm
  cases c with
  | allocHandle => exact h.allocHandle hok ht hlog
  | freeHandle handle => exact h.freeHandle hok ht hlog
  | setObject handle obj => exact h.setObject ht hlog

end StoredInv

/-- While every slot is given out without an object, a live handle shows what was stored under
it; a handle of a slot that has an object does not. -/
theorem shows_stored_exact (h : (handleLog ω false).Reaches ReusesEmpty x) :
    ShowsStored x ∧ ∀ t, (handleLog ω false).step x .allocHandle = some t →
      (ShowsStored t ↔ ReusesEmpty x .allocHandle) := by
  have hI : StoredInv x := by
    refine h.invariant ?_ ?_
    · intro x h0
      exact StoredInv.init h0
    · intro x c t _ hI hok hs
      exact hI.step hok hs
  refine ⟨hI.shows, fun t hs => ⟨fun hshows => ?_, fun hok => (hI.step hok hs).shows⟩⟩
  obtain ⟨hstep, hlog⟩ := recorded_step hs
  by_contra hok
  exact hI.not_shows hok (Option.some.inj hstep).symm hlog hshows

instance (m : HandleObjects ω) [DecidableEq ω] : Decidable (FrontEmpty m) :=
  inferInstanceAs (Decidable (∀ p ∈ (m.manager.mHandleFreeList.vars ()).mphead, m.obj p = none))

instance [DecidableEq ω] (x : LoggedHandles ω) (c : HandleCall ω) : Decidable (ReusesEmpty x c) :=
  match c with
  | .allocHandle => inferInstanceAs (Decidable (FrontEmpty x.state.objects))
  | .freeHandle handle =>
    inferInstanceAs (Decidable (sparesFree x.state.managed (.freeHandle handle) = true))
  | .setObject _ _ => .isTrue trivial

/-- The object of the first handle is taken away before the handle is freed. -/
theorem shows_stored_exact_cleared : ∃ x : LoggedHandles Nat,
    (handleLog Nat false).Reaches ReusesEmpty x ∧ x.state.live = [131072] ∧ ShowsStored x := by
  obtain ⟨x, hr, hx⟩ := System.exists_of_exec_restrict (M := handleLog Nat false)
    (T := fun x c => decide (ReusesEmpty x c)) (zeroedObjects_init 1)
    (l := [.allocHandle, .setObject 65536 (some 7), .setObject 65536 none, .freeHandle 65536,
      .allocHandle])
    (f := fun x => x.state.live) (b := [131072]) (by decide +kernel)
  have hr' := hr.mono fun _ _ hok => of_decide_eq_true hok
  exact ⟨x, hr', hx, (shows_stored_exact hr').1⟩

/-- The second handle of a slot shows the object of the first. -/
theorem not_shows_stored : ¬ ∀ x : LoggedHandles Nat, (handleLog Nat false).Reachable x →
    ShowsStored x := by
  intro hall
  obtain ⟨x, hr, hx⟩ := System.exists_of_exec (M := handleLog Nat false) (zeroedObjects_init 1)
    (l := [.allocHandle, .setObject 65536 (some 7), .freeHandle 65536, .allocHandle])
    (f := fun x => (x.state.live, x.state.objects.getObject 131072, lastStored 131072 x.log))
    (b := ([131072], some 7, none)) (by decide +kernel)
  rw [Prod.mk.injEq, Prod.mk.injEq] at hx
  obtain ⟨hlive, hshown, hstored⟩ := hx
  have hsame := hall x hr 131072 (hlive ▸ List.mem_singleton_self _)
  rw [hshown, hstored] at hsame
  cases hsame

end EdNio.Container
