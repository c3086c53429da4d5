import EdNio.Container.EdObjList
import Mathlib.Data.List.Infix

/-!
# Cleared lists

`clear` leaves a list with the seed 0, which is that of the nodes on no list. It is compared,
call by call, with a new list at its address.
-/

namespace EdNio.Container.EdObjList
open LinkedList

variable {ι ν : Type} [DecidableEq ι] [DecidableEq ν]

def clear (s : Lists ι ν) (this : ι) : Lists ι ν :=
  s.setVars this (fun _ => ⟨none, none, 0, 0⟩)

/-- The constructor of a list whose address makes the seed `mSeed`. -/
def construct (s : Lists ι ν) (this : ι) (mSeed : UInt32) : Lists ι ν :=
  s.setVars this (fun _ => ⟨none, none, mSeed, 0⟩)

/-- A node that is on no list, as `allocObj` and `remove` leave it. -/
def Fresh (s : Lists ι ν) (a : ν) : Prop := (s.hdr a).seed = 0 ∧ (s.hdr a).list = none

/-- A call on one list. -/
inductive Call (ν : Type)
  | pushBack (a : ν)
  | remove (a : ν)
  | popFront

namespace Call

def on (i : ι) : Call ν → ListOp ι ν
  | pushBack a => .pushBack i a
  | remove a => .remove i a
  | popFront => .popFront i

def node? : Call ν → Option ν
  | pushBack a => some a
  | remove a => some a
  | popFront => none

/-- The call on a sequence of nodes. -/
def apply (l : List ν) : Call ν → Option ν × List ν
  | pushBack a => (none, if a ∈ l then l else l ++ [a])
  | remove a => (none, l.erase a)
  | popFront => (l.head?, l.tail)

/-- A call that removes a node removes one of those on the list. -/
def RemovesMember (l : List ν) : Call ν → Prop
  | pushBack _ => True
  | remove a => a ∈ l
  | popFront => True

end Call

/-- Each node that the calls remove is on the list then. -/
def RemovesMembers : List ν → List (Call ν) → Prop
  | _, [] => True
  | l, c :: cs => c.RemovesMember l ∧ RemovesMembers (c.apply l).2 cs

/-- The list at `i` is the same in both memories. -/
structure SameList (s t : Lists ι ν) (i : ι) : Prop where
  size : (s.vars i).mSize = (t.vars i).mSize
  forward : ∀ l, Segment (fun a => (s.hdr a).next) (s.vars i).mphead l none ↔
    Segment (fun a => (t.hdr a).next) (t.vars i).mphead l none
  backward : ∀ l, Segment (fun a => (s.hdr a).prev) (s.vars i).mptail l none ↔
    Segment (fun a => (t.hdr a).prev) (t.vars i).mptail l none

/-- However far the calls have come, they have returned the same in both memories and left the
same list. -/
def Alike (s t : Lists ι ν) (i : ι) (cs : List (Call ν)) : Prop :=
  ∀ pre, pre <+: cs → (execs s (pre.map (Call.on i))).1 = (execs t (pre.map (Call.on i))).1 ∧
    SameList (execs s (pre.map (Call.on i))).2 (execs t (pre.map (Call.on i))).2 i

/-- The list at `i` has the seed `seed` and the nodes `l`, and the nodes that were free in `s`
and are not among these still are. -/
structure Holds (s : Lists ι ν) (i : ι) (seed : UInt32) (t : Lists ι ν) (l : List ν) : Prop where
  mSeed : (t.vars i).mSeed = seed
  isList : t.IsList i l
  owner : ∀ a ∈ l, (t.hdr a).list = some i
  free : ∀ a, Fresh s a → a ∉ l → Fresh t a

variable {s t t' : Lists ι ν} {i : ι} {a : ν} {l : List ν} {seed : UInt32} {c : Call ν}
  {cs : List (Call ν)}

omit [DecidableEq ν] in
lemma Holds.construct (s : Lists ι ν) (i : ι) (seed : UInt32) :
    Holds s i seed (construct s i seed) [] := by
  have hvars : (EdObjList.construct s i seed).vars i = ⟨none, none, seed, 0⟩ :=
    Function.update_self ..
  constructor
  · rw [hvars]
  · refine ⟨?_, by simp, by rw [hvars]; rfl⟩
    rw [hvars]
    exact Linked.nil
  · simp
  · exact fun a ha _ => ha

lemma Holds.pushBack_linked (h : Holds s i seed t l) (ha : a ∈ l) : pushBack t i a = t := by
  rw [pushBack, if_pos]
  exact .inr (by simp [h.owner a ha])

lemma Holds.pushBack (h : Holds s i seed t l) (hs : Fresh s a) (ha : a ∉ l) :
    Holds s i seed (pushBack t i a) (l ++ [a]) := by
  obtain ⟨hseed, hlist⟩ := h.free a hs ha
  have htail := h.isList.mptail_ne ha
  rw [EdObjList.pushBack, if_neg (by simp [hseed, hlist])]
  constructor
  · rw [Lists.add_mSeed htail, h.mSeed]
  · exact h.isList.add ha
  · intro b hb
    rw [Lists.add_list htail]
    by_cases hba : b = a
    · rw [if_pos hba]
    · rw [if_neg hba]
      exact h.owner b (by simpa [hba] using hb)
  · intro b hb hbl
    rw [List.mem_append, List.mem_singleton, not_or] at hbl
    rw [Fresh, Lists.add_seed htail, Lists.add_list htail, if_neg hbl.2, if_neg hbl.2]
    exact h.free b hb hbl.1

lemma Holds.remove (h : Holds s i seed t l) (ha : a ∈ l) :
    Holds s i seed (remove t i a) (l.erase a) := by
  have hseed := h.isList.seed a ha
  have hnodup := h.isList.linked.nodup
  have hlist := h.isList
  obtain ⟨u, v, -, hl, herase⟩ := List.exists_erase_eq ha
  rw [hl] at hlist
  rw [EdObjList.remove]
  constructor
  · rw [Lists.del_mSeed hseed, h.mSeed]
  · rw [herase]
    exact hlist.del
  · intro b hb
    rw [hnodup.mem_erase_iff] at hb
    rw [Lists.del_list hseed, if_neg hb.1, h.owner b hb.2]
  · intro b hb hbl
    rw [Fresh, Lists.del_seed hseed, Lists.del_list hseed]
    by_cases hba : b = a
    · rw [if_pos hba, if_pos hba]
      exact ⟨rfl, rfl⟩
    · rw [if_neg hba, if_neg hba]
      exact h.free b hb (fun hbl' => hbl (hnodup.mem_erase_iff.mpr ⟨hba, hbl'⟩))

lemma Holds.remove_fresh (h : Holds s i seed t l) (hseed : seed ≠ 0) (hs : Fresh s a)
    (ha : a ∉ l) :
    EdObjList.remove t i a = t := by
  rw [EdObjList.remove, Lists.del, if_pos]
  rw [(h.free a hs ha).1, h.mSeed]
  exact hseed.symm

lemma Holds.size_remove_fresh (h : Holds s i 0 t l) (hs : Fresh s a) (ha : a ∉ l) :
    ((EdObjList.remove t i a).vars i).mSize = UInt32.ofNat l.length - 1 := by
  have hseed : (t.hdr a).seed = (t.vars i).mSeed := by
    rw [(h.free a hs ha).1, h.mSeed]
  rw [EdObjList.remove, Lists.del_vars hseed, Function.update_self, h.isList.size]

/-- A call that does not remove a free node does what it does to the sequence. -/
lemma Holds.call (h : Holds s i seed t l) (hs : ∀ a ∈ c.node?, Fresh s a)
    (hc : seed ≠ 0 ∨ c.RemovesMember l) : (exec t (c.on i)).1 = (c.apply l).1 ∧
      Holds s i seed (exec t (c.on i)).2 (c.apply l).2 := by
  cases c with
  | pushBack a =>
    refine ⟨rfl, ?_⟩
    simp only [Call.on, exec, Call.apply]
    by_cases ha : a ∈ l
    · rw [if_pos ha, h.pushBack_linked ha]
      exact h
    · rw [if_neg ha]
      exact h.pushBack (hs a rfl) ha
  | remove a =>
    refine ⟨rfl, ?_⟩
    simp only [Call.on, exec, Call.apply]
    by_cases ha : a ∈ l
    · exact h.remove ha
    · rw [h.remove_fresh (hc.resolve_right ha) (hs a rfl) ha, List.erase_of_not_mem ha]
      exact h
  | popFront =>
    simp only [Call.on, exec, Call.apply, popFront]
    cases l with
    | nil =>
      rw [h.isList.popHead_nil]
      exact ⟨rfl, h⟩
    | cons a l =>
      rw [h.isList.popHead_cons.1]
      have hr := h.remove List.mem_cons_self
      rw [List.erase_cons_head] at hr
      exact ⟨rfl, hr⟩

omit [DecidableEq ι] [DecidableEq ν] in
lemma Holds.sameList {seed' : UInt32} (h : Holds s i seed t l) (h' : Holds s i seed' t' l) :
    SameList t t' i where
  size := by rw [h.isList.size, h'.isList.size]
  forward := h.isList.linked.forward.iff_of_same h'.isList.linked.forward
  backward := h.isList.linked.backward.iff_of_same h'.isList.linked.backward

lemma alike_cons (c : Call ν) (cs : List (Call ν)) : Alike t t' i (c :: cs) ↔ SameList t t' i ∧
    (exec t (c.on i)).1 = (exec t' (c.on i)).1 ∧
      Alike (exec t (c.on i)).2 (exec t' (c.on i)).2 i cs := by
  constructor
  · intro h
    have hret := (h [c] (by simp)).1
    simp only [List.map_cons, List.map_nil, execs, List.cons.injEq, and_true] at hret
    refine ⟨(h [] List.nil_prefix).2, hret, fun pre hpre => ?_⟩
    obtain ⟨hrets, hsame⟩ := h (c :: pre) (List.cons_prefix_cons.mpr ⟨rfl, hpre⟩)
    simp only [List.map_cons, execs, List.cons.injEq] at hrets hsame
    exact ⟨hrets.2, hsame⟩
  · rintro ⟨hsame, hret, hrest⟩ pre hpre
    cases pre with
    | nil => exact ⟨rfl, hsame⟩
    | cons b pre =>
      obtain ⟨rfl, hpre'⟩ := List.cons_prefix_cons.mp hpre
      obtain ⟨hrets, hsame⟩ := hrest pre hpre'
      simp only [List.map_cons, execs, hret, hrets, true_and]
      exact hsame

lemma Holds.alike_iff (h : Holds s i 0 t l) (h' : Holds s i seed t' l) (hseed : seed ≠ 0)
    (hs : ∀ c ∈ cs, ∀ a ∈ c.node?, Fresh s a) : Alike t t' i cs ↔ RemovesMembers l cs := by
  induction cs generalizing t t' l with
  | nil =>
    refine ⟨fun _ => trivial, fun _ pre hpre => ?_⟩
    rw [List.prefix_nil.mp hpre]
    exact ⟨rfl, h.sameList h'⟩
  | cons c cs ih =>
    have hc := hs c List.mem_cons_self
    rw [alike_cons, RemovesMembers]
    obtain ⟨hret', hstep'⟩ := h'.call hc (.inl hseed)
    by_cases hm : c.RemovesMember l
    · obtain ⟨hret, hstep⟩ := h.call hc (.inr hm)
      have hrest := ih hstep hstep' (fun c hc => hs c (List.mem_cons_of_mem _ hc))
      simp only [h.sameList h', hret, hret', hm, hrest, true_and]
    · refine iff_of_false (fun hall => ?_) (fun hall => hm hall.1)
      have hsize := (hall.2.2 [] List.nil_prefix).2.size
      cases c with
      | pushBack a => exact hm trivial
      | popFront => exact hm trivial
      | remove a =>
        -- the list without a seed has counted one node less
        have ha : a ∉ l := hm
        have hsize' := hstep'.isList.size
        simp only [Call.on, exec, Call.apply, List.erase_of_not_mem ha] at hsize'
        simp only [List.map_nil, execs, Call.on, exec, hsize',
          h.size_remove_fresh (hc a rfl) ha] at hsize
        rw [UInt32.sub_eq_iff_eq_add] at hsize
        simp at hsize

/-- A cleared list answers calls on free nodes as a new one, and holds the same, exactly if each
node that they remove is on the list then. -/
theorem cleared_alike_iff (hseed : (s.vars i).mSeed ≠ 0)
    (hs : ∀ c ∈ cs, ∀ a ∈ c.node?, Fresh s a) :
    Alike (clear s i) (construct s i (s.vars i).mSeed) i cs ↔ RemovesMembers [] cs :=
  (Holds.construct s i 0).alike_iff (.construct s i _) hseed hs

theorem cleared_alike_two : Alike (clear (new (fun _ => 1)) ())
      (construct (new (fun _ => 1)) () ((new (fun _ => 1) : Lists Unit Nat).vars ()).mSeed) ()
      [.pushBack 5, .pushBack 6, .remove 5, .popFront] :=
  (cleared_alike_iff (by decide) (fun _ _ _ _ => ⟨rfl, rfl⟩)).mpr (by simp [RemovesMembers,
    Call.RemovesMember, Call.apply])

/-- Removing a node that was never put on it takes the size of a cleared list below 0. -/
theorem not_cleared_alike : ¬ ∀ (s : Lists Unit Nat) (cs : List (Call Nat)),
    (s.vars ()).mSeed ≠ 0 → (∀ c ∈ cs, ∀ a ∈ c.node?, Fresh s a) →
      Alike (clear s ()) (construct s () (s.vars ()).mSeed) () cs := by
  intro hall
  have h := hall (new (fun _ => 1)) [.remove 5] (by decide) (fun _ _ _ _ => ⟨rfl, rfl⟩)
  exact absurd (h [.remove 5] (by simp)).2.size (by decide)

end EdNio.Container.EdObjList
