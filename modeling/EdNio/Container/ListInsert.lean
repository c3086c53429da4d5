import EdNio.Container.EdObjList

/-!
# Inserting into a list

`insert` of the three list classes. It links the new node to its neighbours and does not write
the tail of the list.
-/

namespace EdNio.Container
open LinkedList

namespace Lists

variable {ι ν : Type} [DecidableEq ι] [DecidableEq ν]

/-- `EsList2::add`. Its nodes have no list. -/
def add2 (s : Lists ι ν) (this : ι) (pnode : ν) : Lists ι ν :=
  let s := s.setHdr pnode (fun h => { h with seed := (s.vars this).mSeed })
  let s := match (s.vars this).mptail with
    | none =>
      let s := s.setVars this (fun v => { v with mphead := some pnode, mptail := some pnode })
      s.setHdr pnode (fun h => { h with prev := none, next := none })
    | some mptail =>
      let s := s.setHdr pnode (fun h => { h with prev := some mptail, next := none })
      let s := s.setHdr mptail (fun h => { h with next := some pnode })
      s.setVars this (fun v => { v with mptail := some pnode })
  s.setVars this (fun v => { v with mSize := v.mSize + 1 })

/-- `EsList2::insert`. -/
def insert2 (s : Lists ι ν) (this : ι) (prevnode pnode : ν) : Lists ι ν :=
  if (s.hdr prevnode).seed ≠ (s.vars this).mSeed then s
  else
    let s := s.setHdr pnode (fun h => { h with prev := some prevnode })
    let s := s.setHdr pnode (fun h => { h with next := (s.hdr prevnode).next })
    let s := s.setHdr prevnode (fun h => { h with next := some pnode })
    let s := match (s.hdr pnode).next with
      | some next => s.setHdr next (fun h => { h with prev := some pnode })
      | none => s
    let s := s.setHdr pnode (fun h => { h with seed := (s.vars this).mSeed })
    s.setVars this (fun v => { v with mSize := v.mSize + 1 })

/-- `EsList::insert`. -/
def insert (s : Lists ι ν) (this : ι) (prevnode pnode : ν) : Lists ι ν :=
  if (s.hdr prevnode).seed ≠ (s.vars this).mSeed then s
  else
    let s := s.setHdr pnode (fun h => { h with prev := some prevnode })
    let s := s.setHdr pnode (fun h => { h with next := (s.hdr prevnode).next })
    let s := s.setHdr prevnode (fun h => { h with next := some pnode })
    let s := match (s.hdr pnode).next with
      | some next => s.setHdr next (fun h => { h with prev := some pnode })
      | none => s
    let s := s.setHdr pnode (fun h => { h with seed := (s.vars this).mSeed })
    let s := s.setHdr pnode (fun h => { h with list := some this })
    s.setVars this (fun v => { v with mSize := v.mSize + 1 })

end Lists

/-- `EdObjList::insert`. -/
def EdObjList.insert {ι ν : Type} [DecidableEq ι] [DecidableEq ν] (s : Lists ι ν) (this : ι)
    (prevobjptr objptr : ν) : Lists ι ν :=
  if (s.hdr prevobjptr).seed ≠ (s.vars this).mSeed ∨ (s.hdr objptr).seed ≠ 0 ∨
      (s.hdr objptr).list ≠ none then s
  else
    let s := s.setHdr objptr (fun h => { h with prev := some prevobjptr })
    let s := s.setHdr objptr (fun h => { h with next := (s.hdr prevobjptr).next })
    let s := s.setHdr prevobjptr (fun h => { h with next := some objptr })
    let s := match (s.hdr objptr).next with
      | some next => s.setHdr next (fun h => { h with prev := some objptr })
      | none => s
    let s := s.setHdr objptr (fun h => { h with seed := (s.vars this).mSeed })
    let s := s.setHdr objptr (fun h => { h with list := some this })
    s.setVars this (fun v => { v with mSize := v.mSize + 1 })

inductive ListClass
  | edObjList
  | esList
  | esList2

namespace ListClass

variable {ι ν : Type}

/-- Whether a node that is not among those of a list can be put on it. -/
def Unlinked (s : Lists ι ν) (a : ν) : ListClass → Prop
  | edObjList => (s.hdr a).seed = 0 ∧ (s.hdr a).list = none
  | esList => True
  | esList2 => True

variable [DecidableEq ι] [DecidableEq ν]

/-- `push_back` of `EdObjList` and `add` of the others. -/
def add (s : Lists ι ν) (this : ι) (a : ν) : ListClass → Lists ι ν
  | edObjList => EdObjList.pushBack s this a
  | esList => s.add this a
  | esList2 => s.add2 this a

def insert (s : Lists ι ν) (this : ι) (prevnode a : ν) : ListClass → Lists ι ν
  | edObjList => EdObjList.insert s this prevnode a
  | esList => s.insert this prevnode a
  | esList2 => s.insert2 this prevnode a

end ListClass

namespace Lists

variable {ι ν : Type} [DecidableEq ι] [DecidableEq ν]
variable {s t : Lists ι ν} {i : ι} {a b p : ν} {l u v : List ν}

omit [DecidableEq ι] [DecidableEq ν] in
lemma IsList.congr (h : s.IsList i l) (hv : t.vars = s.vars)
    (hh : ∀ a, (t.hdr a).prev = (s.hdr a).prev ∧ (t.hdr a).next = (s.hdr a).next ∧
      (t.hdr a).seed = (s.hdr a).seed) : t.IsList i l where
  linked := by
    rw [hv]
    exact h.linked.congr (fun a _ => (hh a).1) (fun a _ => (hh a).2.1)
  seed a ha := by rw [hv, (hh a).2.2, h.seed a ha]
  size := by rw [hv, h.size]

/-- `EsList::add` is that of `EsList2` apart from the list of the node. -/
lemma add_eq_add2 (s : Lists ι ν) (i : ι) (a : ν) :
    s.add i a = (s.add2 i a).setHdr a (fun h => { h with list := some i }) := by
  unfold add add2
  cases ((s.setHdr a (fun h => { h with seed := (s.vars i).mSeed })).vars i).mptail <;> rfl

lemma insert_eq_insert2 (h : (s.hdr p).seed = (s.vars i).mSeed) : s.insert i p a =
    (s.insert2 i p a).setHdr a (fun h => { h with list := some i }) := by
  unfold insert insert2
  rw [if_neg (not_not_intro h), if_neg (not_not_intro h)]
  rfl

lemma insert2_hdr (h : (s.hdr p).seed = (s.vars i).mSeed) (hpa : p ≠ a)
    (hna : (s.hdr p).next ≠ some a) (b : ν) : (s.insert2 i p a).hdr b =
    { prev := if b = a then some p
        else if (s.hdr p).next = some b then some a else (s.hdr b).prev
      next := if b = a then (s.hdr p).next else if b = p then some a else (s.hdr b).next
      seed := if b = a then (s.vars i).mSeed else (s.hdr b).seed
      list := (s.hdr b).list } := by
  have hvars : ∀ (t : Lists ι ν) f, (t.setVars i f).hdr = t.hdr := fun _ _ => rfl
  have hhdr : ∀ (t : Lists ι ν) b f, (t.setHdr b f).vars = t.vars := fun _ _ _ => rfl
  unfold insert2
  rw [if_neg (not_not_intro h)]
  simp only [hvars, setHdr_hdr, if_true, if_neg hpa, if_neg hpa.symm]
  cases hn : (s.hdr p).next with
  | none =>
    simp only [hhdr, setHdr_hdr, @eq_comm _ b, reduceCtorEq, if_false]
    by_cases hba : a = b
    · subst hba
      simp only [if_true, if_neg hpa]
    · by_cases hbp : p = b <;> simp only [hba, hbp, if_true, if_false]
  | some n =>
    have hne : n ≠ a := by
      rintro rfl
      exact hna hn
    simp only [hhdr, setHdr_hdr, @eq_comm _ b, Option.some.injEq]
    by_cases hba : a = b
    · subst hba
      simp only [if_true, if_neg hpa, if_neg hne]
    · by_cases hbp : p = b <;> by_cases hbn : n = b <;>
        simp only [hba, hbp, hbn, if_true, if_false]

lemma insert2_vars (h : (s.hdr p).seed = (s.vars i).mSeed) : (s.insert2 i p a).vars =
    Function.update s.vars i { s.vars i with mSize := (s.vars i).mSize + 1 } := by
  unfold insert2
  rw [if_neg (not_not_intro h)]
  dsimp only
  split <;> rfl

lemma IsList.insert2 (h : s.IsList i (u ++ p :: v)) (ha : a ∉ u ++ p :: v) (hv : v ≠ []) :
    (s.insert2 i p a).IsList i (u ++ p :: a :: v) := by
  obtain ⟨hnp, -⟩ := h.linked.links
  have hseed := h.seed p (by simp)
  have hmem : ∀ b ∈ u ++ p :: v, b ≠ a := by
    rintro b hb rfl
    exact ha hb
  have hpa : p ≠ a := hmem p (by simp)
  have hna : (s.hdr p).next ≠ some a := by
    intro hn
    rw [hnp] at hn
    exact ha (by simp [List.mem_of_head? hn])
  have hhdr := insert2_hdr hseed hpa hna
  constructor
  · rw [insert2_vars hseed, Function.update_self]
    refine h.linked.insert (fun b hb => ?_) (fun b hb => ?_) ?_ ?_ ?_
    · simp only [hhdr, hmem b hb, if_false]
    · simp only [hhdr, hmem b hb, if_false]
    · simp only [hhdr, if_true]
    · simp only [hhdr, if_true]
    · rw [hnp, if_neg]
      simpa [List.head?_eq_none_iff] using hv
  · intro b hb
    rw [insert2_vars hseed, Function.update_self, hhdr]
    by_cases hba : b = a
    · simp only [hba, if_true]
    · have hb' : b ∈ u ++ p :: v := by simpa [hba] using hb
      simp only [hba, if_false, h.seed b hb']
  · rw [insert2_vars hseed, Function.update_self, h.size]
    simp only [List.length_append, List.length_cons, ← Nat.add_assoc, UInt32.ofNat_add]
    rfl

lemma not_linked_insert2 (h : s.IsList i (u ++ [p])) (ha : a ∉ u ++ [p]) :
    ¬ (s.insert2 i p a).IsList i (u ++ [p, a]) := by
  intro h'
  have htail := h.linked.tail_eq
  have htail' := h'.linked.tail_eq
  rw [insert2_vars (h.seed p (by simp)), Function.update_self, htail] at htail'
  simp at htail'
  exact ha (by simp [htail'])

end Lists

lemma EdObjList.insert_eq {ι ν : Type} [DecidableEq ι] [DecidableEq ν] {s : Lists ι ν} {i : ι}
    {p a : ν} (h : ListClass.Unlinked s a .edObjList) :
    EdObjList.insert s i p a = s.insert i p a := by
  unfold EdObjList.insert Lists.insert
  simp only [h.1, h.2, ne_eq, not_true_eq_false, or_false]

namespace ListClass

variable {ι ν : Type} [DecidableEq ι] [DecidableEq ν]
variable {k : ListClass} {s : Lists ι ν} {i : ι} {a p : ν} {l u v : List ν}

/-- Behind `p`, the node `a` is on the list in both directions, and the next node comes after
all of them. -/
structure Inserted (k : ListClass) (s : Lists ι ν) (i : ι) (u : List ν) (p a : ν)
    (v : List ν) : Prop where
  isList : (k.insert s i p a).IsList i (u ++ p :: a :: v)
  size : ((k.insert s i p a).vars i).mSize = (s.vars i).mSize + 1
  add : ∀ b ∉ u ++ p :: a :: v, k.Unlinked (k.insert s i p a) b →
    (k.add (k.insert s i p a) i b).IsList i (u ++ p :: a :: v ++ [b])

lemma isList_add (h : s.IsList i l) (ha : a ∉ l) (hu : k.Unlinked s a) :
    (k.add s i a).IsList i (l ++ [a]) := by
  have hadd : (s.add i a).IsList i (l ++ [a]) := h.add ha
  cases k with
  | edObjList =>
    rw [add, EdObjList.pushBack, if_neg (by simp [hu.1, hu.2])]
    exact hadd
  | esList => exact hadd
  | esList2 =>
    rw [Lists.add_eq_add2] at hadd
    refine hadd.congr rfl (fun b => ?_)
    rw [Lists.setHdr_hdr]
    split <;> exact ⟨rfl, rfl, rfl⟩

lemma insert_congr (hp : (s.hdr p).seed = (s.vars i).mSeed) (hu : k.Unlinked s a) :
    (k.insert s i p a).vars = (s.insert2 i p a).vars ∧
      ∀ b, ((k.insert s i p a).hdr b).prev = ((s.insert2 i p a).hdr b).prev ∧
        ((k.insert s i p a).hdr b).next = ((s.insert2 i p a).hdr b).next ∧
        ((k.insert s i p a).hdr b).seed = ((s.insert2 i p a).hdr b).seed := by
  have hins : (s.insert i p a).vars = (s.insert2 i p a).vars ∧
      ∀ b, ((s.insert i p a).hdr b).prev = ((s.insert2 i p a).hdr b).prev ∧
        ((s.insert i p a).hdr b).next = ((s.insert2 i p a).hdr b).next ∧
        ((s.insert i p a).hdr b).seed = ((s.insert2 i p a).hdr b).seed := by
    rw [Lists.insert_eq_insert2 hp]
    refine ⟨rfl, fun b => ?_⟩
    rw [Lists.setHdr_hdr]
    split <;> exact ⟨rfl, rfl, rfl⟩
  cases k with
  | edObjList =>
    rw [insert, EdObjList.insert_eq hu]
    exact hins
  | esList => exact hins
  | esList2 => exact ⟨rfl, fun _ => ⟨rfl, rfl, rfl⟩⟩

/-- In each of the classes a node can be inserted exactly where it does not become the last. -/
theorem inserted_iff (h : s.IsList i (u ++ p :: v)) (ha : a ∉ u ++ p :: v)
    (hu : k.Unlinked s a) : Inserted k s i u p a v ↔ v ≠ [] := by
  have hp := h.seed p (by simp)
  obtain ⟨hvars, hhdr⟩ := insert_congr hp hu
  constructor
  · rintro h' rfl
    refine Lists.not_linked_insert2 h ha (h'.isList.congr hvars.symm (fun b => ?_))
    obtain ⟨hprev, hnext, hseed⟩ := hhdr b
    exact ⟨hprev.symm, hnext.symm, hseed.symm⟩
  · intro hv
    have hlist : (k.insert s i p a).IsList i (u ++ p :: a :: v) :=
      (h.insert2 ha hv).congr hvars hhdr
    refine ⟨hlist, ?_, fun b hb hub => isList_add hlist hb hub⟩
    rw [hvars, Lists.insert2_vars hp, Function.update_self]

/-- A new list to which the nodes of `l` have been appended. -/
def appended (l : List Nat) : Lists Unit Nat :=
  l.foldl (fun s a => s.add () a) (EdObjList.new (fun _ => 1))

lemma isList_appended (hd : l.Nodup) {s : Lists ι ν} (h : s.IsList i u) (hdis : u.Disjoint l) :
    (l.foldl (fun s a => s.add i a) s).IsList i (u ++ l) := by
  induction l generalizing s u with
  | nil => rwa [List.append_nil]
  | cons a l ih =>
    rw [List.nodup_cons] at hd
    rw [List.disjoint_cons_right] at hdis
    have hdis' : (u ++ [a]).Disjoint l :=
      List.disjoint_append_left.mpr ⟨hdis.2, List.singleton_disjoint.mpr hd.1⟩
    have h' := ih hd.2 (h.add hdis.1) hdis'
    rwa [List.append_assoc] at h'

theorem inserted_middle : Inserted .edObjList (appended [0, 1]) () [] 0 2 [1] ∧
    Inserted .esList (appended [0, 1, 2]) () [0] 1 3 [2] := by
  have hl : (appended [0, 1]).IsList () ([] ++ 0 :: [1]) :=
    isList_appended (u := []) (by decide) ⟨Linked.nil, by simp, rfl⟩ (by simp)
  have hl' : (appended [0, 1, 2]).IsList () ([0] ++ 1 :: [2]) :=
    isList_appended (u := []) (by decide) ⟨Linked.nil, by simp, rfl⟩ (by simp)
  exact ⟨(inserted_iff (k := .edObjList) hl (by decide) ⟨rfl, rfl⟩).mpr (by decide),
    (inserted_iff (k := .esList) hl' (by decide) trivial).mpr (by decide)⟩

/-- Behind the only node the new one is lost, in each of the classes. -/
theorem not_inserted_last : (appended [0]).IsList () [0] ∧
    ¬ ∃ k : ListClass, k.Unlinked (appended [0]) 1 → k.Inserted (appended [0]) () [] 0 1 [] := by
  refine ⟨isList_appended (u := []) (by decide) ⟨Linked.nil, by simp, rfl⟩ (by simp), ?_⟩
  rintro ⟨k, hk⟩
  have hunlinked : k.Unlinked (appended [0]) 1 := by
    cases k with
    | edObjList => exact ⟨rfl, rfl⟩
    | esList => trivial
    | esList2 => trivial
  have htail := (hk hunlinked).isList.linked.tail_eq
  have hlast : ((k.insert (appended [0]) () 0 1).vars ()).mptail = some 0 := by
    cases k <;> rfl
  rw [hlast] at htail
  exact absurd htail (by decide)

end ListClass

end EdNio.Container
