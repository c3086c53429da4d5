import EdNio.Container.EsList
import Mathlib.Algebra.Group.Nat.Defs

/-!
# EdObjList

Any number of lists over one memory of nodes. A node belongs to the list whose seed it has.
-/

namespace EdNio.Container.EdObjList
open LinkedList

variable {ι ν : Type}

/-- The header that `allocObj` gives a node. -/
def allocObj : ListHdr ι ν where
  prev := none
  next := none
  seed := 0
  list := none

/-- New lists, before any of the nodes has been used. -/
def new (mSeed : ι → UInt32) : Lists ι ν where
  hdr _ := allocObj
  vars i := ⟨none, none, mSeed i, 0⟩

/-- The lists hold the sequences `q`. -/
structure Represents (s : Lists ι ν) (q : ι → List ν) : Prop where
  isList : ∀ i, s.IsList i (q i)
  apart : ∀ i j a, a ∈ q i → a ∈ q j → i = j
  owner : ∀ i, ∀ a ∈ q i, (s.hdr a).list = some i
  free : ∀ a, (∀ i, a ∉ q i) → (s.hdr a).seed = 0 ∧ (s.hdr a).list = none

/-- The seeds tell the lists apart. -/
structure Seeds (s : Lists ι ν) : Prop where
  ne_zero : ∀ i, (s.vars i).mSeed ≠ 0
  injective : ∀ i j, (s.vars i).mSeed = (s.vars j).mSeed → i = j

variable {s : Lists ι ν} {q : ι → List ν} {i : ι} {a : ν}

lemma Represents.new (mSeed : ι → UInt32) :
    Represents (EdObjList.new mSeed : Lists ι ν) (fun _ => []) where
  isList i := ⟨Linked.nil, by simp, rfl⟩
  apart := by simp
  owner := by simp
  free a _ := ⟨rfl, rfl⟩

lemma Represents.disjoint (h : Represents s q) {i j : ι} (hij : j ≠ i) :
    (q i).Disjoint (q j) := fun _ hi hj => hij (h.apart j i _ hj hi)

/-- A node on a list has its seed. -/
lemma Represents.mem_iff_seed (h : Represents s q) (hs : Seeds s) :
    a ∈ q i ↔ (s.hdr a).seed = (s.vars i).mSeed := by
  refine ⟨(h.isList i).seed a, fun hseed => ?_⟩
  by_cases hfree : ∀ j, a ∉ q j
  · exact absurd (hseed.symm.trans (h.free a hfree).1) (hs.ne_zero i)
  · simp only [not_forall, not_not] at hfree
    obtain ⟨j, hj⟩ := hfree
    rwa [hs.injective i j (hseed.symm.trans ((h.isList j).seed a hj))]

lemma Represents.mem_iff_ne_zero (h : Represents s q) (hs : Seeds s) :
    (∃ i, a ∈ q i) ↔ (s.hdr a).seed ≠ 0 := by
  constructor
  · rintro ⟨i, hi⟩
    rw [(h.isList i).seed a hi]
    exact hs.ne_zero i
  · intro hseed
    by_contra hfree
    exact hseed (h.free a (not_exists.mp hfree)).1

lemma Represents.mem_iff_list (h : Represents s q) :
    (∃ i, a ∈ q i) ↔ (s.hdr a).list ≠ none := by
  constructor
  · rintro ⟨i, hi⟩
    rw [h.owner i a hi]
    exact Option.some_ne_none i
  · intro hlist
    by_contra hfree
    exact hlist (h.free a (not_exists.mp hfree)).2

variable [DecidableEq ι] [DecidableEq ν]

def pushBack (s : Lists ι ν) (this : ι) (objptr : ν) : Lists ι ν :=
  if (s.hdr objptr).seed ≠ 0 ∨ (s.hdr objptr).list ≠ none then s else s.add this objptr

def remove (s : Lists ι ν) (this : ι) (objptr : ν) : Lists ι ν := s.del this objptr

def popFront (s : Lists ι ν) (this : ι) : Option ν × Lists ι ν := s.popHead this

inductive ListOp (ι ν : Type)
  | pushBack (i : ι) (a : ν)
  | remove (i : ι) (a : ν)
  | popFront (i : ι)

/-- The node that a call returns. -/
def exec (s : Lists ι ν) : ListOp ι ν → Option ν × Lists ι ν
  | .pushBack i a => (none, pushBack s i a)
  | .remove i a => (none, remove s i a)
  | .popFront i => popFront s i

def execs (s : Lists ι ν) : List (ListOp ι ν) → List (Option ν) × Lists ι ν
  | [] => ([], s)
  | op :: ops => ((exec s op).1 :: (execs (exec s op).2 ops).1, (execs (exec s op).2 ops).2)

open Classical in
/-- The calls on sequences of nodes. -/
noncomputable def spec (q : ι → List ν) : ListOp ι ν → Option ν × (ι → List ν)
  | .pushBack i a =>
    (none, if ∃ j, a ∈ q j then q else Function.update q i (q i ++ [a]))
  | .remove i a => (none, Function.update q i ((q i).erase a))
  | .popFront i => ((q i).head?, Function.update q i (q i).tail)

noncomputable def specs (q : ι → List ν) : List (ListOp ι ν) → List (Option ν) × (ι → List ν)
  | [] => ([], q)
  | op :: ops => ((spec q op).1 :: (specs (spec q op).2 ops).1, (specs (spec q op).2 ops).2)

/-- A node that is on a list already is not appended. -/
lemma Represents.pushBack_rejected (h : Represents s q) (ha : ∃ j, a ∈ q j) :
    pushBack s i a = s :=
  if_pos (.inr (h.mem_iff_list.mp ha))

lemma Represents.remove_rejected (h : Represents s q) (hs : Seeds s) (ha : a ∉ q i) :
    remove s i a = s :=
  if_pos (fun hseed => ha ((h.mem_iff_seed hs).mpr hseed))

lemma Represents.pushBack (h : Represents s q) (ha : ∀ j, a ∉ q j) (hs : Seeds s) :
    Represents (pushBack s i a) (Function.update q i (q i ++ [a])) ∧
      Seeds (EdObjList.pushBack s i a) := by
  obtain ⟨hseed, hlist⟩ := h.free a ha
  have htail := (h.isList i).mptail_ne (ha i)
  have hadd : EdObjList.pushBack s i a = s.add i a := by
    rw [EdObjList.pushBack, if_neg]
    simp [hseed, hlist]
  have hmem : ∀ j b, b ∈ Function.update q i (q i ++ [a]) j ↔ b ∈ q j ∨ j = i ∧ b = a := by
    intro j b
    by_cases hj : j = i
    · subst hj
      simp
    · simp [hj]
  rw [hadd]
  refine ⟨⟨fun j => ?_, fun j k b hb hb' => ?_, fun j b hb => ?_, fun b hb => ?_⟩,
    ⟨fun j => ?_, fun j k hjk => ?_⟩⟩
  · by_cases hj : j = i
    · subst hj
      rw [Function.update_self]
      exact (h.isList j).add (ha j)
    · rw [Function.update_of_ne hj]
      exact (h.isList i).add_of_disjoint (h.isList j) hj (ha i) (ha j) (h.disjoint hj)
  · rw [hmem] at hb hb'
    rcases hb with hb | ⟨hj, rfl⟩
    · rcases hb' with hb' | ⟨-, rfl⟩
      · exact h.apart j k b hb hb'
      · exact absurd hb (ha j)
    · rcases hb' with hb' | ⟨hk, -⟩
      · exact absurd hb' (ha k)
      · exact hj.trans hk.symm
  · rw [Lists.add_list htail]
    split <;> rename_i hba
    · rcases (hmem j b).mp hb with hb | ⟨rfl, -⟩
      · exact absurd (hba ▸ hb) (ha j)
      · rfl
    · rcases (hmem j b).mp hb with hb | ⟨-, hb⟩
      · exact h.owner j b hb
      · exact absurd hb hba
  · have hba : b ≠ a := fun hba => hb i ((hmem i b).mpr (.inr ⟨rfl, hba⟩))
    rw [Lists.add_list htail, Lists.add_seed htail, if_neg hba, if_neg hba]
    exact h.free b (fun j hj => hb j ((hmem j b).mpr (.inl hj)))
  · rw [Lists.add_mSeed htail]
    exact hs.ne_zero j
  · rw [Lists.add_mSeed htail, Lists.add_mSeed htail] at hjk
    exact hs.injective j k hjk

lemma Represents.remove (h : Represents s q) (ha : a ∈ q i) (hs : Seeds s) :
    Represents (remove s i a) (Function.update q i ((q i).erase a)) ∧
      Seeds (EdObjList.remove s i a) := by
  have hseed := (h.isList i).seed a ha
  have hnodup := (h.isList i).linked.nodup
  obtain ⟨u, v, -, hq, herase⟩ := List.exists_erase_eq ha
  have hmem : ∀ j b, b ∈ Function.update q i ((q i).erase a) j ↔ b ∈ q j ∧ b ≠ a := by
    intro j b
    by_cases hj : j = i
    · subst hj
      rw [Function.update_self, hnodup.mem_erase_iff, and_comm]
    · rw [Function.update_of_ne hj, iff_self_and]
      rintro hb rfl
      exact hj (h.apart j i b hb ha)
  have hi := h.isList i
  rw [hq] at hi
  refine ⟨⟨fun j => ?_, fun j k b hb hb' => ?_, fun j b hb => ?_, fun b hb => ?_⟩,
    ⟨fun j => ?_, fun j k hjk => ?_⟩⟩
  · by_cases hj : j = i
    · subst hj
      rw [Function.update_self, herase]
      exact hi.del
    · rw [Function.update_of_ne hj]
      exact hi.del_of_disjoint (h.isList j) hj (hq ▸ h.disjoint hj)
  · exact h.apart j k b ((hmem j b).mp hb).1 ((hmem k b).mp hb').1
  · obtain ⟨hbj, hba⟩ := (hmem j b).mp hb
    rw [EdObjList.remove, Lists.del_list hseed, if_neg hba]
    exact h.owner j b hbj
  · rw [EdObjList.remove, Lists.del_list hseed, Lists.del_seed hseed]
    by_cases hba : b = a
    · rw [if_pos hba, if_pos hba]
      exact ⟨rfl, rfl⟩
    · rw [if_neg hba, if_neg hba]
      exact h.free b (fun j hj => hb j ((hmem j b).mpr ⟨hj, hba⟩))
  · rw [EdObjList.remove, Lists.del_mSeed hseed]
    exact hs.ne_zero j
  · rw [EdObjList.remove, Lists.del_mSeed hseed, Lists.del_mSeed hseed] at hjk
    exact hs.injective j k hjk

lemma Represents.popFront_nil (h : Represents s q) (hq : q i = []) :
    popFront s i = (none, s) :=
  (hq ▸ h.isList i).popHead_nil

lemma Represents.popFront_cons (h : Represents s q) {l : List ν} (hq : q i = a :: l) :
    popFront s i = (some a, EdObjList.remove s i a) :=
  (hq ▸ h.isList i).popHead_cons.1

/-- Each call does what it does to the sequences. -/
lemma Represents.exec (h : Represents s q) (hs : Seeds s) (op : ListOp ι ν) :
    (exec s op).1 = (spec q op).1 ∧ Represents (EdObjList.exec s op).2 (spec q op).2 ∧
      Seeds (EdObjList.exec s op).2 := by
  cases op with
  | pushBack i a =>
    by_cases ha : ∃ j, a ∈ q j
    · simp only [EdObjList.exec, spec, h.pushBack_rejected ha, if_pos ha]
      exact ⟨trivial, h, hs⟩
    · simp only [EdObjList.exec, spec, if_neg ha]
      exact ⟨trivial, h.pushBack (not_exists.mp ha) hs⟩
  | remove i a =>
    by_cases ha : a ∈ q i
    · exact ⟨rfl, h.remove ha hs⟩
    · simp only [EdObjList.exec, spec, h.remove_rejected hs ha, List.erase_of_not_mem ha,
        Function.update_eq_self]
      exact ⟨trivial, h, hs⟩
  | popFront i =>
    cases hq : q i with
    | nil =>
      simp only [EdObjList.exec, spec, h.popFront_nil hq, hq, List.head?_nil, List.tail_nil]
      rw [← hq, Function.update_eq_self]
      exact ⟨trivial, h, hs⟩
    | cons a l =>
      have hr := h.remove (i := i) (a := a) (hq ▸ List.mem_cons_self) hs
      simp only [EdObjList.exec, spec, h.popFront_cons hq, hq, List.head?_cons, List.tail_cons]
      rw [hq, List.erase_cons_head] at hr
      exact ⟨trivial, hr⟩

lemma Represents.execs (ops : List (ListOp ι ν)) {s : Lists ι ν} {q : ι → List ν}
    (h : Represents s q) (hs : Seeds s) :
    (execs s ops).1 = (specs q ops).1 ∧ Represents (EdObjList.execs s ops).2 (specs q ops).2 ∧
      Seeds (EdObjList.execs s ops).2 := by
  induction ops generalizing s q with
  | nil => exact ⟨rfl, h, hs⟩
  | cons op ops ih =>
    obtain ⟨hout, h₁, hs₁⟩ := h.exec hs op
    obtain ⟨houts, h₂, hs₂⟩ := ih h₁ hs₁
    exact ⟨by rw [EdObjList.execs, specs, hout, houts], h₂, hs₂⟩

/-- The sequences are those of the lists in the memory, and only calls that they allow change
it. -/
structure Kept (s : Lists ι ν) (q : ι → List ν) : Prop where
  forward : ∀ i, Segment (fun a => (s.hdr a).next) (s.vars i).mphead (q i) none
  backward : ∀ i, Segment (fun a => (s.hdr a).prev) (s.vars i).mptail (q i).reverse none
  size : ∀ i, (s.vars i).mSize.toNat = (q i).length % 2 ^ 32
  apart : ∀ i j a, a ∈ q i → a ∈ q j → i = j
  nodup : ∀ i, (q i).Nodup
  seed : ∀ a, (s.hdr a).seed ≠ 0 ↔ ∃ i, a ∈ q i
  list : ∀ a, (s.hdr a).list ≠ none ↔ ∃ i, a ∈ q i
  pushBack : ∀ i a, (∃ j, a ∈ q j) → pushBack s i a = s
  remove : ∀ i a, a ∉ q i → remove s i a = s
  popFront : ∀ i, q i = [] → popFront s i = (none, s)

lemma Represents.kept (h : Represents s q) (hs : Seeds s) : Kept s q where
  forward i := (h.isList i).linked.forward
  backward i := (h.isList i).linked.backward
  size i := by
    rw [(h.isList i).size, UInt32.toNat_ofNat']
  apart := h.apart
  nodup i := (h.isList i).linked.nodup
  seed _ := (h.mem_iff_ne_zero hs).symm
  list _ := h.mem_iff_list.symm
  pushBack _ _ ha := h.pushBack_rejected ha
  remove _ _ ha := h.remove_rejected hs ha
  popFront _ hq := h.popFront_nil hq

/-- Any calls on lists with different seeds return what they do on sequences, and leave these
sequences in the memory. -/
theorem lists_are_sequences (mSeed : ι → UInt32) (hzero : ∀ i, mSeed i ≠ 0)
    (hinj : ∀ i j, mSeed i = mSeed j → i = j) (ops : List (ListOp ι ν)) :
    (execs (new mSeed) ops).1 = (specs (fun _ => []) ops).1 ∧
      Kept (execs (new mSeed) ops).2 (specs (fun _ => []) ops).2 := by
  obtain ⟨houts, h, hs⟩ := (Represents.new mSeed).execs ops ⟨hzero, hinj⟩
  exact ⟨houts, h.kept hs⟩

theorem lists_are_sequences_two :
    (execs (new (fun i : Bool => if i then 1 else 2)) [.pushBack true 5, .pushBack false 5,
        .remove false 5, .popFront true] : List (Option Nat) × Lists Bool Nat).1 =
      (specs (fun _ => []) [.pushBack true 5, .pushBack false 5, .remove false 5,
        .popFront true]).1 ∧
    Kept (execs (new (fun i : Bool => if i then 1 else 2)) [.pushBack true 5, .pushBack false 5,
        .remove false 5, .popFront true]).2
      (specs (fun _ => []) [.pushBack true 5, .pushBack false 5, .remove false 5,
        .popFront true]).2 :=
  lists_are_sequences (fun i : Bool => if i then 1 else 2) (by decide) (by decide)
    [.pushBack true 5, .pushBack false 5, .remove false 5, .popFront true]

/-- Appending nodes one after the other. -/
lemma specs_pushBack (i : ι) (l u : List ν) (h : (u ++ l).Nodup) :
    (specs (Function.update (fun _ => []) i u) (l.map (.pushBack i))).2 =
      Function.update (fun _ => []) i (u ++ l) := by
  induction l generalizing u with
  | nil => rw [List.append_nil]; rfl
  | cons a l ih =>
    have ha : ¬ ∃ j, a ∈ Function.update (fun _ : ι => ([] : List ν)) i u j := by
      rintro ⟨j, hj⟩
      by_cases hji : j = i
      · subst hji
        rw [Function.update_self] at hj
        exact (List.nodup_append'.mp h).2.2 hj List.mem_cons_self
      · rw [Function.update_of_ne hji] at hj
        simp at hj
    have ih' := ih (u ++ [a]) (by rwa [List.append_assoc, List.singleton_append])
    rw [List.append_assoc, List.singleton_append] at ih'
    simp only [List.map_cons, specs, spec, if_neg ha, Function.update_self, Function.update_idem]
    exact ih'

/-- A single list after `n` new nodes have been appended. -/
def appended (n : Nat) : Lists Unit Nat :=
  (execs (new (fun _ => 1)) ((List.range n).map (.pushBack ()))).2

lemma kept_appended (n : Nat) : Kept (appended n) (fun _ => List.range n) := by
  have hnew : Represents (new (fun _ => 1) : Lists Unit Nat) (fun _ => []) := .new _
  obtain ⟨-, hr, hs⟩ := hnew.execs ((List.range n).map (.pushBack ()))
    ⟨fun _ => by simp [new], fun _ _ _ => rfl⟩
  have hq := specs_pushBack () (List.range n) [] (by simpa using List.nodup_range)
  rw [Function.update_eq_self (f := fun _ : Unit => ([] : List Nat)), List.nil_append] at hq
  have hconst : Function.update (fun _ : Unit => ([] : List Nat)) () (List.range n) =
      fun _ => List.range n := by
    funext i
    rfl
  rw [hq, hconst] at hr
  exact hr.kept hs

/-- The size of a list is counted in 32 bits. -/
theorem not_size_eq_length : ∃ l : List Nat,
    Segment (fun a => ((appended (2 ^ 32)).hdr a).next) ((appended (2 ^ 32)).vars ()).mphead
      l none ∧
    l.length = 2 ^ 32 ∧ ((appended (2 ^ 32)).vars ()).mSize = 0 := by
  -- the number stays a variable, so that the list is not computed
  obtain ⟨n, hn⟩ : ∃ n, n = 2 ^ 32 := ⟨_, rfl⟩
  rw [← hn]
  have hk := kept_appended n
  refine ⟨List.range n, hk.forward (), List.length_range, ?_⟩
  apply UInt32.toNat_inj.mp
  rw [hk.size (), List.length_range, hn, Nat.mod_self]
  rfl

end EdNio.Container.EdObjList
