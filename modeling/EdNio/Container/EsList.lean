import EdNio.Library.LinkedList
import Mathlib.Logic.Function.Basic
import Mathlib.Tactic.SplitIfs

/-!
# EsList

The links that `EsList` and `EdObjList` keep in their nodes. Lists and nodes stand for their
addresses.
-/

namespace EdNio.Container
open LinkedList

structure ListHdr (ι ν : Type) where
  prev : Option ν
  next : Option ν
  seed : UInt32
  list : Option ι

structure ListVars (ν : Type) where
  mphead : Option ν
  mptail : Option ν
  mSeed : UInt32
  mSize : UInt32

/-- The memory of the lists and of the nodes. -/
structure Lists (ι ν : Type) where
  hdr : ν → ListHdr ι ν
  vars : ι → ListVars ν

namespace Lists

variable {ι ν : Type} [DecidableEq ι] [DecidableEq ν]

def setHdr (s : Lists ι ν) (a : ν) (f : ListHdr ι ν → ListHdr ι ν) : Lists ι ν :=
  { s with hdr := Function.update s.hdr a (f (s.hdr a)) }

def setVars (s : Lists ι ν) (i : ι) (f : ListVars ν → ListVars ν) : Lists ι ν :=
  { s with vars := Function.update s.vars i (f (s.vars i)) }

/-- `EsList::add`. -/
def add (s : Lists ι ν) (this : ι) (pnode : ν) : Lists ι ν :=
  let s := s.setHdr pnode (fun h => { h with seed := (s.vars this).mSeed })
  let s := match (s.vars this).mptail with
    | none =>
      let s := s.setVars this (fun v => { v with mphead := some pnode, mptail := some pnode })
      s.setHdr pnode (fun h => { h with prev := none, next := none })
    | some mptail =>
      let s := s.setHdr pnode (fun h => { h with prev := some mptail, next := none })
      let s := s.setHdr mptail (fun h => { h with next := some pnode })
      s.setVars this (fun v => { v with mptail := some pnode })
  let s := s.setHdr pnode (fun h => { h with list := some this })
  s.setVars this (fun v => { v with mSize := v.mSize + 1 })

/-- `EsList::del`. -/
def del (s : Lists ι ν) (this : ι) (pnode : ν) : Lists ι ν :=
  if (s.hdr pnode).seed ≠ (s.vars this).mSeed then s
  else
    let cp := (s.hdr pnode).prev
    let cn := (s.hdr pnode).next
    let s := match cp with
      | some cp => s.setHdr cp (fun h => { h with next := cn })
      | none =>
        let s := match cn with
          | some cn => s.setHdr cn (fun h => { h with prev := none })
          | none => s
        s.setVars this (fun v => { v with mphead := cn })
    let s := match cn with
      | some cn => s.setHdr cn (fun h => { h with prev := cp })
      | none =>
        let s := s.setVars this (fun v => { v with mptail := cp })
        match cp with
        | some cp => s.setHdr cp (fun h => { h with next := none })
        | none => s
    let s := s.setHdr pnode (fun h => { h with seed := 0, list := none })
    s.setVars this (fun v => { v with mSize := v.mSize - 1 })

/-- `EsList::pop_head`. -/
def popHead (s : Lists ι ν) (this : ι) : Option ν × Lists ι ν :=
  match (s.vars this).mphead with
  | some mphead => (some mphead, s.del this mphead)
  | none => (none, s)

variable {s : Lists ι ν} {i j : ι} {a b : ν} {l l' u v : List ν}

omit [DecidableEq ι] in
lemma setHdr_hdr (f : ListHdr ι ν → ListHdr ι ν) :
    (s.setHdr a f).hdr b = if a = b then f (s.hdr b) else s.hdr b := by
  by_cases hb : a = b
  · rw [hb, if_pos rfl]
    exact Function.update_self ..
  · rw [if_neg hb]
    exact Function.update_of_ne (Ne.symm hb) ..

/-- What `add` writes when the node is not the last of the list. -/
lemma add_eq (h : (s.vars i).mptail ≠ some a) : s.add i a =
    { hdr := fun b =>
        if b = a then ⟨(s.vars i).mptail, none, (s.vars i).mSeed, some i⟩
        else { s.hdr b with
          next := if (s.vars i).mptail = some b then some a else (s.hdr b).next }
      vars := Function.update s.vars i
        ⟨if (s.vars i).mptail = none then some a else (s.vars i).mphead, some a,
          (s.vars i).mSeed, (s.vars i).mSize + 1⟩ } := by
  unfold add
  simp only [setHdr, setVars]
  cases ht : (s.vars i).mptail with
  | none =>
    simp only [Function.update_self, Function.update_idem, reduceCtorEq, if_false, if_true,
      Lists.mk.injEq, and_true]
    funext b
    by_cases hb : b = a
    · subst hb
      rw [Function.update_self, if_pos rfl]
    · rw [Function.update_of_ne hb, if_neg hb]
  | some t =>
    have hta : t ≠ a := by
      rintro rfl
      exact h ht
    simp only [Function.update_self, Function.update_idem, reduceCtorEq, if_false,
      Lists.mk.injEq, and_true]
    funext b
    by_cases hb : b = a
    · subst hb
      simp [Function.update_of_ne hta.symm]
    · by_cases hbt : b = t
      · subst hbt
        simp [hb]
      · simp [Function.update_of_ne hbt, hb, Ne.symm hbt]

lemma del_hdr (h : (s.hdr a).seed = (s.vars i).mSeed) (b : ν) : (s.del i a).hdr b =
    { prev := if (s.hdr a).next = some b then (s.hdr a).prev else (s.hdr b).prev
      next := if (s.hdr a).prev = some b then (s.hdr a).next else (s.hdr b).next
      seed := if b = a then 0 else (s.hdr b).seed
      list := if b = a then none else (s.hdr b).list } := by
  have hvars : ∀ (t : Lists ι ν) f, (t.setVars i f).hdr = t.hdr := fun _ _ => rfl
  unfold del
  rw [if_neg (not_not_intro h)]
  cases (s.hdr a).prev with
  | none =>
    cases (s.hdr a).next with
    | none =>
      simp only [hvars, setHdr_hdr, @eq_comm _ b, reduceCtorEq, if_false]
      split_ifs <;> rfl
    | some n =>
      simp only [hvars, setHdr_hdr, @eq_comm _ b, Option.some.injEq, reduceCtorEq, if_false]
      split_ifs <;> rfl
  | some p =>
    cases (s.hdr a).next with
    | none =>
      simp only [hvars, setHdr_hdr, @eq_comm _ b, Option.some.injEq, reduceCtorEq, if_false]
      split_ifs <;> rfl
    | some n =>
      simp only [hvars, setHdr_hdr, @eq_comm _ b, Option.some.injEq]
      split_ifs <;> rfl

lemma del_vars (h : (s.hdr a).seed = (s.vars i).mSeed) : (s.del i a).vars =
    Function.update s.vars i
      ⟨if (s.hdr a).prev = none then (s.hdr a).next else (s.vars i).mphead,
        if (s.hdr a).next = none then (s.hdr a).prev else (s.vars i).mptail,
        (s.vars i).mSeed, (s.vars i).mSize - 1⟩ := by
  unfold del
  rw [if_neg (not_not_intro h)]
  cases (s.hdr a).prev <;> cases (s.hdr a).next <;> simp [setHdr, setVars]

/-- What `del` writes. -/
lemma del_eq (h : (s.hdr a).seed = (s.vars i).mSeed) : s.del i a =
    { hdr := fun b =>
        { prev := if (s.hdr a).next = some b then (s.hdr a).prev else (s.hdr b).prev
          next := if (s.hdr a).prev = some b then (s.hdr a).next else (s.hdr b).next
          seed := if b = a then 0 else (s.hdr b).seed
          list := if b = a then none else (s.hdr b).list }
      vars := Function.update s.vars i
        ⟨if (s.hdr a).prev = none then (s.hdr a).next else (s.vars i).mphead,
          if (s.hdr a).next = none then (s.hdr a).prev else (s.vars i).mptail,
          (s.vars i).mSeed, (s.vars i).mSize - 1⟩ } := by
  rw [← del_vars h, ← funext (del_hdr h)]

lemma add_list (h : (s.vars i).mptail ≠ some a) (b : ν) :
    ((s.add i a).hdr b).list = if b = a then some i else (s.hdr b).list := by
  rw [add_eq h]
  by_cases hb : b = a <;> simp [hb]

lemma add_seed (h : (s.vars i).mptail ≠ some a) (b : ν) :
    ((s.add i a).hdr b).seed = if b = a then (s.vars i).mSeed else (s.hdr b).seed := by
  rw [add_eq h]
  by_cases hb : b = a <;> simp [hb]

lemma add_mSeed (h : (s.vars i).mptail ≠ some a) (j : ι) :
    ((s.add i a).vars j).mSeed = (s.vars j).mSeed := by
  rw [add_eq h]
  by_cases hj : j = i
  · simp [hj]
  · simp [hj]

lemma del_list (h : (s.hdr a).seed = (s.vars i).mSeed) (b : ν) :
    ((s.del i a).hdr b).list = if b = a then none else (s.hdr b).list := by
  rw [del_eq h]

lemma del_seed (h : (s.hdr a).seed = (s.vars i).mSeed) (b : ν) :
    ((s.del i a).hdr b).seed = if b = a then 0 else (s.hdr b).seed := by
  rw [del_eq h]

lemma del_mSeed (h : (s.hdr a).seed = (s.vars i).mSeed) (j : ι) :
    ((s.del i a).vars j).mSeed = (s.vars j).mSeed := by
  rw [del_eq h]
  by_cases hj : j = i
  · simp [hj]
  · simp [hj]

/-- The nodes of the list at `i` are those of `l`. -/
structure IsList (s : Lists ι ν) (i : ι) (l : List ν) : Prop where
  linked : Linked (fun a => (s.hdr a).prev) (fun a => (s.hdr a).next) (s.vars i).mphead
    (s.vars i).mptail l
  seed : ∀ a ∈ l, (s.hdr a).seed = (s.vars i).mSeed
  size : (s.vars i).mSize = UInt32.ofNat l.length

omit [DecidableEq ι] [DecidableEq ν] in
lemma IsList.mptail_ne (h : s.IsList i l) (ha : a ∉ l) : (s.vars i).mptail ≠ some a := by
  intro ht
  rw [h.linked.tail_eq] at ht
  exact ha (List.mem_of_getLast? ht)

lemma IsList.add (h : s.IsList i l) (ha : a ∉ l) : (s.add i a).IsList i (l ++ [a]) := by
  have hmem : ∀ b ∈ l, b ≠ a := by
    rintro b hb rfl
    exact ha hb
  rw [add_eq (h.mptail_ne ha)]
  constructor
  · simp only [Function.update_self]
    refine h.linked.append (fun b hb => ?_) (fun b hb => ?_) ?_ ?_ rfl rfl
    · simp only [hmem b hb, if_false]
    · simp only [hmem b hb, if_false]
    · simp only [if_true]
    · simp only [if_true]
  · intro b hb
    rw [List.mem_append, List.mem_singleton] at hb
    simp only [Function.update_self]
    rcases hb with hb | rfl
    · simp only [hmem b hb, if_false, h.seed b hb]
    · simp only [if_true]
  · simp only [Function.update_self, h.size, List.length_append, List.length_singleton]
    exact (UInt32.ofNat_add _ _).symm

/-- `add` leaves the other lists alone. -/
lemma IsList.add_of_disjoint (h : s.IsList i l) (h' : s.IsList j l') (hij : j ≠ i) (ha : a ∉ l)
    (ha' : a ∉ l') (hd : l.Disjoint l') : (s.add i a).IsList j l' := by
  have htail : ∀ b ∈ l', (s.vars i).mptail ≠ some b := fun b hb =>
    h.mptail_ne (fun hb' => hd hb' hb)
  have hmem : ∀ b ∈ l', b ≠ a := by
    rintro b hb rfl
    exact ha' hb
  rw [add_eq (h.mptail_ne ha)]
  constructor
  · simp only [Function.update_of_ne hij]
    refine h'.linked.congr (fun b hb => ?_) (fun b hb => ?_)
    · simp only [hmem b hb, if_false]
    · simp only [hmem b hb, htail b hb, if_false]
  · intro b hb
    simp only [Function.update_of_ne hij, hmem b hb, if_false, h'.seed b hb]
  · simp only [Function.update_of_ne hij, h'.size]

lemma IsList.del (h : s.IsList i (u ++ a :: v)) : (s.del i a).IsList i (u ++ v) := by
  have hd := h.linked.nodup
  have hmem : ∀ b ∈ u ++ v, b ≠ a := by
    rintro b hb rfl
    rw [List.nodup_middle, List.nodup_cons] at hd
    exact hd.1 hb
  rw [del_eq (h.seed a (by simp))]
  constructor
  · simp only [Function.update_self]
    exact h.linked.unlink (fun b hb => rfl) (fun b hb => rfl) rfl rfl
  · intro b hb
    simp only [Function.update_self, hmem b hb, if_false]
    exact h.seed b (by simpa using (List.mem_append.mp hb).imp_right .inr)
  · simp only [Function.update_self, h.size, List.length_append, List.length_cons]
    rw [← Nat.add_assoc, UInt32.ofNat_add, UInt32.ofNat_one, UInt32.add_sub_cancel]

/-- `del` leaves the other lists alone. -/
lemma IsList.del_of_disjoint (h : s.IsList i (u ++ a :: v)) (h' : s.IsList j l') (hij : j ≠ i)
    (hd : (u ++ a :: v).Disjoint l') : (s.del i a).IsList j l' := by
  obtain ⟨hnext, hprev⟩ := h.linked.links
  have hp : ∀ b ∈ l', (s.hdr a).prev ≠ some b := by
    intro b hb hp
    rw [hprev] at hp
    exact hd (List.mem_append_left _ (List.mem_of_getLast? hp)) hb
  have hn : ∀ b ∈ l', (s.hdr a).next ≠ some b := by
    intro b hb hn
    rw [hnext] at hn
    exact hd (List.mem_append_right _ (List.mem_cons_of_mem _ (List.mem_of_head? hn))) hb
  have hmem : ∀ b ∈ l', b ≠ a := by
    rintro b hb rfl
    exact hd (by simp) hb
  rw [del_eq (h.seed a (by simp))]
  constructor
  · simp only [Function.update_of_ne hij]
    refine h'.linked.congr (fun b hb => ?_) (fun b hb => ?_)
    · simp only [hn b hb, if_false]
    · simp only [hp b hb, if_false]
  · intro b hb
    simp only [Function.update_of_ne hij, hmem b hb, if_false, h'.seed b hb]
  · simp only [Function.update_of_ne hij, h'.size]

lemma IsList.popHead_nil (h : s.IsList i []) : s.popHead i = (none, s) := by
  have hh := h.linked.head_eq
  rw [List.head?_nil] at hh
  rw [popHead, hh]

lemma IsList.popHead_cons (h : s.IsList i (a :: l)) :
    s.popHead i = (some a, s.del i a) ∧ (s.del i a).IsList i l := by
  have hh := h.linked.head_eq
  rw [List.head?_cons] at hh
  refine ⟨by rw [popHead, hh], ?_⟩
  exact IsList.del (u := []) h

end Lists

end EdNio.Container
