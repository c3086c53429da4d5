import EdNio.Container.ClearedList
import EdNio.Container.ListInsert
import EdNio.Library.Transition

/-!
# Runs of the list classes

`EdObjList`, `EsList` and `EsList2` with all the calls that change their lists. Only `EdObjList`
looks whether a node is on a list already, none of them moves the tail behind a node that is
inserted last, and the `clear` of `EdObjList` takes away the seed of its list. Runs without such
calls hold sequences of nodes.
-/

namespace EdNio.Container
open LinkedList Transition EdObjList

namespace Lists

variable {ι ν : Type} [DecidableEq ι] [DecidableEq ν]

/-- `EsList2::del`. -/
def del2 (s : Lists ι ν) (this : ι) (pnode : ν) : Lists ι ν :=
  if (s.hdr pnode).seed ≠ (s.vars this).mSeed then s
  else
    let cp := (s.hdr pnode).prev
    let cn := (s.hdr pnode).next
    let s := match cp with
      | some cp => s.setHdr cp (fun h => { h with next := cn })
      | none =>
        let s := match cn with
          | some cn => s.setHdr cn (fun h => { h with prev := none })
          | none => s
        s.setVars this (fun v => { v with mphead := cn })
    let s := match cn with
      | some cn => s.setHdr cn (fun h => { h with prev := cp })
      | none =>
        let s := s.setVars this (fun v => { v with mptail := cp })
        match cp with
        | some cp => s.setHdr cp (fun h => { h with next := none })
        | none => s
    let s := s.setHdr pnode (fun h => { h with seed := 0 })
    s.setVars this (fun v => { v with mSize := v.mSize - 1 })

/-- `EsList2::pop_head`. -/
def popHead2 (s : Lists ι ν) (this : ι) : Option ν × Lists ι ν :=
  match (s.vars this).mphead with
  | some mphead => (some mphead, s.del2 this mphead)
  | none => (none, s)

/-- `EsList::pop_tail`. -/
def popTail (s : Lists ι ν) (this : ι) : Option ν × Lists ι ν :=
  match (s.vars this).mptail with
  | some mptail => (some mptail, s.del this mptail)
  | none => (none, s)

/-- `EsList2::pop_tail`. -/
def popTail2 (s : Lists ι ν) (this : ι) : Option ν × Lists ι ν :=
  match (s.vars this).mptail with
  | some mptail => (some mptail, s.del2 this mptail)
  | none => (none, s)

end Lists

/-- The calls that change a list; `nodeRemove` is the `remove` of an `EsList::Node`. -/
inductive ListCall (ι ν : Type)
  | add (i : ι) (a : ν)
  | insert (i : ι) (p a : ν)
  | del (i : ι) (a : ν)
  | popHead (i : ι)
  | popTail (i : ι)
  | nodeRemove (a : ν)
  | clear (i : ι)
deriving DecidableEq, Repr

namespace ListClass

variable {ι ν : Type} [DecidableEq ι] [DecidableEq ν]

/-- `remove` of `EdObjList` and `del` of the others. -/
def del (s : Lists ι ν) (this : ι) (a : ν) : ListClass → Lists ι ν
  | edObjList => EdObjList.remove s this a
  | esList => s.del this a
  | esList2 => s.del2 this a

/-- `pop_front` of `EdObjList` and `pop_head` of the others. -/
def popHead (s : Lists ι ν) (this : ι) : ListClass → Option ν × Lists ι ν
  | edObjList => EdObjList.popFront s this
  | esList => s.popHead this
  | esList2 => s.popHead2 this

/-- `pop_back` of `EdObjList` does not compile. -/
def popTail (s : Lists ι ν) (this : ι) : ListClass → Option (Option ν × Lists ι ν)
  | edObjList => none
  | esList => some (s.popTail this)
  | esList2 => some (s.popTail2 this)

/-- The calls of a class. -/
def has : ListClass → ListCall ι ν → Bool
  | edObjList, .popTail _ => false
  | edObjList, .nodeRemove _ => false
  | edObjList, _ => true
  | esList2, .nodeRemove _ => false
  | _, .clear _ => false
  | _, _ => true

/-- The node that a call returns, and the memory after it. The `remove` of a node without a list
is a call through NULL. -/
def exec (k : ListClass) (s : Lists ι ν) : ListCall ι ν → Option (Option ν × Lists ι ν)
  | .add i a => some (none, k.add s i a)
  | .insert i p a => some (none, k.insert s i p a)
  | .del i a => some (none, k.del s i a)
  | .popHead i => some (k.popHead s i)
  | .popTail i => k.popTail s i
  | .nodeRemove a =>
    match k with
    | esList => (s.hdr a).list.map (fun i => (none, s.del i a))
    | _ => none
  | .clear i =>
    match k with
    | edObjList => some (none, EdObjList.clear s i)
    | _ => none

/-- Whether a node that is on a list already is turned away. -/
def rejects : ListClass → Bool
  | edObjList => true
  | esList => false
  | esList2 => false

/-- The calls that keep the lists: a node that is on a list is not given to a class that would
link it again, a node is not inserted behind the last one, and no list is cleared. -/
def keeps (k : ListClass) (s : Lists ι ν) : ListCall ι ν → Bool
  | .add _ a => k.rejects || (s.hdr a).seed = 0
  | .insert i p a => (s.hdr p).seed ≠ (s.vars i).mSeed ||
    if (s.hdr a).seed = 0 then (s.hdr p).next.isSome else k.rejects
  | .clear _ => false
  | _ => true

/-- The runs of lists with the seeds `mSeed`, from new lists and new nodes. -/
def lists (k : ListClass) (mSeed : ι → UInt32) : System (Lists ι ν) (ListCall ι ν) where
  init s := s = EdObjList.new mSeed
  step s c := (k.exec s c).map Prod.snd

end ListClass

/-- `a` behind `p`. -/
def insertAfter {ν : Type} [DecidableEq ν] (p a : ν) : List ν → List ν
  | [] => []
  | b :: l => if b = p then b :: a :: l else b :: insertAfter p a l

lemma insertAfter_append {ν : Type} [DecidableEq ν] {p a : ν} {u v : List ν} (hp : p ∉ u) :
    insertAfter p a (u ++ p :: v) = u ++ p :: a :: v := by
  induction u with
  | nil => simp [insertAfter]
  | cons b u ih =>
    rw [List.mem_cons, not_or] at hp
    rw [List.cons_append, insertAfter, if_neg (Ne.symm hp.1), ih hp.2, List.cons_append]

open Classical in
/-- What the calls do to sequences of nodes. -/
noncomputable def ListCall.spec {ι ν : Type} [DecidableEq ι] [DecidableEq ν]
    (q : ι → List ν) : ListCall ι ν → Option ν × (ι → List ν)
  | .add i a => (none, if ∃ j, a ∈ q j then q else Function.update q i (q i ++ [a]))
  | .insert i p a =>
    (none, if p ∈ q i ∧ ¬ ∃ j, a ∈ q j then Function.update q i (insertAfter p a (q i)) else q)
  | .del i a => (none, Function.update q i ((q i).erase a))
  | .popHead i => ((q i).head?, Function.update q i (q i).tail)
  | .popTail i => ((q i).getLast?, Function.update q i (q i).dropLast)
  | .nodeRemove a => (none, fun i => (q i).erase a)
  | .clear i => (none, Function.update q i [])

namespace Lists

variable {ι ν : Type} [DecidableEq ι] [DecidableEq ν]
variable {r s t : Lists ι ν} {i j : ι} {a b p : ν} {u v l l' : List ν}

/-- The same links, whatever the pointers of the nodes to their lists are. -/
def SameLinks (s t : Lists ι ν) : Prop :=
  t.vars = s.vars ∧ ∀ a, (t.hdr a).prev = (s.hdr a).prev ∧ (t.hdr a).next = (s.hdr a).next ∧
    (t.hdr a).seed = (s.hdr a).seed

omit [DecidableEq ι] [DecidableEq ν] in
lemma SameLinks.refl (s : Lists ι ν) : SameLinks s s := ⟨rfl, fun _ => ⟨rfl, rfl, rfl⟩⟩

omit [DecidableEq ι] [DecidableEq ν] in
lemma SameLinks.trans (h : SameLinks r s) (h' : SameLinks s t) : SameLinks r t := by
  refine ⟨h'.1.trans h.1, fun a => ?_⟩
  obtain ⟨hp, hn, hs⟩ := h.2 a
  obtain ⟨hp', hn', hs'⟩ := h'.2 a
  exact ⟨hp'.trans hp, hn'.trans hn, hs'.trans hs⟩

omit [DecidableEq ι] in
lemma sameLinks_setHdr (s : Lists ι ν) (a : ν) (o : Option ι) :
    SameLinks (s.setHdr a (fun h => { h with list := o })) s := by
  refine ⟨rfl, fun b => ?_⟩
  rw [setHdr_hdr]
  split <;> exact ⟨rfl, rfl, rfl⟩

lemma sameLinks_add2 (s : Lists ι ν) (i : ι) (a : ν) : SameLinks (s.add i a) (s.add2 i a) := by
  rw [add_eq_add2]
  exact sameLinks_setHdr _ _ _

lemma sameLinks_insert2 (s : Lists ι ν) (i : ι) (p a : ν) :
    SameLinks (s.insert i p a) (s.insert2 i p a) := by
  by_cases h : (s.hdr p).seed = (s.vars i).mSeed
  · rw [insert_eq_insert2 h]
    exact sameLinks_setHdr _ _ _
  · rw [insert, insert2, if_pos h, if_pos h]
    exact .refl s

lemma sameLinks_del2 (s : Lists ι ν) (i : ι) (a : ν) : SameLinks (s.del i a) (s.del2 i a) := by
  unfold del del2
  split
  · exact .refl s
  · have hvars : ∀ (t : Lists ι ν) f, (t.setVars i f).hdr = t.hdr := fun _ _ => rfl
    cases (s.hdr a).prev <;> cases (s.hdr a).next <;> refine ⟨rfl, fun b => ?_⟩ <;>
      simp only [hvars, setHdr_hdr] <;> split_ifs <;> exact ⟨rfl, rfl, rfl⟩

lemma SameLinks.add (h : SameLinks r s) (ha : (r.vars i).mptail ≠ some a) :
    SameLinks (r.add i a) (s.add i a) := by
  have ha' : (s.vars i).mptail ≠ some a := by rwa [h.1]
  rw [add_eq ha, add_eq ha', h.1]
  refine ⟨rfl, fun b => ?_⟩
  obtain ⟨hp, hn, hs⟩ := h.2 b
  dsimp only
  split
  · exact ⟨rfl, rfl, rfl⟩
  · exact ⟨hp, by dsimp only; rw [hn], hs⟩

lemma SameLinks.insert2 (h : SameLinks r s) (hpa : p ≠ a) (hna : (r.hdr p).next ≠ some a) :
    SameLinks (r.insert2 i p a) (s.insert2 i p a) := by
  obtain ⟨-, hnext, hseed⟩ := h.2 p
  by_cases hp : (r.hdr p).seed = (r.vars i).mSeed
  · have hp' : (s.hdr p).seed = (s.vars i).mSeed := by rwa [hseed, h.1]
    have hna' : (s.hdr p).next ≠ some a := by rwa [hnext]
    refine ⟨by rw [insert2_vars hp, insert2_vars hp', h.1], fun b => ?_⟩
    obtain ⟨hpb, hnb, hsb⟩ := h.2 b
    rw [insert2_hdr hp hpa hna, insert2_hdr hp' hpa hna']
    exact ⟨by dsimp only; rw [hnext, hpb], by dsimp only; rw [hnext, hnb],
      by dsimp only; rw [hsb, h.1]⟩
  · have hp' : (s.hdr p).seed ≠ (s.vars i).mSeed := by rwa [hseed, h.1]
    rw [Lists.insert2, Lists.insert2, if_pos hp, if_pos hp']
    exact h

lemma SameLinks.del (h : SameLinks r s) : SameLinks (r.del i a) (s.del i a) := by
  obtain ⟨hprev, hnext, hseed⟩ := h.2 a
  by_cases ha : (r.hdr a).seed = (r.vars i).mSeed
  · have ha' : (s.hdr a).seed = (s.vars i).mSeed := by rwa [hseed, h.1]
    rw [del_eq ha, del_eq ha', h.1, hprev, hnext]
    refine ⟨rfl, fun b => ?_⟩
    obtain ⟨hp, hn, hs⟩ := h.2 b
    exact ⟨by dsimp only; rw [hp], by dsimp only; rw [hn], by dsimp only; rw [hs]⟩
  · have ha' : (s.hdr a).seed ≠ (s.vars i).mSeed := by rwa [hseed, h.1]
    rw [Lists.del, Lists.del, if_pos ha, if_pos ha']
    exact h

lemma IsList.insert2_of_disjoint (h : s.IsList i (u ++ p :: v)) (h' : s.IsList j l') (hij : j ≠ i)
    (ha : a ∉ u ++ p :: v) (ha' : a ∉ l') (hd : (u ++ p :: v).Disjoint l') :
    (s.insert2 i p a).IsList j l' := by
  obtain ⟨hnp, -⟩ := h.linked.links
  have hseed := h.seed p (by simp)
  have hpa : p ≠ a := by
    rintro rfl
    exact ha (by simp)
  have hna : (s.hdr p).next ≠ some a := by
    intro hn
    rw [hnp] at hn
    exact ha (by simp [List.mem_of_head? hn])
  have hmem : ∀ b ∈ l', b ≠ a ∧ b ≠ p ∧ (s.hdr p).next ≠ some b := by
    refine fun b hb => ⟨?_, ?_, fun hn => ?_⟩
    · rintro rfl
      exact ha' hb
    · rintro rfl
      exact hd (by simp) hb
    · rw [hnp] at hn
      exact hd (by simp [List.mem_of_head? hn]) hb
  have hhdr := insert2_hdr hseed hpa hna
  constructor
  · rw [insert2_vars hseed, Function.update_of_ne hij]
    refine h'.linked.congr (fun b hb => ?_) (fun b hb => ?_)
    · simp only [hhdr, hmem b hb, if_false]
    · simp only [hhdr, hmem b hb, if_false]
  · intro b hb
    rw [insert2_vars hseed, Function.update_of_ne hij, hhdr]
    simp only [hmem b hb, if_false, h'.seed b hb]
  · rw [insert2_vars hseed, Function.update_of_ne hij]
    exact h'.size

end Lists

namespace EdObjList

variable {ι ν : Type} [DecidableEq ι] [DecidableEq ν]
variable {r s t : Lists ι ν} {q q' : ι → List ν} {i j : ι} {a p : ν} {ret : Option ν}
  {c : ListCall ι ν} {k : ListClass}

lemma Represents.add (h : Represents s q) (ha : ∀ j, a ∉ q j) (hs : Seeds s) :
    Represents (s.add i a) (Function.update q i (q i ++ [a])) ∧ Seeds (s.add i a) := by
  have hadd : EdObjList.pushBack s i a = s.add i a := by
    rw [EdObjList.pushBack, if_neg]
    simp [h.free a ha]
  rw [← hadd]
  exact h.pushBack ha hs

lemma Represents.insert (h : Represents s q) (hp : p ∈ q i) (hn : (s.hdr p).next ≠ none)
    (ha : ∀ j, a ∉ q j) (hs : Seeds s) :
    Represents (s.insert i p a) (Function.update q i (insertAfter p a (q i))) ∧
      Seeds (s.insert i p a) := by
  have hi := h.isList i
  have hseed := hi.seed p hp
  have hnodup := hi.linked.nodup
  have hfree := ha i
  obtain ⟨u, v, hq⟩ := List.append_of_mem hp
  rw [hq] at hi hnodup hfree
  obtain ⟨hnext, -⟩ := hi.linked.links
  have hv : v ≠ [] := by
    rintro rfl
    exact hn hnext
  have hpu : p ∉ u := by
    intro hpu
    exact (List.nodup_append'.mp hnodup).2.2 hpu List.mem_cons_self
  have hpa : p ≠ a := by
    rintro rfl
    exact ha i hp
  have hna : (s.hdr p).next ≠ some a := by
    intro hna
    rw [hnext] at hna
    exact hfree (by simp [List.mem_of_head? hna])
  have hlinks := Lists.sameLinks_insert2 s i p a
  have hhdr : ∀ b, ((s.insert i p a).hdr b).seed =
        (if b = a then (s.vars i).mSeed else (s.hdr b).seed) ∧
      ((s.insert i p a).hdr b).list = if b = a then some i else (s.hdr b).list := by
    intro b
    rw [Lists.insert_eq_insert2 hseed, Lists.setHdr_hdr, Lists.insert2_hdr hseed hpa hna]
    by_cases hba : b = a
    · simp [hba]
    · simp [hba, Ne.symm hba]
  have hvars : ∀ j, ((s.insert i p a).vars j).mSeed = (s.vars j).mSeed := by
    intro j
    rw [← hlinks.1, Lists.insert2_vars hseed]
    by_cases hj : j = i
    · simp [hj]
    · simp [hj]
  rw [hq, insertAfter_append hpu]
  have hmem : ∀ j b, b ∈ Function.update q i (u ++ p :: a :: v) j ↔ b ∈ q j ∨ j = i ∧ b = a := by
    intro j b
    by_cases hj : j = i
    · subst hj
      simp only [Function.update_self, hq, List.mem_append, List.mem_cons, true_and]
      tauto
    · simp [hj]
  refine ⟨⟨fun j => ?_, fun j l b hb hb' => ?_, fun j b hb => ?_, fun b hb => ?_⟩,
    ⟨fun j => ?_, fun j l hjl => ?_⟩⟩
  · by_cases hj : j = i
    · subst hj
      rw [Function.update_self]
      exact (hi.insert2 hfree hv).congr hlinks.1.symm (fun b =>
        ⟨(hlinks.2 b).1.symm, (hlinks.2 b).2.1.symm, (hlinks.2 b).2.2.symm⟩)
    · rw [Function.update_of_ne hj]
      have hdis : (u ++ p :: v).Disjoint (q j) := hq ▸ h.disjoint hj
      exact (hi.insert2_of_disjoint (h.isList j) hj hfree (ha j) hdis).congr hlinks.1.symm
        (fun b => ⟨(hlinks.2 b).1.symm, (hlinks.2 b).2.1.symm, (hlinks.2 b).2.2.symm⟩)
  · rw [hmem] at hb hb'
    rcases hb with hb | ⟨hj, rfl⟩
    · rcases hb' with hb' | ⟨-, rfl⟩
      · exact h.apart j l b hb hb'
      · exact absurd hb (ha j)
    · rcases hb' with hb' | ⟨hl, -⟩
      · exact absurd hb' (ha l)
      · exact hj.trans hl.symm
  · rw [(hhdr b).2]
    split <;> rename_i hba
    · rcases (hmem j b).mp hb with hb | ⟨rfl, -⟩
      · exact absurd (hba ▸ hb) (ha j)
      · rfl
    · rcases (hmem j b).mp hb with hb | ⟨-, hb⟩
      · exact h.owner j b hb
      · exact absurd hb hba
  · have hba : b ≠ a := fun hba => hb i ((hmem i b).mpr (.inr ⟨rfl, hba⟩))
    rw [(hhdr b).1, (hhdr b).2, if_neg hba, if_neg hba]
    exact h.free b (fun j hj => hb j ((hmem j b).mpr (.inl hj)))
  · rw [hvars]
    exact hs.ne_zero j
  · rw [hvars, hvars] at hjl
    exact hs.injective j l hjl

lemma Represents.popTail (h : Represents s q) (hs : Seeds s) :
    (s.popTail i).1 = (q i).getLast? ∧
      Represents (s.popTail i).2 (Function.update q i (q i).dropLast) ∧
      Seeds (s.popTail i).2 := by
  have htail := (h.isList i).linked.tail_eq
  rcases List.eq_nil_or_concat (q i) with hq | ⟨u, a, hq⟩
  · rw [hq, List.getLast?_nil] at htail
    have hpop : s.popTail i = (none, s) := by rw [Lists.popTail, htail]
    rw [hpop, hq, List.dropLast_nil, ← hq, Function.update_eq_self, hq]
    exact ⟨rfl, h, hs⟩
  · rw [List.concat_eq_append] at hq
    rw [hq, List.getLast?_concat] at htail
    have hpop : s.popTail i = (some a, s.del i a) := by rw [Lists.popTail, htail]
    have hnodup := (h.isList i).linked.nodup
    rw [hq] at hnodup
    have hau : a ∉ u := by
      intro hau
      exact (List.nodup_append'.mp hnodup).2.2 hau List.mem_cons_self
    have hr := h.remove (i := i) (a := a) (by simp [hq]) hs
    have herase : (u ++ [a]).erase a = u := by
      rw [List.erase_append_right _ hau, List.erase_cons_head, List.append_nil]
    rw [hq, herase] at hr
    rw [hpop, hq, List.getLast?_concat, List.dropLast_concat]
    exact ⟨rfl, hr⟩

lemma Represents.popHead (h : Represents s q) (hs : Seeds s) :
    (s.popHead i).1 = (q i).head? ∧
      Represents (s.popHead i).2 (Function.update q i (q i).tail) ∧ Seeds (s.popHead i).2 :=
  h.exec hs (.popFront i)

/-- `EdObjList` and `EsList`: a call that keeps the lists does what it does to the sequences. -/
lemma Represents.call (h : Represents s q) (hs : Seeds s) (hk : k ≠ .esList2)
    (hkeep : k.keeps s c = true) (he : k.exec s c = some (ret, t)) :
    ret = (c.spec q).1 ∧ Represents t (c.spec q).2 ∧ Seeds t := by
  have hlinked : ∀ a, (∃ j, a ∈ q j) ↔ (s.hdr a).seed ≠ 0 := fun a => h.mem_iff_ne_zero hs
  cases c with
  | add i a =>
    cases he
    refine ⟨rfl, ?_⟩
    by_cases ha : ∃ j, a ∈ q j
    · have hrej : k.rejects = true := by
        simpa [ListClass.keeps, (hlinked a).mp ha] using hkeep
      have hadd : k.add s i a = s := by
        cases k with
        | edObjList => exact h.pushBack_rejected ha
        | esList | esList2 => cases hrej
      rw [hadd, ListCall.spec, if_pos ha]
      exact ⟨h, hs⟩
    · have hadd : k.add s i a = s.add i a := by
        cases k with
        | edObjList =>
          refine if_neg ?_
          simp [h.free a (not_exists.mp ha)]
        | esList => rfl
        | esList2 => exact absurd rfl hk
      rw [hadd, ListCall.spec, if_neg ha]
      exact h.add (not_exists.mp ha) hs
  | insert i p a =>
    cases he
    refine ⟨rfl, ?_⟩
    by_cases hp : p ∈ q i
    · have hseed := (h.mem_iff_seed hs).mp hp
      by_cases ha : ∃ j, a ∈ q j
      · have hrej : k.rejects = true := by
          simpa [ListClass.keeps, hseed, (hlinked a).mp ha] using hkeep
        have hins : k.insert s i p a = s := by
          cases k with
          | edObjList => exact if_pos (.inr (.inl ((hlinked a).mp ha)))
          | esList | esList2 => cases hrej
        rw [hins, ListCall.spec, if_neg (fun hc => hc.2 ha)]
        exact ⟨h, hs⟩
      · have hfree := h.free a (not_exists.mp ha)
        have hnext : (s.hdr p).next ≠ none := by
          simpa [ListClass.keeps, hseed, hfree.1, Option.isSome_iff_ne_none] using hkeep
        have hins : k.insert s i p a = s.insert i p a := by
          cases k with
          | edObjList => exact EdObjList.insert_eq hfree
          | esList => rfl
          | esList2 => exact absurd rfl hk
        rw [hins, ListCall.spec, if_pos ⟨hp, ha⟩]
        exact h.insert hp hnext (not_exists.mp ha) hs
    · have hseed : (s.hdr p).seed ≠ (s.vars i).mSeed :=
        fun hseed => hp ((h.mem_iff_seed hs).mpr hseed)
      have hins : k.insert s i p a = s := by
        cases k with
        | edObjList => exact if_pos (.inl hseed)
        | esList => exact if_pos hseed
        | esList2 => exact absurd rfl hk
      rw [hins, ListCall.spec, if_neg (fun hc => hp hc.1)]
      exact ⟨h, hs⟩
  | del i a =>
    cases he
    have hdel : k.del s i a = (EdObjList.exec s (.remove i a)).2 := by
      cases k with
      | edObjList => rfl
      | esList => rfl
      | esList2 => exact absurd rfl hk
    rw [hdel]
    exact ⟨rfl, (h.exec hs (.remove i a)).2⟩
  | popHead i =>
    have hpop : k.popHead s i = s.popHead i := by
      cases k with
      | edObjList => rfl
      | esList => rfl
      | esList2 => exact absurd rfl hk
    obtain ⟨hret, hr⟩ := h.popHead (i := i) hs
    change some (k.popHead s i) = _ at he
    rw [hpop] at he
    obtain ⟨rfl, rfl⟩ := Prod.mk.inj (Option.some.inj he)
    exact ⟨hret, hr⟩
  | popTail i =>
    obtain ⟨hret, hr⟩ := h.popTail (i := i) hs
    cases k with
    | edObjList => cases he
    | esList =>
      obtain ⟨rfl, rfl⟩ := Prod.mk.inj (Option.some.inj he)
      exact ⟨hret, hr⟩
    | esList2 => exact absurd rfl hk
  | nodeRemove a =>
    cases k with
    | edObjList => cases he
    | esList =>
      obtain ⟨i, hi, he⟩ := Option.map_eq_some_iff.mp he
      cases he
      obtain ⟨j, hj⟩ := h.mem_iff_list.mpr (by rw [hi]; exact Option.some_ne_none i)
      obtain rfl : j = i := Option.some.inj ((h.owner j a hj).symm.trans hi)
      have hspec : (ListCall.spec q (.nodeRemove a)).2 = Function.update q j ((q j).erase a) := by
        funext l
        by_cases hl : l = j
        · rw [hl, Function.update_self]
          rfl
        · rw [Function.update_of_ne hl]
          exact List.erase_of_not_mem (fun hal => hl (h.apart l j a hal hj))
      rw [hspec]
      exact ⟨rfl, h.remove hj hs⟩
    | esList2 => exact absurd rfl hk
  | clear i => cases hkeep

end EdObjList

namespace Lists

variable {ι ν : Type} [DecidableEq ι] [DecidableEq ν] {s : Lists ι ν} {i : ι} {a p : ν}

lemma add2_seed (s : Lists ι ν) (i : ι) (a b : ν) : ((s.add2 i a).hdr b).seed =
    if b = a then (s.vars i).mSeed else (s.hdr b).seed := by
  have hvars : ∀ (t : Lists ι ν) f, (t.setVars i f).hdr = t.hdr := fun _ _ => rfl
  have hhdr : ∀ (t : Lists ι ν) b f, (t.setHdr b f).vars = t.vars := fun _ _ _ => rfl
  unfold add2
  simp only [hhdr]
  cases (s.vars i).mptail <;> simp only [hvars, setHdr_hdr, @eq_comm _ b] <;> split_ifs <;> rfl

lemma add2_vars (s : Lists ι ν) (i : ι) (a : ν) (j : ι) :
    ((s.add2 i a).vars j).mSeed = (s.vars j).mSeed ∧
      ((s.add2 i a).vars j).mSize = if j = i then (s.vars j).mSize + 1 else (s.vars j).mSize := by
  have hhdr : ∀ (t : Lists ι ν) b f, (t.setHdr b f).vars = t.vars := fun _ _ _ => rfl
  unfold add2
  simp only [hhdr]
  by_cases hj : j = i
  · subst hj
    cases (s.vars j).mptail <;> simp [setHdr, setVars]
  · cases (s.vars i).mptail <;> simp [setHdr, setVars, hj]

lemma insert2_seed (h : (s.hdr p).seed = (s.vars i).mSeed) (b : ν) :
    ((s.insert2 i p a).hdr b).seed = if b = a then (s.vars i).mSeed else (s.hdr b).seed := by
  have hvars : ∀ (t : Lists ι ν) f, (t.setVars i f).hdr = t.hdr := fun _ _ => rfl
  unfold insert2
  rw [if_neg (not_not_intro h)]
  dsimp only
  rw [hvars, setHdr_hdr]
  by_cases hb : b = a
  · rw [if_pos hb.symm, if_pos hb]
    split <;> rfl
  · rw [if_neg (Ne.symm hb), if_neg hb]
    split <;> simp only [setHdr_hdr, Ne.symm hb, if_false] <;> split_ifs <;> rfl

end Lists

namespace ListClass

variable {ι ν : Type} [DecidableEq ι] [DecidableEq ν]
variable {k : ListClass} {r s t : Lists ι ν} {q q' : ι → List ν} {i : ι} {a p : ν}
  {ret : Option ν} {c : ListCall ι ν}

/-- The lists hold the sequences `q`; a node of `EsList2` has no pointer to its list. -/
def Holds (k : ListClass) (s : Lists ι ν) (q : ι → List ν) : Prop :=
  ∃ r, Represents r q ∧ Seeds r ∧ r.SameLinks s ∧ (k ≠ .esList2 → s = r)

/-- A call on an `EsList2` does what it does on the same lists as `EsList`s. -/
lemma exec_sameLinks (h : Represents r q) (hs : Seeds r) (hl : r.SameLinks s)
    (hkeep : esList2.keeps s c = true) (he : esList2.exec s c = some (ret, t)) :
    ∃ u, esList.exec r c = some (ret, u) ∧ u.SameLinks t ∧ esList.keeps r c = true := by
  have hseed : ∀ a, (r.hdr a).seed = (s.hdr a).seed := fun a => (hl.2 a).2.2.symm
  have hnext : ∀ a, (r.hdr a).next = (s.hdr a).next := fun a => (hl.2 a).2.1.symm
  have hkeep' : esList.keeps r c = true := by
    cases c with
    | add i a => simpa [keeps, rejects, hseed] using hkeep
    | insert i p a => simpa [keeps, rejects, hseed, hnext, ← hl.1] using hkeep
    | del | popHead | popTail | nodeRemove => rfl
    | clear => cases hkeep
  have hfree : ∀ {a}, (r.hdr a).seed = 0 → ∀ j, a ∉ q j := fun h0 j hj =>
    (h.mem_iff_ne_zero hs).mp ⟨j, hj⟩ h0
  cases c with
  | add i a =>
    cases he
    have ha : (r.hdr a).seed = 0 := by simpa [keeps, rejects] using hkeep'
    exact ⟨_, rfl, (hl.add ((h.isList i).mptail_ne (hfree ha i))).trans
      (Lists.sameLinks_add2 s i a), hkeep'⟩
  | insert i p a =>
    cases he
    refine ⟨_, rfl, (Lists.sameLinks_insert2 r i p a).trans ?_, hkeep'⟩
    by_cases hp : (r.hdr p).seed = (r.vars i).mSeed
    · have ha : (r.hdr a).seed = 0 := by
        by_contra ha
        simp [keeps, rejects, hp, ha] at hkeep'
      have hpa : p ≠ a := by
        rintro rfl
        exact hs.ne_zero i (hp.symm.trans ha)
      refine hl.insert2 hpa (fun hn => ?_)
      -- the node behind one of the list is of the list
      obtain ⟨u, v, hq⟩ := List.append_of_mem ((h.mem_iff_seed hs).mpr hp)
      have hi := h.isList i
      rw [hq] at hi
      rw [hi.linked.links.1] at hn
      exact hfree ha i (by simp [hq, List.mem_of_head? hn])
    · have hp' : (s.hdr p).seed ≠ (s.vars i).mSeed := by rwa [← hseed, hl.1]
      have hr : r.insert2 i p a = r := if_pos hp
      have hs' : esList2.insert s i p a = s := if_pos hp'
      rw [hr, hs']
      exact hl
  | del i a =>
    cases he
    exact ⟨_, rfl, hl.del.trans (Lists.sameLinks_del2 s i a), hkeep'⟩
  | popHead i =>
    have hhead : (s.vars i).mphead = (r.vars i).mphead := by rw [hl.1]
    change some (s.popHead2 i) = _ at he
    unfold Lists.popHead2 at he
    rw [hhead] at he
    change ∃ u, some (r.popHead i) = some (ret, u) ∧ _
    unfold Lists.popHead
    cases hm : (r.vars i).mphead with
    | none =>
      rw [hm] at he
      cases he
      exact ⟨_, rfl, hl, hkeep'⟩
    | some b =>
      rw [hm] at he
      cases he
      exact ⟨_, rfl, hl.del.trans (Lists.sameLinks_del2 s i b), hkeep'⟩
  | popTail i =>
    have htail : (s.vars i).mptail = (r.vars i).mptail := by rw [hl.1]
    change some (s.popTail2 i) = _ at he
    unfold Lists.popTail2 at he
    rw [htail] at he
    change ∃ u, some (r.popTail i) = some (ret, u) ∧ _
    unfold Lists.popTail
    cases hm : (r.vars i).mptail with
    | none =>
      rw [hm] at he
      cases he
      exact ⟨_, rfl, hl, hkeep'⟩
    | some b =>
      rw [hm] at he
      cases he
      exact ⟨_, rfl, hl.del.trans (Lists.sameLinks_del2 s i b), hkeep'⟩
  | nodeRemove a => cases he
  | clear i => cases hkeep

lemma Holds.call (h : k.Holds s q) (hkeep : k.keeps s c = true)
    (he : k.exec s c = some (ret, t)) : ret = (c.spec q).1 ∧ k.Holds t (c.spec q).2 := by
  obtain ⟨r, hr, hs, hl, heq⟩ := h
  by_cases hk : k = .esList2
  · subst hk
    obtain ⟨u, hu, hut, hkeep'⟩ := exec_sameLinks hr hs hl hkeep he
    have hne : ListClass.esList ≠ .esList2 := nofun
    obtain ⟨hret, hru, hsu⟩ := hr.call hs hne hkeep' hu
    exact ⟨hret, u, hru, hsu, hut, fun hne => absurd rfl hne⟩
  · obtain rfl := heq hk
    obtain ⟨hret, ht, hst⟩ := hr.call hs hk hkeep he
    exact ⟨hret, t, ht, hst, .refl t, fun _ => rfl⟩

omit [DecidableEq ι] [DecidableEq ν] in
lemma Holds.mem_iff_seed (h : k.Holds s q) : a ∈ q i ↔ (s.hdr a).seed = (s.vars i).mSeed := by
  obtain ⟨r, hr, hs, hl, -⟩ := h
  rw [hr.mem_iff_seed hs, (hl.2 a).2.2, hl.1]

omit [DecidableEq ι] [DecidableEq ν] in
lemma Holds.size (h : k.Holds s q) (i : ι) :
    (q i).Nodup ∧ (s.vars i).mSize = UInt32.ofNat (q i).length := by
  obtain ⟨r, hr, hs, hl, -⟩ := h
  rw [hl.1]
  exact ⟨(hr.isList i).linked.nodup, (hr.isList i).size⟩

/-- A node on a list that is counted and marked again is on no sequence for it: a list is then
shorter than its `mSize`. -/
lemma not_holds_relinked (h : k.Holds s q) (ha : (s.hdr a).seed ≠ 0)
    (hseed : ∀ b, (t.hdr b).seed = if b = a then (s.vars i).mSeed else (s.hdr b).seed)
    (hvars : ∀ j, (t.vars j).mSeed = (s.vars j).mSeed ∧
      (t.vars j).mSize = if j = i then (s.vars j).mSize + 1 else (s.vars j).mSize) :
    ¬ ∃ q', k.Holds t q' := by
  rintro ⟨q', h'⟩
  have hone : ∀ n : UInt32, n ≠ n + 1 := by
    intro n hn
    have hzero : n + 0 = n + 1 := (UInt32.add_zero n).trans hn
    exact absurd (UInt32.add_right_inj n |>.mp hzero) (by decide)
  obtain ⟨j, haj⟩ : ∃ j, a ∈ q j := by
    obtain ⟨r, hr, hs, hl, -⟩ := h
    rw [(hl.2 a).2.2] at ha
    exact (hr.mem_iff_ne_zero hs).mpr ha
  have hsa := h.mem_iff_seed.mp haj
  obtain ⟨hn, hsize⟩ := h.size j
  obtain ⟨hn', hsize'⟩ := h'.size j
  have hmem : ∀ b, b ∈ q' j ↔ (if b = a then (s.vars i).mSeed else (s.hdr b).seed) =
      (s.vars j).mSeed := by
    intro b
    rw [h'.mem_iff_seed, hseed, (hvars j).1]
  by_cases hj : j = i
  · subst hj
    have hperm : (q' j).Perm (q j) := by
      apply (List.perm_ext_iff_of_nodup hn' hn).mpr
      intro b
      rw [hmem]
      by_cases hb : b = a
      · simp [hb, haj]
      · rw [if_neg hb, h.mem_iff_seed]
    rw [hperm.length_eq, ← hsize, (hvars j).2, if_pos rfl] at hsize'
    exact hone _ hsize'.symm
  · have hperm : (q' j).Perm ((q j).erase a) := by
      apply (List.perm_ext_iff_of_nodup hn' (hn.erase a)).mpr
      intro b
      rw [hmem, hn.mem_erase_iff]
      by_cases hb : b = a
      · subst hb
        rw [if_pos rfl]
        refine iff_of_false (fun hseeds => hj ?_) (fun hc => hc.1 rfl)
        obtain ⟨r, -, hs, hl, -⟩ := h
        rw [hl.1] at hseeds
        exact (hs.injective i j hseeds).symm
      · rw [if_neg hb, h.mem_iff_seed, iff_and_self]
        exact fun _ => hb
    have hlength := List.length_erase_of_mem haj
    have hpos := List.length_pos_of_mem haj
    rw [hperm.length_eq, (hvars j).2, if_neg hj, hsize] at hsize'
    obtain ⟨n, hlen⟩ : ∃ n, (q j).length = n + 1 := ⟨_, (Nat.sub_add_cancel hpos).symm⟩
    rw [hlength, hlen, Nat.add_sub_cancel, UInt32.ofNat_add] at hsize'
    exact hone _ hsize'.symm

/-- Behind the last node of a list the new one cannot be found from the tail. -/
lemma not_holds_last (h : k.Holds s q) (hp : (s.hdr p).seed = (s.vars i).mSeed)
    (hn : (s.hdr p).next = none) (ha : (s.hdr a).seed = 0) :
    ¬ ∃ q', k.Holds (k.insert s i p a) q' := by
  have hpq := h.mem_iff_seed.mpr hp
  obtain ⟨r, hr, hs, hl, heq⟩ := h
  have hfree : ∀ j, a ∉ q j := by
    intro j hj
    exact (hr.mem_iff_ne_zero hs).mp ⟨j, hj⟩ ((hl.2 a).2.2.symm.trans ha)
  have hu : k.Unlinked s a := by
    cases k with
    | edObjList =>
      rw [heq (fun hk => nomatch hk)]
      exact hr.free a hfree
    | esList => trivial
    | esList2 => trivial
  have hpa : p ≠ a := by
    rintro rfl
    exact hfree i hpq
  obtain ⟨hvars, hhdr⟩ := insert_congr hp hu
  rintro ⟨q', r', hr', -, hl', -⟩
  -- the tail of the list before and after is `p`
  have htail : (s.vars i).mptail = some p := by
    obtain ⟨u, v, hq⟩ := List.append_of_mem hpq
    have hi := hr.isList i
    rw [hq] at hi
    have hv : v = [] := by
      rw [← List.head?_eq_none_iff, ← hi.linked.links.1, ← (hl.2 p).2.1, hn]
    rw [hl.1, hi.linked.tail_eq, hv, List.getLast?_concat]
  have htail' : (q' i).getLast? = some p := by
    rw [← (hr'.isList i).linked.tail_eq, ← hl'.1, hvars, Lists.insert2_vars hp,
      Function.update_self]
    exact htail
  obtain ⟨u, hq'⟩ := List.getLast?_eq_some_iff.mp htail'
  have hi' := hr'.isList i
  rw [hq'] at hi'
  have hnext := hi'.linked.links.1
  rw [List.head?_nil, ← (hl'.2 p).2.1, (hhdr p).2.1,
    Lists.insert2_hdr hp hpa (by rw [hn]; exact nofun)] at hnext
  simp [hpa] at hnext

lemma not_holds (h : k.Holds s q) (hkeep : k.keeps s c = false)
    (he : k.exec s c = some (ret, t)) : ¬ ∃ q', k.Holds t q' := by
  cases c with
  | add i a =>
    cases he
    simp only [keeps, Bool.or_eq_false_iff, decide_eq_false_iff_not] at hkeep
    obtain ⟨hrej, ha⟩ := hkeep
    have hlinks : (s.add2 i a).SameLinks (k.add s i a) ∨ k.add s i a = s.add i a := by
      cases k with
      | edObjList => cases hrej
      | esList => exact .inr rfl
      | esList2 => exact .inl (.refl _)
    have hseed : ∀ b, ((k.add s i a).hdr b).seed = ((s.add2 i a).hdr b).seed := by
      intro b
      rcases hlinks with hl | hl
      · exact (hl.2 b).2.2
      · rw [hl, ((Lists.sameLinks_add2 s i a).2 b).2.2]
    have hvars : (k.add s i a).vars = (s.add2 i a).vars := by
      rcases hlinks with hl | hl
      · exact hl.1
      · rw [hl, (Lists.sameLinks_add2 s i a).1]
    apply not_holds_relinked h ha
    · intro b
      rw [hseed, Lists.add2_seed]
    · intro j
      rw [hvars]
      exact Lists.add2_vars s i a j
  | insert i p a =>
    cases he
    simp only [keeps, Bool.or_eq_false_iff, decide_eq_false_iff_not, not_not] at hkeep
    obtain ⟨hp, hkeep⟩ := hkeep
    by_cases ha : (s.hdr a).seed = 0
    · rw [if_pos ha, Option.isSome_eq_false_iff, Option.isNone_iff_eq_none] at hkeep
      exact not_holds_last h hp hkeep ha
    · rw [if_neg ha] at hkeep
      have hu : k.Unlinked s a := by
        cases k with
        | edObjList => cases hkeep
        | esList => trivial
        | esList2 => trivial
      obtain ⟨hvars, hhdr⟩ := insert_congr hp hu
      apply not_holds_relinked h ha
      · intro b
        rw [(hhdr b).2.2, Lists.insert2_seed hp]
      · intro j
        rw [hvars, Lists.insert2_vars hp]
        by_cases hj : j = i
        · simp [hj]
        · simp [hj]
  | del i a => cases hkeep
  | popHead i => cases hkeep
  | popTail i => cases hkeep
  | nodeRemove a => cases hkeep
  | clear i =>
    cases k with
    | edObjList =>
      cases he
      rintro ⟨q', r, -, hs, hl, -⟩
      apply hs.ne_zero i
      rw [← hl.1]
      simp [EdObjList.clear, Lists.setVars]
    | esList | esList2 => cases he

lemma Holds.exec_eq_none (h : k.Holds s q) (hc : k.has c = true) :
    k.exec s c = none ↔ ∃ a, c = .nodeRemove a ∧ ∀ i, a ∉ q i := by
  cases c with
  | nodeRemove a =>
    cases k with
    | edObjList | esList2 => cases hc
    | esList =>
      obtain ⟨r, hr, -, -, heq⟩ := h
      obtain rfl := heq (fun hk => nomatch hk)
      have hlist : (∃ i, a ∈ q i) ↔ (s.hdr a).list ≠ none := hr.mem_iff_list
      simp only [exec, Option.map_eq_none_iff, ListCall.nodeRemove.injEq, exists_eq_left']
      rw [← not_iff_not, ← ne_eq, ← hlist, not_forall_not]
  | popTail i =>
    cases k with
    | edObjList => cases hc
    | esList | esList2 => simp [exec, popTail]
  | clear i =>
    cases k with
    | edObjList => simp [exec]
    | esList | esList2 => cases hc
  | add i a | insert i p a | del i a | popHead i => simp [exec]

/-- In each of the classes, for any lists with different seeds: over the runs of calls that keep
to the condition, the lists hold sequences, and each call returns and leaves what it does on
these, but for the `remove` of a node without a list. The first other call leaves lists that hold
none. -/
theorem lists_hold (k : ListClass) (mSeed : ι → UInt32) (hzero : ∀ i, mSeed i ≠ 0)
    (hinj : ∀ i j, mSeed i = mSeed j → i = j)
    (h : (k.lists mSeed).Reaches (fun s c => k.keeps s c = true) (s : Lists ι ν)) :
    ∃ q, k.Holds s q ∧
      (∀ c, k.has c = true →
        (k.exec s c = none ↔ ∃ a, c = .nodeRemove a ∧ ∀ i, a ∉ q i)) ∧
      ∀ c ret t, k.exec s c = some (ret, t) →
        (k.keeps s c = true → ret = (c.spec q).1 ∧ k.Holds t (c.spec q).2) ∧
        ((∃ q', k.Holds t q') → k.keeps s c = true) := by
  have hholds : ∃ q, k.Holds s q := by
    refine h.invariant (I := fun s => ∃ q, k.Holds s q) ?_ ?_
    · rintro _ rfl
      exact ⟨fun _ => [], _, Represents.new mSeed, ⟨hzero, hinj⟩, .refl _, fun _ => rfl⟩
    · rintro s c t - ⟨q, hq⟩ hkeep hs
      obtain ⟨⟨ret, t'⟩, he, rfl⟩ := Option.map_eq_some_iff.mp hs
      exact ⟨_, (hq.call hkeep he).2⟩
  obtain ⟨q, hq⟩ := hholds
  refine ⟨q, hq, fun c hc => hq.exec_eq_none hc,
    fun c ret t he => ⟨fun hkeep => hq.call hkeep he, fun hq' => ?_⟩⟩
  cases hkeep : k.keeps s c with
  | true => rfl
  | false => exact absurd hq' (not_holds hq hkeep he)

/-- Two `EsList`s, with the nodes 1 and 3, and 2: a node can be inserted behind 1, and behind 3 it
is lost. -/
theorem lists_hold_twoLists : ∃ s : Lists Bool Nat,
    (esList.lists (fun i => if i then 1 else 2)).Reaches (fun s c => esList.keeps s c = true) s ∧
    (∃ q, esList.Holds s q ∧
      (∀ c, esList.has c = true →
        (esList.exec s c = none ↔ ∃ a, c = .nodeRemove a ∧ ∀ i, a ∉ q i)) ∧
      ∀ c ret t, esList.exec s c = some (ret, t) →
        (esList.keeps s c = true → ret = (c.spec q).1 ∧ esList.Holds t (c.spec q).2) ∧
        ((∃ q', esList.Holds t q') → esList.keeps s c = true)) ∧
    esList.keeps s (.insert true 1 4) = true ∧ esList.keeps s (.insert true 3 4) = false := by
  let M := esList.lists (ν := Nat) (fun i : Bool => if i then 1 else 2)
  have hrun : ((M.restrict (fun s c => esList.keeps s c)).exec
      (EdObjList.new (fun i : Bool => if i then 1 else 2))
      [.add true 1, .add false 2, .add true 3]).map (fun s =>
        (esList.keeps s (.insert true 1 4), esList.keeps s (.insert true 3 4))) =
      some (true, false) := by decide
  obtain ⟨s, hr, hobs⟩ := System.exists_of_exec_restrict (M := M) rfl hrun
  simp only [Prod.mk.injEq] at hobs
  exact ⟨s, hr, lists_hold esList _ (by decide) (by decide) hr, hobs⟩

end ListClass

end EdNio.Container
