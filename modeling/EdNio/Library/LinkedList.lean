import Mathlib.Data.List.Nodup
import Mathlib.Tactic.Lemma

/-!
# Doubly linked lists

Nodes of any type, and their links as functions. A list of nodes is linked when following
`next` from its head and `prev` from its tail passes through it in both directions.
-/

namespace LinkedList

variable {α : Type}

/-- Following `next` from `p` passes through `l` and then comes to `q`. -/
def Segment (next : α → Option α) : Option α → List α → Option α → Prop
  | p, [], q => p = q
  | p, a :: l, q => p = some a ∧ Segment next (next a) l q

variable {next next' prev prev' : α → Option α} {p q r : Option α} {a b : α} {l u v : List α}

lemma segment_append :
    Segment next p (u ++ v) q ↔ ∃ r, Segment next p u r ∧ Segment next r v q := by
  induction u generalizing p with
  | nil =>
    constructor
    · exact fun h => ⟨p, rfl, h⟩
    · rintro ⟨r, rfl, h⟩
      exact h
  | cons a u ih =>
    constructor
    · rintro ⟨hp, h⟩
      obtain ⟨r, hu, hv⟩ := ih.mp h
      exact ⟨r, ⟨hp, hu⟩, hv⟩
    · rintro ⟨r, ⟨hp, hu⟩, hv⟩
      exact ⟨hp, ih.mpr ⟨r, hu, hv⟩⟩

/-- The node before the end of a segment. -/
lemma segment_concat : Segment next p (u ++ [a]) q ↔ Segment next p u (some a) ∧ next a = q := by
  rw [segment_append]
  constructor
  · rintro ⟨r, hu, rfl, hq⟩
    exact ⟨hu, hq⟩
  · rintro ⟨hu, hq⟩
    exact ⟨some a, hu, rfl, hq⟩

lemma Segment.congr (h : Segment next p l q) (he : ∀ a ∈ l, next' a = next a) :
    Segment next' p l q := by
  induction l generalizing p with
  | nil => exact h
  | cons a l ih =>
    refine ⟨h.1, ?_⟩
    rw [he a List.mem_cons_self]
    exact ih h.2 (fun b hb => he b (List.mem_cons_of_mem _ hb))

/-- Where a segment that ends in nothing starts. -/
lemma Segment.head (h : Segment next p l none) : p = l.head? := by
  cases l with
  | nil => exact h
  | cons a l => exact h.1

lemma Segment.unique (h : Segment next p u none) (h' : Segment next p v none) : u = v := by
  induction u generalizing p v with
  | nil =>
    cases v with
    | nil => rfl
    | cons b v => exact absurd (h.symm.trans h'.1) (by simp)
  | cons a u ih =>
    cases v with
    | nil => exact absurd (h.1.symm.trans h') (by simp)
    | cons b v =>
      obtain rfl := Option.some.inj (h.1.symm.trans h'.1)
      rw [ih h.2 h'.2]

/-- Two segments with the same nodes are the only ones from where they start. -/
lemma Segment.iff_of_same (h : Segment next p u none) (h' : Segment next' q u none) (l : List α) :
    Segment next p l none ↔ Segment next' q l none := by
  constructor
  · intro hl
    rwa [hl.unique h]
  · intro hl
    rwa [hl.unique h']

/-- Following the links never comes back to a node when it ends. -/
lemma Segment.nodup (h : Segment next p l none) : l.Nodup := by
  induction l generalizing p with
  | nil => exact List.nodup_nil
  | cons a l ih =>
    refine List.nodup_cons.mpr ⟨fun hmem => ?_, ih h.2⟩
    obtain ⟨u, v, rfl⟩ := List.append_of_mem hmem
    obtain ⟨r, -, rfl, hv⟩ := segment_append.mp h.2
    have heq : a :: (u ++ a :: v) = a :: v :=
      Segment.unique (p := some a) ⟨rfl, h.2⟩ ⟨rfl, hv⟩
    have hlen := congrArg List.length heq
    simp at hlen
    omega

/-- The list of the nodes between `head` and `tail`. -/
structure Linked (prev next : α → Option α) (head tail : Option α) (l : List α) : Prop where
  forward : Segment next head l none
  backward : Segment prev tail l.reverse none

variable {head head' tail tail' : Option α}

lemma Linked.nil : Linked prev next none none [] := ⟨rfl, rfl⟩

lemma Linked.nodup (h : Linked prev next head tail l) : l.Nodup := h.forward.nodup

lemma Linked.head_eq (h : Linked prev next head tail l) : head = l.head? := h.forward.head

lemma Linked.tail_eq (h : Linked prev next head tail l) : tail = l.getLast? := by
  rw [h.backward.head, List.head?_reverse]

lemma Linked.congr (h : Linked prev next head tail l) (hp : ∀ a ∈ l, prev' a = prev a)
    (hn : ∀ a ∈ l, next' a = next a) : Linked prev' next' head tail l where
  forward := h.forward.congr hn
  backward := h.backward.congr (fun a ha => hp a (List.mem_reverse.mp ha))

lemma Linked.links (h : Linked prev next head tail (u ++ a :: v)) :
    next a = v.head? ∧ prev a = u.getLast? := by
  obtain ⟨r, -, -, hv⟩ := segment_append.mp h.forward
  have hb := h.backward
  rw [List.reverse_append, List.reverse_cons, List.append_assoc, List.singleton_append] at hb
  obtain ⟨r', -, -, hu⟩ := segment_append.mp hb
  rw [hv.head, hu.head, List.head?_reverse]
  exact ⟨rfl, rfl⟩

variable [DecidableEq α]

/-- The last link of a segment leads elsewhere. -/
lemma Segment.redirect (h : Segment next p l q) (hd : l.Nodup)
    (hn : ∀ a ∈ l, next' a = if l.getLast? = some a then r else next a) :
    Segment next' (if l = [] then r else p) l r := by
  rcases List.eq_nil_or_concat l with rfl | ⟨u, a, rfl⟩
  · rfl
  · rw [List.concat_eq_append] at h hd hn ⊢
    obtain ⟨hu, -⟩ := segment_concat.mp h
    rw [if_neg (by simp), segment_concat]
    constructor
    · refine hu.congr (fun b hb => ?_)
      have hne : b ≠ a := by
        rintro rfl
        exact (List.nodup_append'.mp hd).2.2 hb List.mem_cons_self
      rw [hn b (List.mem_append_left _ hb), if_neg]
      simpa [eq_comm] using hne
    · rw [hn a (by simp), if_pos (by simp)]

/-- A node taken out of the list, its neighbours linked to each other. -/
lemma Linked.unlink (h : Linked prev next head tail (u ++ a :: v))
    (hn : ∀ b ∈ u ++ v, next' b = if prev a = some b then next a else next b)
    (hp : ∀ b ∈ u ++ v, prev' b = if next a = some b then prev a else prev b)
    (hh : head' = if prev a = none then next a else head)
    (ht : tail' = if next a = none then prev a else tail) :
    Linked prev' next' head' tail' (u ++ v) := by
  obtain ⟨hna, hpa⟩ := h.links
  have hd := h.nodup
  rw [List.nodup_append'] at hd
  obtain ⟨hdu, hdv, hdis⟩ := hd
  rw [List.nodup_cons] at hdv
  have hb := h.backward
  rw [List.reverse_append, List.reverse_cons, List.append_assoc, List.singleton_append] at hb
  obtain ⟨r, hu, rfl, hv⟩ := segment_append.mp h.forward
  obtain ⟨r', hv', rfl, hu'⟩ := segment_append.mp hb
  constructor
  · refine segment_append.mpr ⟨next a, ?_, ?_⟩
    · have hlinks : ∀ b ∈ u, next' b = if u.getLast? = some b then next a else next b := by
        intro b hb
        rw [hn b (List.mem_append_left _ hb), hpa]
      have hu₁ := hu.redirect hdu hlinks
      rw [hh, hpa]
      simpa [List.getLast?_eq_none_iff] using hu₁
    · refine hv.congr (fun b hb => ?_)
      rw [hn b (List.mem_append_right _ hb), if_neg]
      rw [hpa]
      intro hlast
      exact hdis (List.mem_of_getLast? hlast) (List.mem_cons_of_mem _ hb)
  · rw [List.reverse_append]
    refine segment_append.mpr ⟨prev a, ?_, ?_⟩
    · have hlinks : ∀ b ∈ v.reverse,
          prev' b = if v.reverse.getLast? = some b then prev a else prev b := by
        intro b hb
        rw [hp b (List.mem_append_right _ (List.mem_reverse.mp hb)), hna, List.getLast?_reverse]
      have hv₁ := hv'.redirect (List.nodup_reverse.mpr hdv.2) hlinks
      rw [ht, hna]
      simpa [List.head?_eq_none_iff] using hv₁
    · refine hu'.congr (fun b hb => ?_)
      rw [List.mem_reverse] at hb
      rw [hp b (List.mem_append_left _ hb), if_neg]
      rw [hna]
      intro hfirst
      exact hdis hb (List.mem_cons_of_mem _ (List.mem_of_head? hfirst))

lemma Linked.append (h : Linked prev next head tail l)
    (hn : ∀ b ∈ l, next' b = if tail = some b then some a else next b)
    (hp : ∀ b ∈ l, prev' b = prev b) (hna : next' a = none) (hpa : prev' a = tail)
    (hh : head' = if tail = none then some a else head) (ht : tail' = some a) :
    Linked prev' next' head' tail' (l ++ [a]) := by
  have htail := h.tail_eq
  constructor
  · refine segment_append.mpr ⟨some a, ?_, rfl, hna⟩
    have hlinks : ∀ b ∈ l, next' b = if l.getLast? = some b then some a else next b := by
      intro b hb
      rw [hn b hb, htail]
    have hl := h.forward.redirect h.nodup hlinks
    rw [hh, htail]
    simpa [List.getLast?_eq_none_iff] using hl
  · rw [List.reverse_append]
    refine ⟨ht, ?_⟩
    rw [hpa]
    exact h.backward.congr (fun b hb => hp b (List.mem_reverse.mp hb))

lemma Linked.insert {x : α} (h : Linked prev next head tail (u ++ a :: v))
    (hn : ∀ b ∈ u ++ a :: v, next' b = if b = a then some x else next b)
    (hp : ∀ b ∈ u ++ a :: v, prev' b = if next a = some b then some x else prev b)
    (hnx : next' x = next a) (hpx : prev' x = some a)
    (ht : tail' = if next a = none then some x else tail) :
    Linked prev' next' head tail' (u ++ a :: x :: v) := by
  obtain ⟨hna, -⟩ := h.links
  have hd := h.nodup
  rw [List.nodup_append'] at hd
  obtain ⟨hdu, hdv, hdis⟩ := hd
  rw [List.nodup_cons] at hdv
  have hback := h.backward
  rw [List.reverse_append, List.reverse_cons, List.append_assoc, List.singleton_append] at hback
  obtain ⟨r, hu, rfl, hv⟩ := segment_append.mp h.forward
  obtain ⟨r', hv', rfl, hu'⟩ := segment_append.mp hback
  constructor
  · refine segment_append.mpr ⟨some a, hu.congr (fun b hb => ?_), rfl, ?_, ?_⟩
    · have hne : b ≠ a := by
        rintro rfl
        exact hdis hb List.mem_cons_self
      rw [hn b (List.mem_append_left _ hb), if_neg hne]
    · rw [hn a (by simp), if_pos rfl]
    · rw [hnx]
      refine hv.congr (fun b hb => ?_)
      have hne : b ≠ a := by
        rintro rfl
        exact hdv.1 hb
      rw [hn b (by simp [hb]), if_neg hne]
  · rw [List.reverse_append, List.reverse_cons, List.reverse_cons, List.append_assoc,
      List.append_assoc, List.singleton_append, List.singleton_append]
    refine segment_append.mpr ⟨some x, ?_, rfl, hpx, ?_⟩
    · have hlinks : ∀ b ∈ v.reverse,
          prev' b = if v.reverse.getLast? = some b then some x else prev b := by
        intro b hb
        rw [hp b (by simp [List.mem_reverse.mp hb]), hna, List.getLast?_reverse]
      have hv₁ := hv'.redirect (List.nodup_reverse.mpr hdv.2) hlinks
      rw [ht, hna]
      simpa [List.head?_eq_none_iff] using hv₁
    · have hpa : prev' a = prev a := by
        rw [hp a (by simp), hna, if_neg]
        intro hfirst
        exact hdv.1 (List.mem_of_head? hfirst)
      rw [hpa]
      refine hu'.congr (fun b hb => ?_)
      rw [List.mem_reverse] at hb
      rw [hp b (List.mem_append_left _ hb), hna, if_neg]
      intro hfirst
      exact hdis hb (List.mem_cons_of_mem _ (List.mem_of_head? hfirst))

end LinkedList
