import Mathlib.Tactic.Lemma

/-!
# A bounded queue that can be peeked

A first-in first-out list of at most `cap` items. The queue also remembers how far it has
been peeked, so that peeking can go on where it stopped.
-/

/-- A list of at most `cap` items, and how far the last `peek` and `peekNext` have come: the
items passed and those left to peek. It is lost when items not yet peeked are removed. -/
structure BoundedFifo (α : Type) (cap : Nat) where
  items : List α
  peeked : Option (Nat × Nat)
  bounded : items.length ≤ cap
  inside : ∀ c, peeked = some c → c.1 + c.2 ≤ items.length

namespace BoundedFifo

variable {α : Type} {cap : Nat} (s : BoundedFifo α cap)

def empty : BoundedFifo α cap where
  items := []
  peeked := some (0, 0)
  bounded := Nat.zero_le _
  inside := by simp

def free : Nat := cap - s.items.length

def put (xs : List α) : BoundedFifo α cap where
  items := s.items ++ xs.take s.free
  peeked := s.peeked
  bounded := by
    have := s.bounded
    simp only [free, List.length_append, List.length_take]
    omega
  inside c h := by
    have := s.inside c h
    simp only [List.length_append]
    omega

def get (n : Nat) : BoundedFifo α cap where
  items := s.items.drop n
  peeked := s.peeked.bind (fun (passed, left) =>
    if min n s.items.length ≤ passed then some (passed - min n s.items.length, left) else none)
  bounded := by
    have := s.bounded
    simp only [List.length_drop]
    omega
  inside c h := by
    simp only [Option.bind_eq_some_iff, Prod.exists, Option.ite_none_right_eq_some,
      Option.some.injEq] at h
    obtain ⟨passed, left, hp, hle, rfl⟩ := h
    have := s.inside _ hp
    simp only [List.length_drop]
    omega

def peek (n : Nat) : BoundedFifo α cap where
  items := s.items
  peeked := some (min n s.items.length, s.items.length - n)
  bounded := s.bounded
  inside c h := by
    obtain rfl := Option.some.inj h
    simp only
    omega

/-- What `peekNext` gives, when the last peek is still in the queue. -/
def next (n : Nat) : Option (List α) :=
  s.peeked.map (fun (passed, left) => (s.items.drop passed).take (min n left))

def peekNext (n : Nat) : BoundedFifo α cap where
  items := s.items
  peeked := s.peeked.map (fun (passed, left) => (passed + min n left, left - n))
  bounded := s.bounded
  inside c h := by
    simp only [Option.map_eq_some_iff, Prod.exists] at h
    obtain ⟨passed, left, hp, rfl⟩ := h
    have := s.inside _ hp
    simp only
    omega

/-- What is left to peek, when the last peek is still in the queue. -/
def unpeeked : Option (List α) :=
  s.peeked.map (fun (passed, left) => (s.items.drop passed).take left)

variable {s}

@[simp] lemma items_empty : (empty : BoundedFifo α cap).items = [] := rfl

@[simp] lemma items_put (xs : List α) : (s.put xs).items = s.items ++ xs.take s.free := rfl

@[simp] lemma items_get (n : Nat) : (s.get n).items = s.items.drop n := rfl

@[simp] lemma items_peek (n : Nat) : (s.peek n).items = s.items := rfl

@[simp] lemma items_peekNext (n : Nat) : (s.peekNext n).items = s.items := rfl

lemma peeked_peek (n : Nat) :
    (s.peek n).peeked = some (min n s.items.length, s.items.length - n) := rfl

lemma next_eq {passed left : Nat} (h : s.peeked = some (passed, left)) (n : Nat) :
    s.next n = some ((s.items.drop passed).take (min n left)) := by
  rw [next, h]
  rfl

lemma peeked_peekNext {passed left : Nat} (h : s.peeked = some (passed, left)) (n : Nat) :
    (s.peekNext n).peeked = some (passed + min n left, left - n) := by
  have hmap : (s.peekNext n).peeked =
      s.peeked.map (fun (passed, left) => (passed + min n left, left - n)) := rfl
  rw [hmap, h]
  rfl

lemma unpeeked_eq {passed left : Nat} (h : s.peeked = some (passed, left)) :
    s.unpeeked = some ((s.items.drop passed).take left) := by
  rw [unpeeked, h]
  rfl

lemma peeked_of_unpeeked {xs : List α} (h : s.unpeeked = some xs) :
    ∃ passed left, s.peeked = some (passed, left) ∧ (s.items.drop passed).take left = xs ∧
      passed + left ≤ s.items.length := by
  obtain ⟨⟨passed, left⟩, hp, rfl⟩ := Option.map_eq_some_iff.mp h
  exact ⟨passed, left, hp, rfl, s.inside _ hp⟩

lemma unpeeked_peek (n : Nat) : (s.peek n).unpeeked = some (s.items.drop n) := by
  rw [unpeeked_eq (peeked_peek n), items_peek]
  congr 1
  rcases Nat.le_total n s.items.length with h | h
  · rw [Nat.min_eq_left h]
    exact List.take_of_length_le (Nat.le_of_eq List.length_drop)
  · rw [Nat.sub_eq_zero_of_le h, List.take_zero, List.drop_of_length_le h]

/-- Items that are added are not part of a walk that has begun. -/
lemma unpeeked_put {xs : List α} (h : s.unpeeked = some xs) (ys : List α) :
    (s.put ys).unpeeked = some xs := by
  obtain ⟨passed, left, hp, rfl, hin⟩ := peeked_of_unpeeked h
  rw [unpeeked_eq (s := s.put ys) hp, items_put, List.drop_append_of_le_length (by omega),
    List.take_append_of_le_length]
  rw [List.length_drop]
  omega

lemma next_of_unpeeked {xs : List α} (h : s.unpeeked = some xs) (n : Nat) :
    s.next n = some (xs.take n) := by
  obtain ⟨passed, left, hp, rfl, -⟩ := peeked_of_unpeeked h
  rw [next_eq hp, List.take_take]

lemma unpeeked_peekNext {xs : List α} (h : s.unpeeked = some xs) (n : Nat) :
    (s.peekNext n).unpeeked = some (xs.drop n) := by
  obtain ⟨passed, left, hp, rfl, -⟩ := peeked_of_unpeeked h
  rw [unpeeked_eq (peeked_peekNext hp n), items_peekNext, List.drop_take]
  congr 1
  rcases Nat.le_total n left with hn | hn
  · rw [Nat.min_eq_left hn, List.drop_drop]
  · rw [Nat.sub_eq_zero_of_le hn, List.take_zero, List.take_zero]

end BoundedFifo
