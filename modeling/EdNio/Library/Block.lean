import Mathlib.Tactic.Lemma

/-!
# Blocks of memory

A block from the allocator as its size and its bytes. An access outside the block gives
none. What the bytes of a new block are is not known, so `byte` may be any function.
-/

namespace Memory

structure Block where
  size : Nat
  byte : Nat → UInt8

namespace Block

variable (b : Block)

/-- Copy `len` bytes out of the block. -/
def load (off len : Int) : Option (List UInt8) :=
  if 0 ≤ off ∧ 0 ≤ len ∧ off + len ≤ b.size then
    some ((List.range len.toNat).map (fun i => b.byte (off.toNat + i)))
  else none

/-- Copy the first `len` bytes of `src` into the block. -/
def store (off len : Int) (src : List UInt8) : Option Block :=
  if 0 ≤ off ∧ 0 ≤ len ∧ off + len ≤ b.size ∧ len ≤ src.length then
    some { b with
      byte := fun i =>
        if i < off.toNat then b.byte i
        else ((src.take len.toNat)[i - off.toNat]?).getD (b.byte i) }
  else none

/-- The block with a new size; the bytes of both sizes stay. -/
def realloc (size : Nat) : Block :=
  { b with size := size }

/-- The block with other bytes after its end. -/
def around (junk : Nat → UInt8) : Block :=
  { b with byte := fun i => if i < b.size then b.byte i else junk i }

variable {b : Block}

lemma load_eq {o n : Int} (h : 0 ≤ o) (h' : 0 ≤ n) (hb : o + n ≤ b.size) :
    b.load o n = some ((List.range n.toNat).map (fun i => b.byte (o.toNat + i))) :=
  if_pos ⟨h, h', hb⟩

@[simp] lemma load_around (o n : Int) (junk : Nat → UInt8) :
    (b.around junk).load o n = b.load o n := by
  by_cases h : 0 ≤ o ∧ 0 ≤ n ∧ o + n ≤ b.size
  · rw [load_eq h.1 h.2.1 h.2.2, load_eq (b := b.around junk) h.1 h.2.1 h.2.2]
    congr 1
    apply List.map_congr_left
    intro i hi
    rw [List.mem_range] at hi
    exact if_pos (by omega)
  · exact (if_neg h).trans (if_neg h).symm

lemma store_eq {o n : Int} {s : List UInt8} (h : 0 ≤ o) (h' : 0 ≤ n)
    (hb : o + n ≤ b.size) (hs : n ≤ s.length) :
    ∃ t, b.store o n s = some t ∧ t.size = b.size ∧
      (∀ i, i < n.toNat → t.byte (o.toNat + i) = s.getD i 0) ∧
      ∀ i, i < o.toNat ∨ o.toNat + n.toNat ≤ i → t.byte i = b.byte i := by
  refine ⟨_, if_pos ⟨h, h', hb, hs⟩, rfl, ?_, ?_⟩
  · intro i hi
    have hlen : i < s.length := by omega
    have hge : ¬ o.toNat + i < o.toNat := by omega
    simp only [hge, if_false, Nat.add_sub_cancel_left, List.getElem?_take_of_lt hi]
    simp [hlen]
  · intro i hi
    rcases hi with hi | hi
    · simp [hi]
    · have hlt : ¬ i < o.toNat := by omega
      have hnone : (s.take n.toNat)[i - o.toNat]? = none :=
        List.getElem?_eq_none (by simp; omega)
      simp only [hlt, if_false, hnone, Option.getD_none]

end Block

end Memory
