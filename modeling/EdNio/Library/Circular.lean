import Mathlib.Data.Nat.ModEq
import Mathlib.Tactic.Lemma

/-!
# Windows of a circular store

The `n` cells of a store of `cap` cells that follow one another from `pos` on, with the
end joined to the beginning.
-/

namespace Circular

variable {α : Type} {cap : Nat} {f g : Nat → α}

def window (cap : Nat) (f : Nat → α) (pos n : Nat) : List α :=
  (List.range n).map (fun i => f ((pos + i) % cap))

@[simp] lemma length_window (pos n : Nat) : (window cap f pos n).length = n := by
  simp [window]

@[simp] lemma window_zero (pos : Nat) : window cap f pos 0 = [] := rfl

@[simp] lemma window_mod (pos n : Nat) : window cap f (pos % cap) n = window cap f pos n := by
  simp [window]

lemma window_add (pos m n : Nat) :
    window cap f pos (m + n) = window cap f pos m ++ window cap f (pos + m) n := by
  simp only [window, List.range_add, List.map_append, List.map_map]
  congr 1
  apply List.map_congr_left
  intro i _
  simp [Nat.add_assoc]

/-- A window that does not pass the end. -/
lemma window_eq_range {pos n : Nat} (h : pos + n ≤ cap) :
    window cap f pos n = (List.range n).map (fun i => f (pos + i)) := by
  apply List.map_congr_left
  intro i hi
  have hi' : i < n := List.mem_range.mp hi
  rw [Nat.mod_eq_of_lt (by omega)]

lemma take_window (pos n m : Nat) :
    (window cap f pos n).take m = window cap f pos (min m n) := by
  rcases Nat.le_total m n with h | h
  · obtain ⟨k, rfl⟩ := Nat.exists_eq_add_of_le h
    rw [window_add, Nat.min_eq_left h, List.take_left' (length_window pos m)]
  · rw [Nat.min_eq_right h, List.take_of_length_le (by simpa using h)]

lemma drop_window {n m : Nat} (pos : Nat) (h : m ≤ n) :
    (window cap f pos n).drop m = window cap f (pos + m) (n - m) := by
  obtain ⟨k, rfl⟩ := Nat.exists_eq_add_of_le h
  rw [window_add, List.drop_left' (length_window pos m), Nat.add_sub_cancel_left]

lemma window_congr {pos n : Nat} (h : ∀ i, i < n → f ((pos + i) % cap) = g ((pos + i) % cap)) :
    window cap f pos n = window cap g pos n :=
  List.map_congr_left (fun i hi => h i (List.mem_range.mp hi))

/-- Cells less than one turn apart are different. -/
lemma index_ne {i j pos : Nat} (h : i < j) (h' : j < i + cap) :
    (pos + i) % cap ≠ (pos + j) % cap := by
  intro he
  have hd : cap ∣ (pos + j) - (pos + i) := (Nat.modEq_iff_dvd' (by omega)).mp he
  have h0 := Nat.eq_zero_of_dvd_of_lt hd (by omega)
  omega

/-- A read in two pieces, up to the end and from the beginning. -/
lemma range_append_range {pos n : Nat} (hp : pos < cap) (hn : n ≤ cap) :
    (List.range (min n (cap - pos))).map (fun i => f (pos + i)) ++
        (List.range (n - min n (cap - pos))).map (fun i => f (0 + i)) =
      window cap f pos n := by
  have hsum : n = min n (cap - pos) + (n - min n (cap - pos)) := by omega
  conv_rhs => rw [hsum, window_add]
  rw [window_eq_range (by omega)]
  congr 1
  rcases Nat.le_total n (cap - pos) with h | h
  · rw [Nat.min_eq_left h, Nat.sub_self]
    rfl
  · rw [Nat.min_eq_right h, show pos + (cap - pos) = cap by omega, ← window_mod cap,
      Nat.mod_self, window_eq_range (by omega)]

/-- A write of `src` in two pieces reads back as `src`, and leaves the `n` cells before it. -/
lemma window_of_written {src : List α} {pos n : Nat} {d : α} (hcap : 0 < cap)
    (hn : n + src.length ≤ cap)
    (hin : ∀ i, i < src.length → g ((pos + n + i) % cap) = src.getD i d)
    (hout : ∀ j, j < cap → (∀ i, i < src.length → j ≠ (pos + n + i) % cap) → g j = f j) :
    window cap g pos (n + src.length) = window cap f pos n ++ src := by
  rw [window_add]
  congr 1
  · apply window_congr
    intro i hi
    apply hout _ (Nat.mod_lt _ hcap)
    intro j hj
    rw [Nat.add_assoc pos n j]
    exact index_ne (by omega) (by omega)
  · apply List.ext_getElem (by simp)
    intro i hi hi'
    simp only [window, List.getElem_map, List.getElem_range]
    rw [hin i hi']
    simp [hi']

end Circular
