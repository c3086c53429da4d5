import Mathlib.Tactic.Lemma

/-!
# Periodic deadlines

The points `first`, `first + step`, `first + 2 * step`, … of a clock.
-/

namespace Schedule

/-- How many of the points are not later than `now`. -/
def reached (first step now : Int) : Nat :=
  if first ≤ now then ((now - first) / step).toNat + 1 else 0

variable {first step now now' : Int}

lemma lt_reached_iff (hs : 0 < step) {k : Nat} :
    k < reached first step now ↔ first + k * step ≤ now := by
  unfold reached
  split
  · rename_i h
    have h0 : 0 ≤ (now - first) / step := Int.ediv_nonneg (by omega) (by omega)
    have hk : (k : Int) ≤ (now - first) / step ↔ k * step ≤ now - first :=
      Int.le_ediv_iff_mul_le hs
    omega
  · rename_i h
    have h0 : 0 ≤ (k : Int) * step := Int.mul_nonneg (by omega) (by omega)
    omega

lemma reached_mono (hs : 0 < step) (h : now ≤ now') :
    reached first step now ≤ reached first step now' := by
  rw [← Nat.not_lt]
  intro hlt
  have h1 := (lt_reached_iff hs).mp hlt
  have h2 : reached first step now' < reached first step now' :=
    (lt_reached_iff hs).mpr (Int.le_trans h1 h)
  exact Nat.lt_irrefl _ h2

/-- The points from the `m`-th on. -/
lemma reached_shift (hs : 0 < step) {m : Nat} (hm : m ≤ reached first step now) :
    reached first step now = m + reached (first + m * step) step now := by
  have key : ∀ k, k < reached (first + m * step) step now ↔ m + k < reached first step now := by
    intro k
    rw [lt_reached_iff hs, lt_reached_iff hs, Int.natCast_add, Int.add_mul, Int.add_assoc]
  have h1 := key (reached (first + m * step) step now)
  have h2 := key (reached first step now - m)
  omega

lemma reached_eq_zero (h : now < first) : reached first step now = 0 :=
  if_neg (by omega)

end Schedule
