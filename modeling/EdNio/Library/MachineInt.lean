import Mathlib.Algebra.Group.Int.Defs
import Mathlib.Algebra.Group.Nat.Defs
import Mathlib.Tactic.Lemma

/-!
# Fixed-width integers as remainders

Conversions between the integer types of C++ on a machine with two's complement
integers, as functions on `ℤ`.
-/

namespace MachineInt

/-- Conversion to a signed 32-bit integer. -/
def toI32 (x : Int) : Int := x.bmod (2 ^ 32)

/-- Conversion to a signed 64-bit integer. -/
def toI64 (x : Int) : Int := x.bmod (2 ^ 64)

/-- Conversion to an unsigned 64-bit integer. -/
def toU64 (x : Int) : Int := x % 2 ^ 64

lemma toI32_eq {x : Int} (h : -2 ^ 31 ≤ x) (h' : x < 2 ^ 31) : toI32 x = x :=
  Int.bmod_eq_of_le (by omega) (by omega)

lemma toI64_eq {x : Int} (h : -2 ^ 63 ≤ x) (h' : x < 2 ^ 63) : toI64 x = x :=
  Int.bmod_eq_of_le (by omega) (by omega)

lemma toI64_range (x : Int) : -2 ^ 63 ≤ toI64 x ∧ toI64 x < 2 ^ 63 := by
  have h := Int.le_bmod (x := x) (m := 2 ^ 64) (by decide)
  have h' := Int.bmod_lt (x := x) (m := 2 ^ 64) (by decide)
  unfold toI64
  constructor <;> omega

@[simp] lemma toI64_toI64 (x : Int) : toI64 (toI64 x) = toI64 x :=
  Int.bmod_bmod

lemma toI64_sub_left (x y : Int) : toI64 (toI64 x - y) = toI64 (x - y) :=
  Int.bmod_sub_bmod

lemma toU64_eq_zero {x : Int} (h : -2 ^ 64 < x) (h' : x < 2 ^ 64) : toU64 x = 0 ↔ x = 0 := by
  unfold toU64
  omega

/-- The values of a 32-bit counter that starts at 1 and passes over 0. -/
def skipZero (n : Nat) : UInt32 := UInt32.ofNat (n % (2 ^ 32 - 1) + 1)

lemma toNat_skipZero (n : Nat) : (skipZero n).toNat = n % (2 ^ 32 - 1) + 1 := by
  apply UInt32.toNat_ofNat_of_lt'
  show n % (2 ^ 32 - 1) + 1 < 2 ^ 32
  omega

lemma skipZero_ne_zero (n : Nat) : skipZero n ≠ 0 := by
  intro h
  have hnat := toNat_skipZero n
  rw [h] at hnat
  simp at hnat

lemma skipZero_succ (n : Nat) :
    skipZero (n + 1) = if skipZero n + 1 = 0 then 1 else skipZero n + 1 := by
  have h := toNat_skipZero n
  have h' := toNat_skipZero (n + 1)
  have hadd : (skipZero n + 1).toNat = ((skipZero n).toNat + 1) % 2 ^ 32 := by
    rw [UInt32.toNat_add, UInt32.toNat_one]
  apply UInt32.toNat_inj.mp
  split
  · rename_i hzero
    rw [hzero, UInt32.toNat_zero] at hadd
    rw [UInt32.toNat_one]
    omega
  · rename_i hne
    have hne' : (skipZero n + 1).toNat ≠ 0 := fun h0 => hne (UInt32.toNat_inj.mp h0)
    omega

/-- The counter has come around. -/
lemma skipZero_eq_iff (m n : Nat) :
    skipZero m = skipZero n ↔ m % (2 ^ 32 - 1) = n % (2 ^ 32 - 1) := by
  rw [← UInt32.toNat_inj, toNat_skipZero, toNat_skipZero, Nat.add_right_cancel_iff]

end MachineInt
