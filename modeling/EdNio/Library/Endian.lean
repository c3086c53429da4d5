import Mathlib.Algebra.Group.Nat.Defs
import Mathlib.Data.List.Induction
import Mathlib.Data.List.Pairwise
import Mathlib.Tactic.Lemma

/-!
# Numbers as bytes

The bytes of a number in both orders, and the number that shifted and joined bytes make, read
as unsigned and as signed ones.
-/

namespace Endian

/-- The `w` lowest bytes of `n`, the lowest first. -/
def leBytes : Nat → Nat → List UInt8
  | 0, _ => []
  | w + 1, n => UInt8.ofNat n :: leBytes w (n / 256)

def leNat : List UInt8 → Nat
  | [] => 0
  | b :: bs => b.toNat + 256 * leNat bs

/-- The `w` lowest bytes of `n`, the highest first. -/
def beBytes (w n : Nat) : List UInt8 := (leBytes w n).reverse

def beNat (bs : List UInt8) : Nat := leNat bs.reverse

@[simp] lemma length_leBytes (w n : Nat) : (leBytes w n).length = w := by
  induction w generalizing n with
  | zero => rfl
  | succ w ih => simp [leBytes, ih]

@[simp] lemma length_beBytes (w n : Nat) : (beBytes w n).length = w := by
  simp [beBytes]

lemma leNat_leBytes (w n : Nat) : leNat (leBytes w n) = n % 256 ^ w := by
  induction w generalizing n with
  | zero => simp [leBytes, leNat, Nat.mod_one]
  | succ w ih =>
    have hb : (UInt8.ofNat n).toNat = n % 256 := by simp
    rw [leBytes, leNat, ih, hb, Nat.pow_succ', Nat.mod_mul]

lemma leNat_lt (bs : List UInt8) : leNat bs < 256 ^ bs.length := by
  induction bs with
  | nil => simp [leNat]
  | cons b bs ih =>
    have hb : b.toNat < 256 := b.toNat_lt
    rw [leNat, List.length_cons, Nat.pow_succ']
    omega

lemma leBytes_leNat (bs : List UInt8) : leBytes bs.length (leNat bs) = bs := by
  induction bs with
  | nil => rfl
  | cons b bs ih =>
    have hb : b.toNat < 256 := b.toNat_lt
    have hlow : UInt8.ofNat (b.toNat + 256 * leNat bs) = b := by
      apply UInt8.toNat_inj.mp
      simp
    have hhigh : (b.toNat + 256 * leNat bs) / 256 = leNat bs := by omega
    rw [leNat, List.length_cons, leBytes, hlow, hhigh, ih]

lemma beNat_beBytes (w n : Nat) : beNat (beBytes w n) = n % 256 ^ w := by
  rw [beNat, beBytes, List.reverse_reverse, leNat_leBytes]

lemma beNat_lt (bs : List UInt8) : beNat bs < 256 ^ bs.length := by
  have h := leNat_lt bs.reverse
  rwa [List.length_reverse] at h

/-- Swapping the bytes of a number. -/
lemma leBytes_beNat (bs : List UInt8) : leBytes bs.length (beNat bs) = bs.reverse := by
  have h := leBytes_leNat bs.reverse
  rwa [List.length_reverse] at h

/-- A byte joined below the others, both `k` bits from the end. -/
lemma or_byte (x : Nat) (b : UInt8) {K : Nat} (k : Nat) (h : K = 2 ^ k) :
    x * (256 * K) ||| b.toNat * K = (x * 256 + b.toNat) * K := by
  have hb : b.toNat < 2 ^ 8 := b.toNat_lt
  have hx : x * (256 * 2 ^ k) = (2 ^ 8 * x) <<< k := by
    rw [Nat.shiftLeft_eq, ← Nat.mul_assoc, Nat.mul_comm x]
    rfl
  rw [h, hx, ← Nat.shiftLeft_eq, ← Nat.shiftLeft_eq, ← Nat.shiftLeft_or_distrib,
    ← Nat.two_pow_add_eq_or_of_lt hb, Nat.mul_comm x]

lemma byte_mul_mod (b : UInt8) {K M : Nat} (h : 256 * K ≤ M) (hK : 0 < K) :
    b.toNat * K % M = b.toNat * K :=
  Nat.mod_eq_of_lt (Nat.lt_of_lt_of_le (Nat.mul_lt_mul_of_pos_right b.toNat_lt hK) h)

lemma or_shift16 (a b : UInt8) : (a.toUInt16 <<< 8 ||| b.toUInt16 <<< 0).toNat = beNat [a, b] := by
  have h1 : a.toNat * 256 ||| b.toNat * 1 = (a.toNat * 256 + b.toNat) * 1 := or_byte _ b 0 rfl
  simp only [UInt16.toNat_or, UInt16.toNat_shiftLeft, UInt8.toNat_toUInt16, UInt16.reduceToNat,
    Nat.reduceMod, Nat.reducePow, Nat.shiftLeft_eq]
  rw [byte_mul_mod a (by decide) (by decide), byte_mul_mod b (by decide) (by decide), h1]
  simp only [beNat, leNat, List.reverse_cons, List.reverse_nil, List.nil_append, List.cons_append]
  omega

lemma or_shift32 (a b c d : UInt8) :
    (a.toUInt32 <<< 24 ||| b.toUInt32 <<< 16 ||| c.toUInt32 <<< 8 ||| d.toUInt32 <<< 0).toNat =
      beNat [a, b, c, d] := by
  have h1 : a.toNat * 16777216 ||| b.toNat * 65536 = (a.toNat * 256 + b.toNat) * 65536 :=
    or_byte _ b 16 rfl
  have h2 := or_byte (a.toNat * 256 + b.toNat) c (K := 256) 8 rfl
  have h3 := or_byte ((a.toNat * 256 + b.toNat) * 256 + c.toNat) d (K := 1) 0 rfl
  simp only [UInt32.toNat_or, UInt32.toNat_shiftLeft, UInt8.toNat_toUInt32, UInt32.reduceToNat,
    Nat.reduceMod, Nat.reducePow, Nat.shiftLeft_eq]
  rw [byte_mul_mod a (by decide) (by decide), byte_mul_mod b (by decide) (by decide),
    byte_mul_mod c (by decide) (by decide), byte_mul_mod d (by decide) (by decide), h1]
  refine (congrArg (· ||| d.toNat * 1) h2).trans (h3.trans ?_)
  simp only [beNat, leNat, List.reverse_cons, List.reverse_nil, List.nil_append, List.cons_append]
  omega

lemma or_shift64 (a b c d e f g h : UInt8) :
    (a.toUInt64 <<< 56 ||| b.toUInt64 <<< 48 ||| c.toUInt64 <<< 40 ||| d.toUInt64 <<< 32 |||
      e.toUInt64 <<< 24 ||| f.toUInt64 <<< 16 ||| g.toUInt64 <<< 8 ||| h.toUInt64 <<< 0).toNat =
      beNat [a, b, c, d, e, f, g, h] := by
  have h1 : a.toNat * 2 ^ 56 ||| b.toNat * 2 ^ 48 = (a.toNat * 256 + b.toNat) * 2 ^ 48 :=
    or_byte _ b 48 rfl
  generalize hx1 : a.toNat * 256 + b.toNat = x1 at h1
  have h2 := or_byte x1 c (K := 2 ^ 40) 40 rfl
  generalize hx2 : x1 * 256 + c.toNat = x2 at h2
  have h3 := or_byte x2 d (K := 2 ^ 32) 32 rfl
  generalize hx3 : x2 * 256 + d.toNat = x3 at h3
  have h4 := or_byte x3 e (K := 2 ^ 24) 24 rfl
  generalize hx4 : x3 * 256 + e.toNat = x4 at h4
  have h5 := or_byte x4 f (K := 2 ^ 16) 16 rfl
  generalize hx5 : x4 * 256 + f.toNat = x5 at h5
  have h6 := or_byte x5 g (K := 2 ^ 8) 8 rfl
  generalize hx6 : x5 * 256 + g.toNat = x6 at h6
  have h7 := or_byte x6 h (K := 1) 0 rfl
  simp only [Nat.reducePow, Nat.reduceMul] at h1 h2 h3 h4 h5 h6 h7
  simp only [UInt64.toNat_or, UInt64.toNat_shiftLeft, UInt8.toNat_toUInt64, UInt64.reduceToNat,
    Nat.reduceMod, Nat.reducePow, Nat.shiftLeft_eq]
  rw [byte_mul_mod a (by decide) (by decide), byte_mul_mod b (by decide) (by decide),
    byte_mul_mod c (by decide) (by decide), byte_mul_mod d (by decide) (by decide),
    byte_mul_mod e (by decide) (by decide), byte_mul_mod f (by decide) (by decide),
    byte_mul_mod g (by decide) (by decide), byte_mul_mod h (by decide) (by decide),
    h1, h2, h3, h4, h5, h6, h7]
  simp only [beNat, leNat, List.reverse_cons, List.reverse_nil, List.nil_append, List.cons_append]
  omega

lemma leNat_append (as bs : List UInt8) :
    leNat (as ++ bs) = leNat as + 256 ^ as.length * leNat bs := by
  induction as with
  | nil => simp [leNat]
  | cons a as ih =>
    rw [List.cons_append, leNat, leNat, ih, List.length_cons, Nat.pow_succ', Nat.mul_add,
      Nat.mul_assoc, Nat.add_assoc]

lemma beNat_cons (b : UInt8) (bs : List UInt8) :
    beNat (b :: bs) = 256 ^ bs.length * b.toNat + beNat bs := by
  rw [beNat, List.reverse_cons, leNat_append, List.length_reverse, Nat.add_comm]
  rfl

/-- The bytes converted by `f`, each shifted by the bits of those after it and joined to
`ret`. -/
def shiftJoin {n : Nat} (f : UInt8 → BitVec n) : BitVec n → List UInt8 → BitVec n
  | ret, [] => ret
  | ret, b :: bs => shiftJoin f (ret ||| f b <<< (8 * bs.length)) bs

/-- A byte as an unsigned number. -/
def zeroExtend (n : Nat) (b : UInt8) : BitVec n := b.toBitVec.setWidth n

/-- A byte as a signed number, in two's complement. -/
def signExtend (n : Nat) (b : UInt8) : BitVec n := b.toBitVec.signExtend n

/-- Each byte with the sign bit has only bytes `0xff` before it. -/
def SignsAbsorbed (bs : List UInt8) : Prop :=
  bs.Pairwise (fun b c => c.toBitVec.msb = true → b = 0xff)

instance (bs : List UInt8) : Decidable (SignsAbsorbed bs) :=
  inferInstanceAs (Decidable (bs.Pairwise _))

section Join

variable {n : Nat} {f : UInt8 → BitVec n}

lemma shiftJoin_eq (ret : BitVec n) (bs : List UInt8) :
    shiftJoin f ret bs = ret ||| shiftJoin f 0#n bs := by
  induction bs generalizing ret with
  | nil => simp [shiftJoin]
  | cons b bs ih =>
    rw [shiftJoin, shiftJoin, ih, ih (0#n ||| _), BitVec.zero_or, BitVec.or_assoc]

lemma shiftJoin_cons (b : UInt8) (bs : List UInt8) :
    shiftJoin f 0#n (b :: bs) = f b <<< (8 * bs.length) ||| shiftJoin f 0#n bs := by
  rw [shiftJoin, shiftJoin_eq, BitVec.zero_or]

/-- Unsigned bytes make the number they stand for. -/
lemma toNat_shiftJoin (bs : List UInt8) (h : 8 * bs.length ≤ n) :
    (shiftJoin (zeroExtend n) 0#n bs).toNat = beNat bs := by
  induction bs with
  | nil => simp [shiftJoin, beNat, leNat]
  | cons b bs ih =>
    rw [List.length_cons] at h
    have hb : b.toNat < 2 ^ 8 := b.toNat_lt
    have hpow : 256 ^ bs.length = 2 ^ (8 * bs.length) := by rw [Nat.pow_mul]
    have hlt : beNat bs < 2 ^ (8 * bs.length) := hpow ▸ beNat_lt bs
    have hwide : b.toNat < 2 ^ n :=
      Nat.lt_of_lt_of_le hb (Nat.pow_le_pow_right (by decide) (by omega))
    have hshift : 2 ^ (8 * bs.length) * b.toNat < 2 ^ n := by
      have hmul := Nat.mul_lt_mul_of_pos_left hb (Nat.two_pow_pos (8 * bs.length))
      rw [← Nat.pow_add] at hmul
      exact Nat.lt_of_lt_of_le hmul (Nat.pow_le_pow_right (by decide) (by omega))
    rw [shiftJoin_cons, BitVec.toNat_or, ih (by omega), BitVec.toNat_shiftLeft, zeroExtend,
      BitVec.toNat_setWidth, UInt8.toNat_toBitVec, Nat.mod_eq_of_lt hwide, Nat.shiftLeft_eq,
      Nat.mul_comm b.toNat, Nat.mod_eq_of_lt hshift, ← Nat.two_pow_add_eq_or_of_lt hlt,
      beNat_cons, hpow]

/-- Above the bytes, a signed join has the sign of any of them. -/
lemma getLsbD_shiftJoin_signExtend (bs : List UInt8) {k : Nat} (hk : 8 * bs.length ≤ k)
    (hn : k < n) :
    (shiftJoin (signExtend n) 0#n bs).getLsbD k = bs.any (fun b => b.toBitVec.msb) := by
  induction bs with
  | nil => simp [shiftJoin]
  | cons b bs ih =>
    rw [List.length_cons] at hk
    have hge : ¬ k < 8 * bs.length := by omega
    have hsign : ¬ k - 8 * bs.length < 8 := by omega
    have hlt : k - 8 * bs.length < n := by omega
    rw [shiftJoin_cons, BitVec.getLsbD_or, BitVec.getLsbD_shiftLeft, signExtend,
      BitVec.getLsbD_signExtend, ih (by omega), List.any_cons]
    simp [hn, hge, hsign, hlt]

lemma getLsbD_shiftJoin_zeroExtend (bs : List UInt8) {k : Nat} (hk : 8 * bs.length ≤ k) :
    (shiftJoin (zeroExtend n) 0#n bs).getLsbD k = false := by
  induction bs with
  | nil => simp [shiftJoin]
  | cons b bs ih =>
    rw [List.length_cons] at hk
    have hhigh : b.toBitVec.getLsbD (k - 8 * bs.length) = false :=
      BitVec.getLsbD_of_ge _ _ (by omega)
    rw [shiftJoin_cons, BitVec.getLsbD_or, BitVec.getLsbD_shiftLeft, zeroExtend,
      BitVec.getLsbD_setWidth, hhigh, ih (by omega)]
    simp

/-- The bits of the bytes after the first. -/
lemma getLsbD_shiftJoin_low (f : UInt8 → BitVec n) (b : UInt8) (bs : List UInt8) {k : Nat}
    (hk : k < 8 * bs.length) :
    (shiftJoin f 0#n (b :: bs)).getLsbD k = (shiftJoin f 0#n bs).getLsbD k := by
  rw [shiftJoin_cons, BitVec.getLsbD_or, BitVec.getLsbD_shiftLeft]
  simp [hk]

/-- The bits of the first byte. -/
lemma getLsbD_shiftJoin_first (f : UInt8 → BitVec n) (b : UInt8) (bs : List UInt8) {j : Nat}
    (hj : 8 * bs.length + j < n) : (shiftJoin f 0#n (b :: bs)).getLsbD (8 * bs.length + j) =
      ((f b).getLsbD j || (shiftJoin f 0#n bs).getLsbD (8 * bs.length + j)) := by
  have hge : ¬ 8 * bs.length + j < 8 * bs.length := by omega
  rw [shiftJoin_cons, BitVec.getLsbD_or, BitVec.getLsbD_shiftLeft, Nat.add_sub_cancel_left,
    decide_eq_true hj, decide_eq_false hge, Bool.true_and, Bool.not_false, Bool.true_and]

lemma eq_ff_iff (b : UInt8) : b = 0xff ↔ ∀ j < 8, b.toBitVec.getLsbD j = true := by
  constructor
  · rintro rfl
    decide
  · intro hall
    apply UInt8.toBitVec_inj.mp
    apply BitVec.eq_of_getLsbD_eq
    intro j hj
    rw [hall j hj]
    exact (show ∀ i < 8, (0xff : UInt8).toBitVec.getLsbD i = true by decide) j hj |>.symm

/-- The two ways to convert the bytes agree on the bits that these fill exactly if no sign
reaches another byte. -/
lemma shiftJoin_agree_iff (bs : List UInt8) (h : 8 * bs.length ≤ n) :
    (∀ k < 8 * bs.length, (shiftJoin (signExtend n) 0#n bs).getLsbD k =
      (shiftJoin (zeroExtend n) 0#n bs).getLsbD k) ↔ SignsAbsorbed bs := by
  induction bs with
  | nil => simp [SignsAbsorbed]
  | cons b bs ih =>
    rw [List.length_cons] at h ⊢
    have ih := ih (by omega)
    have hsigned : ∀ j < 8, (shiftJoin (signExtend n) 0#n (b :: bs)).getLsbD (8 * bs.length + j) =
        (b.toBitVec.getLsbD j || bs.any (fun b => b.toBitVec.msb)) := by
      intro j hj
      have hn : 8 * bs.length + j < n := by omega
      rw [getLsbD_shiftJoin_first _ _ _ hn,
        getLsbD_shiftJoin_signExtend bs (Nat.le_add_right _ _) hn, signExtend,
        BitVec.getLsbD_signExtend, if_pos hj, decide_eq_true (by omega), Bool.true_and]
    have hunsigned : ∀ j < 8, (shiftJoin (zeroExtend n) 0#n (b :: bs)).getLsbD
        (8 * bs.length + j) = b.toBitVec.getLsbD j := by
      intro j hj
      rw [getLsbD_shiftJoin_first _ _ _ (by omega),
        getLsbD_shiftJoin_zeroExtend bs (Nat.le_add_right _ _), Bool.or_false, zeroExtend,
        BitVec.getLsbD_setWidth, decide_eq_true (by omega), Bool.true_and]
    rw [SignsAbsorbed, List.pairwise_cons]
    constructor
    · intro hall
      refine ⟨fun c hc hmsb => (eq_ff_iff b).mpr (fun j hj => ?_), ih.mp (fun k hk => ?_)⟩
      · have heq := hall (8 * bs.length + j) (by omega)
        rw [hsigned j hj, hunsigned j hj, List.any_eq_true.mpr ⟨c, hc, hmsb⟩,
          Bool.or_true] at heq
        exact heq.symm
      · have heq := hall k (by omega)
        rwa [getLsbD_shiftJoin_low _ _ _ hk, getLsbD_shiftJoin_low _ _ _ hk] at heq
    · rintro ⟨hb, hbs⟩ k hk
      by_cases hk' : k < 8 * bs.length
      · rw [getLsbD_shiftJoin_low _ _ _ hk', getLsbD_shiftJoin_low _ _ _ hk']
        exact ih.mpr hbs k hk'
      · obtain ⟨j, rfl⟩ := Nat.exists_eq_add_of_le (Nat.not_lt.mp hk')
        have hj : j < 8 := by omega
        rw [hsigned j hj, hunsigned j hj]
        cases hany : bs.any (fun b => b.toBitVec.msb) with
        | false => exact Bool.or_false _
        | true =>
          obtain ⟨c, hc, hmsb⟩ := List.any_eq_true.mp hany
          rw [(eq_ff_iff b).mp (hb c hc hmsb) j hj, Bool.true_or]

/-- For bytes that fill the number. -/
lemma shiftJoin_eq_iff {bs : List UInt8} (h : n = 8 * bs.length) :
    shiftJoin (signExtend n) 0#n bs = shiftJoin (zeroExtend n) 0#n bs ↔ SignsAbsorbed bs := by
  rw [← shiftJoin_agree_iff bs (Nat.le_of_eq h.symm), ← h]
  constructor
  · intro heq k _
    rw [heq]
  · intro hall
    exact BitVec.eq_of_getLsbD_eq hall

end Join
end Endian
