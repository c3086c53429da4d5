import EdNio.Buffer.ByteBuffer
import Mathlib.Order.Bounds.Basic

/-!
# How far a byte buffer grows

`put` doubles the capacity until the bytes fit or 16384 is reached. Where they still do not
fit it goes on to a multiple of 128, which has the remainder of the size as so many blocks
and not as one.
-/

namespace EdNio.Buffer
open Memory

/-- One pass of the loop of `put`, none when it is over. -/
def pass (need t : Nat) : Option Nat :=
  if t < need ∧ t < 16 * 1024 then some (toSize (t * 2)) else none

/-- The loop ends, with `u`. -/
inductive LoopEnds (need : Nat) : Nat → Nat → Prop
  | leave {t : Nat} (h : pass need t = none) : LoopEnds need t t
  | enter {t t' u : Nat} (h : pass need t = some t') (hu : LoopEnds need t' u) :
    LoopEnds need t u

/-- The multiples of `d` not below `n`. -/
def multiplesFrom (d n : Nat) : Set Nat :=
  {m | d ∣ m ∧ n ≤ m}

lemma isLeast_multiplesFrom_iff {d n : Nat} (hd : 0 < d) (q : Nat) :
    IsLeast (multiplesFrom d n) (q * d) ↔ n ≤ q * d ∧ q * d < n + d := by
  constructor
  · rintro ⟨⟨-, hn⟩, hleast⟩
    refine ⟨hn, ?_⟩
    by_cases hq : q * d < n + d
    · exact hq
    have hprev : (q - 1) * d = q * d - d := by rw [Nat.sub_mul, Nat.one_mul]
    have hle : q * d ≤ (q - 1) * d := hleast ⟨⟨q - 1, Nat.mul_comm _ _⟩, by omega⟩
    omega
  · rintro ⟨hn, hlt⟩
    refine ⟨⟨⟨q, Nat.mul_comm q d⟩, hn⟩, ?_⟩
    rintro m ⟨⟨k, rfl⟩, hm⟩
    have hqk : q < k + 1 := by
      apply Nat.lt_of_mul_lt_mul_right (a := d)
      rw [Nat.add_mul, Nat.one_mul, Nat.mul_comm k d]
      omega
    rw [Nat.mul_comm d k]
    exact Nat.mul_le_mul_right d (Nat.le_of_lt_succ hqk)

lemma LoopEnds.doubled (need t : Nat) (h : 0 < t) :
    LoopEnds need t (EdByteBuffer.doubled need t h) := by
  fun_induction EdByteBuffer.doubled need t h with
  | case1 t h hin ih =>
    have hsize : toSize (t * 2) = t * 2 := Nat.mod_eq_of_lt (by omega)
    refine .enter ?_ ih
    rw [pass, if_pos hin, hsize]
  | case2 t h hout => exact .leave (if_neg hout)

namespace EdByteBuffer

variable (s : EdByteBuffer)

/-- Where the loop starts. -/
def start : Nat :=
  if s.mCapacity = 0 then 4 else s.mCapacity

lemma start_pos : 0 < s.start := by
  unfold start
  split <;> omega

/-- Where it ends. -/
def reached (need : Nat) : Nat :=
  doubled need s.start s.start_pos

/-- A doubling of the start has room for `need`, and the ones before it are below 16384. -/
def Doubles (need : Nat) : Prop :=
  ∃ k, need ≤ s.start * 2 ^ k ∧ ∀ j < k, s.start * 2 ^ j < 16 * 1024

/-- `cap` is enough and not more than the doubling or the rounding asks for. -/
structure Grows (need cap : Nat) : Prop where
  ends : LoopEnds need s.start (s.reached need)
  enough : need ≤ cap
  doubling : need ≤ s.reached need → cap = s.reached need
  rounding : s.reached need < need → IsLeast (multiplesFrom 128 need) cap

variable {s} {need : Nat}

lemma doubled_lt {t : Nat} (h : 0 < t) (ht : t < 16 * 1024) :
    doubled need t h < 2 * (16 * 1024) := by
  fun_induction doubled need t h with
  | case1 t h hin ih =>
    by_cases hnext : t * 2 < 16 * 1024
    · exact ih hnext
    · rw [doubled, if_neg (fun hc => hnext hc.2)]
      omega
  | case2 t h hout => omega

lemma le_doubled_iff {t : Nat} (h : 0 < t) :
    need ≤ doubled need t h ↔ ∃ k, need ≤ t * 2 ^ k ∧ ∀ j < k, t * 2 ^ j < 16 * 1024 := by
  fun_induction doubled need t h with
  | case1 t h hin ih =>
    rw [ih]
    constructor
    · rintro ⟨k, hk, hbelow⟩
      refine ⟨k + 1, ?_, fun j hj => ?_⟩
      · rwa [Nat.pow_succ', ← Nat.mul_assoc]
      · cases j with
        | zero => omega
        | succ j =>
          rw [Nat.pow_succ', ← Nat.mul_assoc]
          exact hbelow j (Nat.lt_of_succ_lt_succ hj)
    · rintro ⟨k, hk, hbelow⟩
      cases k with
      | zero => omega
      | succ k =>
        refine ⟨k, ?_, fun j hj => ?_⟩
        · rwa [Nat.mul_assoc, ← Nat.pow_succ']
        · rw [Nat.mul_assoc, ← Nat.pow_succ']
          exact hbelow (j + 1) (Nat.succ_lt_succ hj)
  | case2 t h hout =>
    constructor
    · intro hle
      exact ⟨0, by omega, fun j hj => absurd hj (Nat.not_lt_zero j)⟩
    · rintro ⟨k, hk, hbelow⟩
      cases k with
      | zero => omega
      | succ k =>
        have hstart := hbelow 0 (Nat.succ_pos k)
        omega

lemma newCapacity_of_reached (h : need ≤ s.reached need) :
    s.newCapacity need = s.reached need :=
  if_neg (Nat.not_lt.mpr h)

lemma newCapacity_of_not_reached (h : s.reached need < need) (hn : need < 2 ^ 63) :
    s.newCapacity need = (need / 128 + need % 128) * 128 := by
  have hcap : s.newCapacity need = toSize ((need / 128 + need % 128) * 128) := if_pos h
  rw [hcap]
  exact Nat.mod_eq_of_lt (by omega)

lemma grows_iff (hn : need < 2 ^ 63) :
    s.Grows need (s.newCapacity need) ↔ s.Doubles need ∨ need % 128 ≤ 1 := by
  have hdouble : s.Doubles need ↔ need ≤ s.reached need := (le_doubled_iff s.start_pos).symm
  rw [hdouble]
  rcases Nat.lt_or_ge (s.reached need) need with hlt | hge
  · have hcap := newCapacity_of_not_reached hlt hn
    have hleast : IsLeast (multiplesFrom 128 need) (s.newCapacity need) ↔ need % 128 ≤ 1 := by
      rw [hcap, isLeast_multiplesFrom_iff (by decide)]
      omega
    constructor
    · intro h
      exact .inr (hleast.mp (h.rounding hlt))
    · rintro (hge | hmod)
      · exact absurd hge (Nat.not_le.mpr hlt)
      · exact ⟨.doubled _ _ _, le_newCapacity hn, fun hge => absurd hge (Nat.not_le.mpr hlt),
          fun _ => hleast.mpr hmod⟩
  · refine ⟨fun _ => .inl hge, fun _ => ⟨.doubled _ _ _, le_newCapacity hn, fun _ => ?_, ?_⟩⟩
    · exact newCapacity_of_reached hge
    · exact fun hlt => absurd hge (Nat.not_le.mpr hlt)

lemma put_of_full {buf : List UInt8} (hfull : s.mCapacity < s.mSize + buf.length)
    (hn : s.mSize + buf.length < 2 ^ 63) :
    ∃ ret t, s.put buf = some (ret, t) ∧
      t.mCapacity = s.newCapacity (s.mSize + buf.length) := by
  have hneed : toSize (s.mSize + buf.length) = s.mSize + buf.length :=
    Nat.mod_eq_of_lt (by omega)
  have hle := le_newCapacity (s := s) hn
  obtain ⟨b, hb, -⟩ := Block.store_eq
    (b := (s.reserve (s.newCapacity (s.mSize + buf.length))).mBuf) (o := s.mSize)
    (n := buf.length) (s := buf) (by omega) (by omega)
    (by change _ ≤ ((s.newCapacity (s.mSize + buf.length) : Nat) : Int); omega) (Int.le_refl _)
  unfold EdByteBuffer.put
  simp only [hneed, if_pos hfull]
  refine ⟨_, _, Option.map_eq_some_iff.mpr ⟨b, hb, rfl⟩, rfl⟩

/-- A `put` that does not fit finds room. It takes the doubled capacity, or the least multiple
of 128 with room, if and only if a doubling is enough or the size is at most one byte over a
multiple of 128. -/
theorem put_grows_iff (s : EdByteBuffer) (buf : List UInt8) (hs : s.mSize < 2 ^ 62)
    (hb : buf.length < 2 ^ 62) (hfull : s.mCapacity < s.mSize + buf.length) :
    ∃ ret t, s.put buf = some (ret, t) ∧ s.mSize + buf.length ≤ t.mCapacity ∧
      LoopEnds (s.mSize + buf.length) s.start (s.reached (s.mSize + buf.length)) ∧
      (s.Grows (s.mSize + buf.length) t.mCapacity ↔
        s.Doubles (s.mSize + buf.length) ∨ (s.mSize + buf.length) % 128 ≤ 1) := by
  have hn : s.mSize + buf.length < 2 ^ 63 := by omega
  obtain ⟨ret, t, hput, hcap⟩ := put_of_full hfull hn
  refine ⟨ret, t, hput, ?_, .doubled _ _ _, ?_⟩
  · rw [hcap]
    exact le_newCapacity hn
  · rw [hcap]
    exact grows_iff hn

/-- A buffer with 100000 of 100000 bytes used takes 225 more: 100225 is 783 blocks and one
byte. -/
theorem put_grows_iff_taken : ∃ (s : EdByteBuffer) (buf : List UInt8), s.mSize = 100000 ∧
    s.mCapacity = 100000 ∧ buf.length = 225 ∧
    ∃ ret t, s.put buf = some (ret, t) ∧ s.Grows 100225 t.mCapacity := by
  obtain ⟨buf, hlen⟩ : ∃ buf : List UInt8, buf.length = 225 :=
    ⟨List.replicate 225 0, List.length_replicate⟩
  let s : EdByteBuffer := ⟨100000, 100000, 0, ⟨100000, fun _ => 0⟩, 0, false⟩
  have hneed : s.mSize + buf.length = 100225 := congrArg (100000 + ·) hlen
  have hcap : s.mCapacity < s.mSize + buf.length := by
    rw [hneed]
    decide
  obtain ⟨ret, t, hput, -, -, hiff⟩ := put_grows_iff s buf (by decide) (by omega) hcap
  rw [hneed] at hiff
  exact ⟨s, buf, rfl, rfl, hlen, ret, t, hput, hiff.mpr (.inr (by decide))⟩

/-- A new buffer takes 40000 bytes with a capacity of 48128, where 40064 would do. -/
theorem not_put_grows : ¬ ∀ (s : EdByteBuffer) (buf : List UInt8), s.mSize ≤ s.mCapacity →
    s.mSize < 2 ^ 62 → buf.length < 2 ^ 62 → s.mCapacity < s.mSize + buf.length →
    ∃ ret t, s.put buf = some (ret, t) ∧ s.Grows (s.mSize + buf.length) t.mCapacity := by
  intro h
  obtain ⟨buf, hlen⟩ : ∃ buf : List UInt8, buf.length = 40000 :=
    ⟨List.replicate 40000 0, List.length_replicate⟩
  let s := new (fun _ => 0)
  have hneed : s.mSize + buf.length = 40000 := (Nat.zero_add _).trans hlen
  have hcap : s.mCapacity < s.mSize + buf.length := by
    rw [hneed]
    decide
  have hreached : s.reached 40000 < 40000 :=
    Nat.lt_trans (doubled_lt (t := 4) (by decide) (by decide)) (by decide)
  obtain ⟨ret, t, hput, hgrows⟩ := h s buf (Nat.le_refl 0) (by decide) (by omega) hcap
  obtain ⟨ret', t', hput', hnew⟩ := put_of_full hcap (by omega)
  obtain ⟨-, rfl⟩ := Prod.mk.inj (Option.some.inj (hput.symm.trans hput'))
  rw [hnew, hneed] at hgrows
  rcases (grows_iff (by decide)).mp hgrows with hdouble | hmod
  · exact absurd ((le_doubled_iff s.start_pos).mpr hdouble) (Nat.not_le.mpr hreached)
  · exact absurd hmod (by decide)

end EdByteBuffer

end EdNio.Buffer
