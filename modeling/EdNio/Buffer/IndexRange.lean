import EdNio.Buffer.StalePeek

/-!
# The indices of the ring as machine integers

The sums of the ring are formed before their remainder is taken. A read that starts near the
end of a large buffer adds up to more than an `int` holds.
-/

namespace EdNio.Buffer
open MachineInt Transition

/-- `x` is an `int`. -/
def IsInt (x : Int) : Prop :=
  -2 ^ 31 ≤ x ∧ x < 2 ^ 31

/-- The size of the call is an `int` and not negative. -/
def RingCall.SizeOk : RingCall → Prop
  | .put buf => buf.length < 2 ^ 31
  | .get _ size | .peek _ size | .peekNext _ size => 0 ≤ size ∧ size < 2 ^ 31

namespace EdRingQue

variable (q : EdRingQue)

/-- What `readPos` computes, in integers without bounds. -/
def readPosValues (size readpos datasize : Int) : List Int :=
  let rdsize := ESMIN size datasize
  let c := ESMIN rdsize (q.mBufSize - readpos)
  let next := (readpos + c).tmod q.mBufSize
  [q.mBufSize - readpos, readpos + c, next, rdsize - c] ++
    if 0 < rdsize - c then [next + (rdsize - c)] else []

/-- What `get`, `peek` and `peekNext` compute, from their position and the bytes left. -/
def readValues (size pos left : Int) : List Int :=
  let rdcnt := ESMIN size left
  q.readPosValues size pos left ++ [pos + rdcnt, (pos + rdcnt).tmod q.mBufSize, left - rdcnt]

/-- What `put` computes. -/
def putValues (size : Int) : List Int :=
  let wsize := ESMIN size (q.mBufSize - q.mDataSize)
  let c := ESMIN wsize (q.mBufSize - q.mWritePos)
  let next := (q.mWritePos + c).tmod q.mBufSize
  [q.mBufSize - q.mDataSize, q.mBufSize - q.mWritePos, q.mWritePos + c, next, wsize - c] ++
    (if 0 < wsize - c then [next + (wsize - c)] else []) ++ [q.mDataSize + wsize]

def values : RingCall → List Int
  | .put buf => q.putValues buf.length
  | .get _ size | .peek _ size => q.readValues size q.mReadPos q.mDataSize
  | .peekNext _ size => q.readValues size q.mLastPeekPos q.mLastPeekDataSize

variable {cap : Nat} {q} {s : BoundedFifo UInt8 cap} {r p k : Nat}

lemma ESMIN_sub (m : Nat) {a b : Nat} (h : b ≤ a) :
    ESMIN m ((a : Int) - b) = (min m (a - b) : Nat) := by
  rw [← Int.natCast_sub h, ESMIN_natCast]

/-- The end of the first copy is the end of the buffer at most, and where the second one
follows it is the end. -/
lemma copy_values {pos n c : Nat} (hcap : cap < 2 ^ 31) (hp : pos < cap) (hn : n ≤ cap)
    (hc : min n (cap - pos) = c) :
    (∀ x ∈ [(cap : Int) - pos, (pos : Int) + c, ((pos : Int) + c).tmod cap, (n : Int) - c] ++
      if 0 < (n : Int) - c then [((pos : Int) + c).tmod cap + ((n : Int) - c)] else [],
        IsInt x) := by
  have hmod : ((pos : Int) + c).tmod cap = ((pos + c) % cap : Nat) := rfl
  have hlt := Nat.mod_lt (pos + c) (Nat.zero_lt_of_lt hp)
  have hwrap : 0 < (n : Int) - c → (pos + c) % cap = 0 := by
    intro hrest
    rw [show pos + c = cap by omega, Nat.mod_self]
  rw [hmod]
  intro x hx
  rw [List.mem_append] at hx
  rcases hx with hx | hx
  · simp only [List.mem_cons, List.not_mem_nil, or_false] at hx
    unfold IsInt
    rcases hx with rfl | rfl | rfl | rfl <;> omega
  · split at hx
    · rename_i hrest
      rw [List.mem_singleton] at hx
      subst hx
      rw [hwrap hrest]
      unfold IsInt
      omega
    · cases hx

/-- Of what a read computes, only the sum for its position can leave the range. -/
lemma Holds.readValues_iff (h : q.Holds s r p k) (hcap : cap < 2 ^ 31) {size pos len : Nat}
    (hp : pos < cap) (hl : len ≤ cap) :
    (∀ x ∈ q.readValues size pos len, IsInt x) ↔ pos + min size len < 2 ^ 31 := by
  have hmod : ((pos : Int) + (min size len : Nat)).tmod cap =
      ((pos + min size len) % cap : Nat) := rfl
  have hlt := Nat.mod_lt (pos + min size len) (Nat.zero_lt_of_lt hp)
  unfold readValues readPosValues
  simp only [h.bufSize, ESMIN_natCast, ESMIN_sub _ hp.le]
  constructor
  · intro hall
    have hsum := (hall ((pos : Int) + (min size len : Nat)) (by simp)).2
    omega
  · intro hsum x hx
    rw [List.mem_append] at hx
    rcases hx with hx | hx
    · exact copy_values hcap hp (by omega) rfl x hx
    · simp only [List.mem_cons, List.not_mem_nil, or_false, hmod] at hx
      unfold IsInt
      rcases hx with rfl | rfl | rfl <;> omega

lemma Holds.putValues_int (h : q.Holds s r p k) (hcap : cap < 2 ^ 31) (size : Nat) :
    ∀ x ∈ q.putValues size, IsInt x := by
  have hb := s.bounded
  have hw := Nat.mod_lt (r + s.items.length) (Nat.zero_lt_of_lt h.r_lt)
  unfold putValues
  simp only [h.bufSize, h.dataSize, h.writePos, ESMIN_sub _ hb, ESMIN_sub _ hw.le]
  intro x hx
  rw [List.mem_append, List.cons_append] at hx
  rcases hx with hx | hx
  · rw [List.mem_cons] at hx
    rcases hx with rfl | hx
    · unfold IsInt
      omega
    · exact copy_values hcap hw (by omega) rfl x hx
  · rw [List.mem_singleton] at hx
    subst hx
    unfold IsInt
    omega

end EdRingQue

namespace WalkedQue

/-- In every run of calls with good sizes on a buffer of `B` bytes, each call computes only
values of `int`. -/
def StaysInt (B : Nat) (junk : Nat → UInt8) : Prop :=
  ∀ t, (walkedQue B junk).Reaches (fun _ c => c.SizeOk) t →
    ∀ c : RingCall, c.SizeOk → ∀ x ∈ t.que.values c, IsInt x

variable {cap : Nat} {t : WalkedQue} {s : BoundedFifo UInt8 cap} {k : Nat}

/-- A call with a good size computes only values of `int` if and only if the sum of its
position and the bytes it reads is one. -/
lemma Tracks.values_iff (h : t.Tracks s k) (hcap : cap < 2 ^ 31) {c : RingCall} (hc : c.SizeOk) :
    (∀ x ∈ t.que.values c, IsInt x) ↔ t.InRange c := by
  have hh := h.holds
  cases c with
  | put buf => exact ⟨fun _ => trivial, fun _ => hh.putValues_int hcap buf.length⟩
  | get buf size | peek buf size =>
    obtain ⟨size, rfl⟩ := Int.eq_ofNat_of_zero_le hc.1
    simp only [EdRingQue.values, InRange, hh.readPos, hh.dataSize]
    rw [hh.readValues_iff hcap hh.r_lt s.bounded]
    omega
  | peekNext buf size =>
    obtain ⟨size, rfl⟩ := Int.eq_ofNat_of_zero_le hc.1
    simp only [EdRingQue.values, InRange, hh.lastPeekPos, hh.lastPeekDataSize]
    rw [hh.readValues_iff hcap hh.p_lt hh.k_le]
    omega

/-- In a buffer of at most 2^30 bytes every call with a good size is in range. -/
lemma Tracks.inRange_of_sizeOk (h : t.Tracks s k) (hcap : cap ≤ 2 ^ 30) {c : RingCall}
    (hc : c.SizeOk) : t.InRange c := by
  cases c with
  | put buf => trivial
  | get buf size => exact (h.inRange hcap buf hc.1).1
  | peek buf size => exact (h.inRange hcap buf hc.1).2.1
  | peekNext buf size => exact (h.inRange hcap buf hc.1).2.2

lemma Tracks.reaches_sizeOk {junk : Nat → UInt8} (hcap : 1 ≤ cap) (hcap' : cap ≤ 2 ^ 30)
    (ht : (walkedQue cap junk).Reaches (fun _ c => c.SizeOk) t) :
    ∃ (s : BoundedFifo UInt8 cap) (k : Nat), t.Tracks s k := by
  refine ht.invariant (I := fun t => ∃ (s : BoundedFifo UInt8 cap) (k : Nat), t.Tracks s k) ?_ ?_
  · rintro t rfl
    exact ⟨BoundedFifo.empty, 0, Tracks.new junk hcap⟩
  · rintro t c u - ⟨s, k, h⟩ hc hu
    exact h.step (by omega) (h.inRange_of_sizeOk hcap' hc) hu

lemma Tracks.put_fills (h : t.Tracks s k) (hcap : cap < 2 ^ 31) {buf : List UInt8}
    (hbuf : buf.length = cap) :
    ∃ u, t.step (.put buf) = some u ∧ u.taken = t.taken ∧
      ∃ s' : BoundedFifo UInt8 cap, u.Tracks s' k ∧ s'.items.length = cap := by
  obtain ⟨q, hq, -⟩ := h.holds.put hcap buf
  have hstep : t.step (.put buf) =
      some { t with que := q, accepted := t.accepted ++ buf.take (min buf.length s.free) } := by
    rw [WalkedQue.step, hq]
    rfl
  obtain ⟨s', h'⟩ := h.put hcap hstep
  refine ⟨_, hstep, rfl, s', h', ?_⟩
  have hlen := h.length
  have hlen' : t.taken + s'.items.length =
      (t.accepted ++ buf.take (min buf.length s.free)).length := h'.length
  have hfree : s.free = cap - s.items.length := rfl
  have hb := s.bounded
  rw [List.length_append, List.length_take, hbuf, hfree] at hlen'
  omega

lemma Tracks.get_takes (h : t.Tracks s k) (hcap : cap < 2 ^ 31) {size : Nat}
    (hfit : t.taken % cap + min size s.items.length < 2 ^ 31) :
    ∃ u, t.step (.get false size) = some u ∧ u.taken = t.taken + min size s.items.length ∧
      ∃ s' : BoundedFifo UInt8 cap, u.Tracks s' k := by
  obtain ⟨q, hq, -⟩ := h.holds.get hcap false hfit
  have hstep : t.step (.get false size) =
      some { t with que := q, taken := t.taken + min size s.items.length } := by
    rw [WalkedQue.step, hq]
    rfl
  have hok : t.InRange (.get false size) := by
    refine ⟨Int.natCast_nonneg _, ?_⟩
    rw [h.holds.readPos, h.holds.dataSize]
    omega
  exact ⟨_, hstep, rfl, h.get hcap hok hstep⟩

/-- The buffer is filled, read up to its last byte, and filled again: it is full, from its
last place on. -/
lemma exists_full_from_last (junk : Nat → UInt8) (hcap : 1 ≤ cap) (hcap' : cap < 2 ^ 31) :
    ∃ t, (walkedQue cap junk).Reaches (fun _ c => c.SizeOk) t ∧
      ∃ (s : BoundedFifo UInt8 cap) (k : Nat), t.Tracks s k ∧ s.items.length = cap ∧
        t.taken % cap = cap - 1 := by
  obtain ⟨buf, hbuf⟩ : ∃ buf : List UInt8, buf.length = cap :=
    ⟨List.replicate cap 0, List.length_replicate⟩
  have hput : (RingCall.put buf).SizeOk := hbuf.trans_lt hcap'
  have hget : (RingCall.get false (cap - 1 : Nat)).SizeOk := ⟨Int.natCast_nonneg _, by omega⟩
  obtain ⟨t₀, hinit, h₀, htaken₀⟩ : ∃ t₀, (walkedQue cap junk).init t₀ ∧
      t₀.Tracks (BoundedFifo.empty : BoundedFifo UInt8 cap) 0 ∧ t₀.taken = 0 :=
    ⟨_, rfl, Tracks.new junk hcap, rfl⟩
  obtain ⟨t₁, hs₁, htaken₁, s₁, h₁, hfull₁⟩ := h₀.put_fills hcap' hbuf
  rw [htaken₀] at htaken₁
  have hfit : t₁.taken % cap + min (cap - 1) s₁.items.length < 2 ^ 31 := by
    rw [htaken₁, hfull₁, Nat.zero_mod]
    omega
  obtain ⟨t₂, hs₂, htaken₂, s₂, h₂⟩ := h₁.get_takes hcap' hfit
  obtain ⟨t₃, hs₃, htaken₃, s₃, h₃, hfull₃⟩ := h₂.put_fills hcap' hbuf
  have htaken : t₃.taken = cap - 1 := by
    rw [htaken₃, htaken₂, htaken₁, hfull₁]
    omega
  refine ⟨t₃, .step (.step (.step (.init hinit) hput hs₁) hget hs₂) hput hs₃, s₃, 0, h₃, hfull₃, ?_⟩
  rw [htaken, Nat.mod_eq_of_lt (by omega)]

/-- No call computes a value that is not an `int`, on any run, if and only if the buffer has at
most 2^30 bytes. In a larger one, as long as no value has left the range, a call stays in it if
and only if the sum of its position and the bytes it reads does. -/
theorem values_int_iff {B : Nat} (hB : 1 ≤ B) (hB' : B ≤ 2 ^ 31 - 1) (junk : Nat → UInt8) :
    (StaysInt B junk ↔ B ≤ 2 ^ 30) ∧
      ∀ t, (walkedQue B junk).Reaches (fun t c => c.SizeOk ∧ t.InRange c) t →
        ∀ c : RingCall, c.SizeOk → ((∀ x ∈ t.que.values c, IsInt x) ↔ t.InRange c) := by
  have hlt : B < 2 ^ 31 := by omega
  refine ⟨⟨fun hall => ?_, fun hle t ht c hc => ?_⟩, fun t ht c hc => ?_⟩
  · by_cases hle : B ≤ 2 ^ 30
    · exact hle
    · obtain ⟨t, ht, s, k, h, hfull, hlast⟩ := exists_full_from_last junk hB hlt
      have hsize : (RingCall.get false (B : Nat)).SizeOk := ⟨Int.natCast_nonneg _, by omega⟩
      have hsum := ((h.values_iff hlt hsize).mp (hall t ht _ hsize)).2
      rw [h.holds.readPos, h.holds.dataSize, hfull, hlast] at hsum
      omega
  · obtain ⟨s, k, h⟩ := Tracks.reaches_sizeOk hB hle ht
    exact (h.values_iff hlt hc).mpr (h.inRange_of_sizeOk hle hc)
  · obtain ⟨s, k, h⟩ := Tracks.reaches hB hlt (ht.mono (fun _ _ hok => hok.2))
    exact h.values_iff hlt hc

theorem values_int_iff_fourBytes :
    StaysInt 4 (fun _ => 0) ∧ ¬ StaysInt (2 ^ 30 + 1) (fun _ => 0) := by
  constructor
  · exact (values_int_iff (by decide) (by decide) _).1.mpr (by decide)
  · intro h
    exact absurd ((values_int_iff (by decide) (by decide) _).1.mp h) (by decide)

/-- In a buffer of 2^31 - 1 bytes that is full from its last place on, a get of all bytes adds up
to 2^32 - 3. -/
theorem not_values_int : ¬ ∀ B : Nat, 1 ≤ B → B ≤ 2 ^ 31 - 1 → StaysInt B (fun _ => 0) := by
  intro h
  obtain ⟨t, ht, s, k, hh, hfull, hlast⟩ :=
    exists_full_from_last (fun _ => 0) (show 1 ≤ 2 ^ 31 - 1 by decide) (by decide)
  have hsize : (RingCall.get false (2 ^ 31 - 1 : Nat)).SizeOk :=
    ⟨Int.natCast_nonneg _, by decide⟩
  have hall := h (2 ^ 31 - 1) (by decide) (by decide) t ht _ hsize
  have hsum := ((hh.values_iff (by decide) hsize).mp hall).2
  rw [hh.holds.readPos, hh.holds.dataSize, hfull, hlast] at hsum
  omega

end WalkedQue

end EdNio.Buffer
