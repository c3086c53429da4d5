import EdNio.Buffer.ByteBuffer

/-!
# Generic numbers of EdByteBuffer

`getNum<T>` and `putNum<T>` beside the functions of each width, on a host where `char` is
signed.
-/

namespace EdNio.Buffer
open Endian MachineInt Memory

/-- An unsigned type of `size` bytes. -/
structure NumType (T : Type) where
  size : Nat
  ofBits : BitVec (8 * size) → T
  toBits : T → BitVec (8 * size)
  ofBits_toBits : ∀ v, ofBits (toBits v) = v
  toBits_ofBits : ∀ x, toBits (ofBits x) = x

namespace NumType

def u16 : NumType UInt16 := ⟨2, UInt16.ofBitVec, UInt16.toBitVec, fun _ => rfl, fun _ => rfl⟩

def u32 : NumType UInt32 := ⟨4, UInt32.ofBitVec, UInt32.toBitVec, fun _ => rfl, fun _ => rfl⟩

def u64 : NumType UInt64 := ⟨8, UInt64.ofBitVec, UInt64.toBitVec, fun _ => rfl, fun _ => rfl⟩

end NumType

namespace EdByteBuffer

variable {T : Type} (s : EdByteBuffer) (N : NumType T)

/-- `getNum<T>`. In network order each `char` is converted to `T`. -/
def getNumT : Result T × EdByteBuffer :=
  s.getNum N.size (fun bs => N.ofBits (BitVec.ofNat _ (leNat bs)))
    (fun ptr => N.ofBits (shiftJoin (signExtend _) 0#_ ptr))

/-- `putNum<T>`, which takes the bytes as `unsigned char`. -/
def putNumT (val : T) : Option (Int × EdByteBuffer) :=
  if s.mOrder = false then s.put (leBytes N.size (N.toBits val).toNat)
  else
    let ptr := leBytes N.size (N.toBits val).toNat
    s.put (leBytes N.size (shiftJoin (zeroExtend (8 * N.size)) 0#_ ptr).toNat)

end EdByteBuffer

/-- The bytes of a value in network order. -/
def NumType.netBytes {T : Type} (N : NumType T) (v : T) : List UInt8 :=
  beBytes N.size (N.toBits v).toNat

/-- When `getNum<T>` reads what `get` does, and what `putNum<T>` has stored. -/
structure ReadsAs {T : Type} (N : NumType T) (get : EdByteBuffer → Result T × EdByteBuffer)
    (s : EdByteBuffer) : Prop where
  value : ∀ bs, N.size ≤ s.remain → s.mBuf.load s.mReadPos N.size = some bs →
    (s.getNumT N = get s ↔ s.mOrder = false ∨ SignsAbsorbed bs)
  position : (s.getNumT N).2 = (get s).2
  stored : ∀ v : T, s.Inv → s.mSize + N.size < 2 ^ 63 →
    ∃ ret t bytes, s.putNumT N v = some (ret, t) ∧ t.contents = s.contents ++ bytes ∧
      ∀ (u : EdByteBuffer) (more : List UInt8), u.Inv → u.mOrder = s.mOrder →
        u.unread = bytes ++ more →
        ((u.getNumT N).1 = .ret v ↔ s.mOrder = false ∨ SignsAbsorbed (N.netBytes v))

namespace EdByteBuffer

variable {T : Type} {s : EdByteBuffer} {N : NumType T} {bs : List UInt8}

lemma getNum_eq {w : Nat} (host net : List UInt8 → T) (hw : w ≤ s.remain)
    (hl : s.mBuf.load s.mReadPos w = some bs) : s.getNum w host net =
      (.ret (if s.mOrder = false then host bs else net bs),
        { s with mReadPos := toSize (s.mReadPos + w) }) := by
  rw [getNum, if_pos hw, hl]

lemma getNum_snd {w : Nat} (host net host' net' : List UInt8 → T) :
    (s.getNum w host net).2 = (s.getNum w host' net').2 := by
  unfold getNum
  split
  · cases s.mBuf.load s.mReadPos w <;> rfl
  · rfl

end EdByteBuffer

open EdByteBuffer

section Reads

variable {T : Type} {N : NumType T} {bs : List UInt8}

lemma NumType.ofBits_inj {x y : BitVec (8 * N.size)} : N.ofBits x = N.ofBits y ↔ x = y := by
  constructor
  · intro h
    rw [← N.toBits_ofBits x, h, N.toBits_ofBits]
  · rintro rfl
    rfl

lemma length_load {b : Block} {o : Int} {w : Nat} (h : b.load o w = some bs) :
    bs.length = w := by
  unfold Block.load at h
  obtain ⟨-, h⟩ := Option.ite_none_right_eq_some.mp h
  cases h
  simp

lemma net_iff (h : bs.length = N.size) :
    N.ofBits (shiftJoin (signExtend _) 0#_ bs) = N.ofBits (shiftJoin (zeroExtend _) 0#_ bs) ↔
      SignsAbsorbed bs := by
  rw [NumType.ofBits_inj]
  exact shiftJoin_eq_iff (by rw [h])

lemma shiftJoin_netBytes (v : T) :
    shiftJoin (zeroExtend (8 * N.size)) 0#_ (N.netBytes v) = N.toBits v := by
  have hlen : (N.netBytes v).length = N.size := length_beBytes _ _
  have hlt := (N.toBits v).isLt
  rw [Nat.pow_mul] at hlt
  apply BitVec.eq_of_toNat_eq
  rw [toNat_shiftJoin _ (Nat.le_of_eq (by rw [hlen])), NumType.netBytes, beNat_beBytes]
  exact Nat.mod_eq_of_lt hlt

lemma putNumT_eq (s : EdByteBuffer) (v : T) : s.putNumT N v =
    s.put (if s.mOrder = false then leBytes N.size (N.toBits v).toNat else N.netBytes v) := by
  have hlen := length_leBytes N.size (N.toBits v).toNat
  have hbe := leBytes_beNat (leBytes N.size (N.toBits v).toNat)
  rw [hlen] at hbe
  unfold putNumT
  split
  · rfl
  · dsimp only
    rw [toNat_shiftJoin _ (Nat.le_of_eq (by rw [hlen])), hbe]
    rfl

lemma ReadsAs.of_getNum (s : EdByteBuffer) {host net : List UInt8 → T}
    (hhost : ∀ bs, host bs = N.ofBits (BitVec.ofNat _ (leNat bs)))
    (hnet : ∀ bs, bs.length = N.size → net bs = N.ofBits (shiftJoin (zeroExtend _) 0#_ bs)) :
    ReadsAs N (fun s => s.getNum N.size host net) s where
  value bs hw hl := by
    have hlen := length_load hl
    rw [getNumT, getNum_eq _ _ hw hl, getNum_eq _ _ hw hl, hhost, hnet bs hlen]
    cases s.mOrder with
    | false => simp
    | true => simpa using net_iff hlen
  position := getNum_snd _ _ _ _
  stored v hI hlt := by
    have hle : (leBytes N.size (N.toBits v).toNat).length = N.size := length_leBytes _ _
    have hbe : (N.netBytes v).length = N.size := length_beBytes _ _
    obtain ⟨bytes, hbytes⟩ : ∃ bytes, bytes =
        if s.mOrder = false then leBytes N.size (N.toBits v).toNat else N.netBytes v := ⟨_, rfl⟩
    have hlen : bytes.length = N.size := by
      rw [hbytes]
      split
      · exact hle
      · exact hbe
    have hfits : s.mSize + bytes.length < 2 ^ 63 := by
      rw [hlen]
      exact hlt
    obtain ⟨ret, t, ht, -, hc, -⟩ := hI.put hfits
    refine ⟨ret, t, bytes, by rw [putNumT_eq, ← hbytes, ht], hc, fun u more hu ho hmore => ?_⟩
    obtain ⟨hw, hl, -, -⟩ := hu.next hmore 0
    rw [hlen] at hw hl
    rw [getNumT, getNum_eq _ _ hw hl, ho, Result.ret.injEq]
    cases horder : s.mOrder with
    | false =>
      have hlt := (N.toBits v).isLt
      rw [Nat.pow_mul] at hlt
      have hnat : leNat bytes = (N.toBits v).toNat := by
        rw [hbytes, horder, if_pos rfl, leNat_leBytes]
        exact Nat.mod_eq_of_lt hlt
      simp [hnat, N.ofBits_toBits]
    | true =>
      have hb : bytes = N.netBytes v := by
        rw [hbytes, horder]
        rfl
      have hiff := net_iff (N := N) hbe
      rw [shiftJoin_netBytes, N.ofBits_toBits] at hiff
      simpa [hb] using hiff

/-- The generic readers agree with those of each width, and give back what was stored, exactly
in host order and when no byte with its sign set comes after one that is not `0xff`. -/
theorem numReaders_agree_iff (s : EdByteBuffer) :
    ReadsAs .u16 get16 s ∧ ReadsAs .u32 get32 s ∧ ReadsAs .u64 get64 s := by
  refine ⟨.of_getNum s (fun _ => rfl) (fun bs h => ?_),
    .of_getNum s (fun _ => rfl) (fun bs h => ?_), .of_getNum s (fun _ => rfl) (fun bs h => ?_)⟩
  · apply UInt16.toNat_inj.mp
    rw [toNat_join16 h]
    exact (toNat_shiftJoin bs (Nat.le_of_eq (congrArg (8 * ·) h))).symm
  · apply UInt32.toNat_inj.mp
    rw [toNat_join32 h]
    exact (toNat_shiftJoin bs (Nat.le_of_eq (congrArg (8 * ·) h))).symm
  · apply UInt64.toNat_inj.mp
    rw [toNat_join64 h]
    exact (toNat_shiftJoin bs (Nat.le_of_eq (congrArg (8 * ·) h))).symm

end Reads

/-- A buffer with the two bytes in network order. -/
def netBuffer (b b' : UInt8) : EdByteBuffer where
  mSize := 2
  mCapacity := 2
  mReadPos := 0
  mBuf := ⟨2, fun i => if i = 0 then b else if i = 1 then b' else 0⟩
  mErr := 0
  mOrder := true

/-- Without a sign set the generic reader gives the value, and with one behind a byte that is not
`0xff` it does not. -/
theorem numReaders_agree_iff_netBuffer :
    (netBuffer 1 2).getNumT .u16 = (netBuffer 1 2).get16 ∧
      (netBuffer 1 0x82).getNumT .u16 ≠ (netBuffer 1 0x82).get16 := by
  constructor
  · exact ((numReaders_agree_iff (netBuffer 1 2)).1.value [1, 2] (by decide) rfl).mpr (by decide)
  · rw [ne_eq, (numReaders_agree_iff (netBuffer 1 0x82)).1.value [1, 0x82] (by decide) rfl]
    decide

/-- Of 128 the sign of the low byte is read into the high one. -/
theorem not_numReaders_agree :
    ¬ ∀ s : EdByteBuffer, 2 ≤ s.remain → s.getNumT .u16 = s.get16 := by
  intro h
  have heq := congrArg Prod.fst (h (netBuffer 0 0x80) (by decide))
  exact absurd heq (by decide +kernel)

end EdNio.Buffer
