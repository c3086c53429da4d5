import EdNio.Buffer.ByteBuffer
import EdNio.Library.Transition
import Mathlib.Logic.Function.Basic

/-!
# The calls of EdByteBuffer

The functions that move the read position or change the block, and any number of buffers with
any calls of them, in which one buffer may be moved to another.
-/

namespace EdNio.Buffer
open Endian MachineInt Memory Transition

namespace EdByteBuffer

variable (s : EdByteBuffer)

def rewind : EdByteBuffer := { s with mReadPos := 0 }

def clear : EdByteBuffer := { s with mSize := 0, mReadPos := 0 }

def consume (len : UInt64) : EdByteBuffer :=
  let c := min len.toNat s.mSize
  { s with mReadPos := toSize (s.mReadPos + c) }

/-- The buffer that is left; a NULL `mBuf` has no bytes. -/
def release : EdByteBuffer :=
  { s with mBuf := s.mBuf.realloc 0, mCapacity := 0, mSize := 0, mReadPos := 0 }

def takeBuffer (ptr : Block) (datasize cap : UInt64) : EdByteBuffer :=
  { s with mBuf := ptr, mReadPos := 0, mCapacity := cap.toNat, mSize := datasize.toNat }

/-- `reserve` when `realloc` may fail, which makes `mBuf` NULL. -/
def reserveAny (size : Nat) (ok : Bool) : EdByteBuffer :=
  if ok then s.reserve size else { s with mBuf := s.mBuf.realloc 0, mCapacity := size }

def enlarge (size : UInt64) (ok : Bool) : EdByteBuffer :=
  s.reserveAny (toSize (s.mCapacity + size.toNat)) ok

end EdByteBuffer

/-- The values of a type as their bytes. -/
def ObjRep.raw (size : Nat) : ObjRep {bs : List UInt8 // bs.length = size} where
  size := size
  bytes v := v.1
  value bs := if h : bs.length = size then ⟨bs, h⟩ else ⟨List.replicate size 0, by simp⟩
  length_bytes v := v.2
  value_bytes v := dif_pos v.2

/-- `put<T>` and `putNum<T>` are calls of `put`. `getNum` stands for every width, and `getObj`
for `get<T>`. -/
inductive Call
  | put (buf : List UInt8)
  | put8 (c : UInt8)
  | put16 (c : UInt16)
  | put32 (c : UInt32)
  | put64 (c : UInt64)
  | get (count : UInt64)
  | get8
  | get16
  | get32
  | get64
  | getNum (w : Nat)
  | getObj (size : Nat)
  | consume (len : UInt64)
  | rewind
  | clear
  | release
  | takeBuffer (ptr : Block) (datasize cap : UInt64)
  | reserve (size : UInt64) (ok : Bool)
  | enlarge (size : UInt64) (ok : Bool)
  | setOrder (order : Int)

/-- The bytes that a call stores. -/
def Call.bytes (order : Bool) : Call → List UInt8
  | .put buf => buf
  | .put8 c => Item.encode order (.num8 c)
  | .put16 c => Item.encode order (.num16 c)
  | .put32 c => Item.encode order (.num32 c)
  | .put64 c => Item.encode order (.num64 c)
  | _ => []

def Call.puts : Call → Bool
  | .put _ | .put8 _ | .put16 _ | .put32 _ | .put64 _ => true
  | _ => false

def Call.gets : Call → Bool
  | .get _ | .get8 | .get16 | .get32 | .get64 | .getNum _ | .getObj _ => true
  | _ => false

namespace EdByteBuffer

variable (s : EdByteBuffer)

/-- The buffer after a call. There is none if `put` writes outside the block. -/
def call : Call → Option EdByteBuffer
  | .put buf => (s.put buf).map Prod.snd
  | .put8 c => (s.put8 c).map Prod.snd
  | .put16 c => (s.put16 c).map Prod.snd
  | .put32 c => (s.put32 c).map Prod.snd
  | .put64 c => (s.put64 c).map Prod.snd
  | .get count => some (s.get count.toNat).2
  | .get8 => some s.get8.2
  | .get16 => some s.get16.2
  | .get32 => some s.get32.2
  | .get64 => some s.get64.2
  | .getNum w => some (s.getNum w leNat beNat).2
  | .getObj size => some (s.getObj (.raw size)).2
  | .consume len => some (s.consume len)
  | .rewind => some s.rewind
  | .clear => some s.clear
  | .release => some s.release
  | .takeBuffer ptr datasize cap => some (s.takeBuffer ptr datasize cap)
  | .reserve size ok => some (s.reserveAny size.toNat ok)
  | .enlarge size ok => some (s.enlarge size ok)
  | .setOrder order => some (s.setOrder order)

/-- The caller of `takeBuffer` has a block with the data, and a block is smaller than `2^63`
bytes. -/
def canCall : Call → Bool
  | .takeBuffer ptr datasize cap =>
    datasize.toNat ≤ ptr.size ∧ cap.toNat ≤ ptr.size ∧ ptr.size < 2 ^ 63
  | .reserve size ok => ok → size.toNat < 2 ^ 63
  | .enlarge size ok => ok → toSize (s.mCapacity + size.toNat) < 2 ^ 63
  | c => s.mSize + (c.bytes s.mOrder).length < 2 ^ 63

/-- What lies after the block is not known. -/
def around (junk : Nat → UInt8) : EdByteBuffer :=
  { s with mBuf := s.mBuf.around junk }

end EdByteBuffer

/-- `junk` is what a call of `realloc` finds after the old block. -/
inductive BufferAction
  | call (i : Nat) (c : Call) (junk : Nat → UInt8)
  | move (i j : Nat)

/-- `s i = std::move(s j)`. -/
def moved (s : Nat → EdByteBuffer) (i j : Nat) : Nat → EdByteBuffer :=
  if i = j then s
  else Function.update (Function.update s i (s j)) j (.new (s j).mBuf.byte)

def buffers : System (Nat → EdByteBuffer) BufferAction where
  init s := ∀ i, ∃ junk, s i = .new junk
  step s
    | .call i c junk =>
      if (s i).canCall c then (((s i).around junk).call c).map (Function.update s i) else none
    | .move i j => some (moved s i j)

namespace EdByteBuffer

variable {s t : EdByteBuffer} {c : Call}

/-- The calls that store are calls of `put`. -/
lemma call_puts (h : c.puts = true) :
    s.call c = (s.put (c.bytes s.mOrder)).map Prod.snd := by
  have hset : s.setOrder s.mOrder.toInt = s := by
    cases s with
    | mk _ _ _ _ _ order => cases order <;> rfl
  have hitem : ∀ it : Item, s.putItem it = s.put (it.encode s.mOrder) := by
    intro it
    have heq := putItem_setOrder s s.mOrder it
    rwa [hset] at heq
  cases c with
  | put buf => rfl
  | put8 v => exact congrArg (Option.map Prod.snd) (hitem (.num8 v))
  | put16 v => exact congrArg (Option.map Prod.snd) (hitem (.num16 v))
  | put32 v => exact congrArg (Option.map Prod.snd) (hitem (.num32 v))
  | put64 v => exact congrArg (Option.map Prod.snd) (hitem (.num64 v))
  | _ => cases h

lemma put_eq_some {buf : List UInt8} {ret : Int} (h : s.put buf = some (ret, t)) :
    t.mSize = toSize (s.mSize + buf.length) ∧ t.mReadPos = s.mReadPos := by
  obtain ⟨b, -, hb⟩ := Option.map_eq_some_iff.mp h
  rw [Prod.mk.injEq] at hb
  rw [← hb.2]
  refine ⟨rfl, ?_⟩
  dsimp only
  split <;> rfl

/-- The data and the block stay. -/
structure SameData (s t : EdByteBuffer) : Prop where
  mSize : t.mSize = s.mSize
  mCapacity : t.mCapacity = s.mCapacity
  mBuf : t.mBuf = s.mBuf

/-- A get moves the read position at most over the bytes that are left. -/
structure Advances (s t : EdByteBuffer) : Prop extends SameData s t where
  mReadPos : t.mReadPos = s.mReadPos ∨ ∃ w, t.mReadPos = toSize (s.mReadPos + w) ∧
    (w ≤ s.remain ∨ s.mReadPos + w ≤ s.mSize)

lemma Advances.refl (s : EdByteBuffer) : Advances s s := ⟨⟨rfl, rfl, rfl⟩, .inl rfl⟩

lemma getNum_advances {α : Type} (w : Nat) (host net : List UInt8 → α) :
    Advances s (s.getNum w host net).2 := by
  unfold getNum
  split
  · rename_i hw
    split
    · exact ⟨⟨rfl, rfl, rfl⟩, .inr ⟨w, rfl, .inl hw⟩⟩
    · exact .refl s
  · exact .refl s

lemma call_advances (hc : c.gets = true) (h : s.call c = some t) : Advances s t := by
  cases c with
  | get count =>
    cases h
    unfold get
    dsimp only
    split
    · exact ⟨⟨rfl, rfl, rfl⟩, .inr ⟨_, rfl, .inl (Nat.min_le_right _ _)⟩⟩
    · exact .refl s
  | get8 =>
    cases h
    unfold get8
    split
    · rename_i hpos
      split
      · exact ⟨⟨rfl, rfl, rfl⟩, .inr ⟨1, rfl, .inr hpos⟩⟩
      · exact .refl s
    · exact .refl s
  | get16 | get32 | get64 | getNum =>
    cases h
    exact getNum_advances _ _ _
  | getObj size =>
    cases h
    unfold getObj
    split
    · exact ⟨⟨rfl, rfl, rfl⟩, .inl rfl⟩
    · rename_i hge
      split
      · exact ⟨⟨rfl, rfl, rfl⟩, .inr ⟨size, rfl, .inl (Nat.not_lt.mp hge)⟩⟩
      · exact .refl s
  | _ => cases hc

lemma call_same (hc : c.gets = true) (h : s.call c = some t) : SameData s t :=
  (call_advances hc h).toSameData

lemma remain_eq (hle : s.mReadPos ≤ s.mSize) (hlt : s.mSize < 2 ^ 63) :
    s.remain = s.mSize - s.mReadPos := by
  rw [remain, toSize]
  omega

/-- Each get reads what is left, at most. -/
lemma call_inside (hc : c.gets = true) (hle : s.mReadPos ≤ s.mSize) (hlt : s.mSize < 2 ^ 63)
    (h : s.call c = some t) : t.mReadPos ≤ s.mSize := by
  rcases (call_advances hc h).mReadPos with hpos | ⟨w, hpos, hw⟩
  · rw [hpos]
    exact hle
  · rw [remain_eq hle hlt] at hw
    rw [hpos, toSize]
    omega

end EdByteBuffer

end EdNio.Buffer
