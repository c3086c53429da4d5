import EdNio.Library.Block
import EdNio.Library.Endian
import EdNio.Library.MachineInt

/-!
# EdByteBuffer

The growing buffer with its read position, on a little-endian host where `realloc`
succeeds. Sizes are 64-bit. An access outside the buffer is a fault.
-/

namespace EdNio.Buffer
open Endian MachineInt Memory

/-- A `size_t`. -/
def toSize (n : Nat) : Nat := n % 2 ^ 64

/-- How the values of a type lie in memory. -/
structure ObjRep (T : Type) where
  size : Nat
  bytes : T → List UInt8
  value : List UInt8 → T
  length_bytes : ∀ v, (bytes v).length = size
  value_bytes : ∀ v, value (bytes v) = v

/-- The end of a call: a value, a `throw`, or an access outside the buffer. -/
inductive Result (α : Type)
  | ret (v : α)
  | thrown (n : Int)
  | fault
deriving DecidableEq, Repr

structure EdByteBuffer where
  mSize : Nat
  mCapacity : Nat
  mReadPos : Nat
  mBuf : Block
  mErr : Int
  mOrder : Bool

def htons (c : UInt16) : UInt16 := UInt16.ofNat (beNat (leBytes 2 c.toNat))

def htonl (c : UInt32) : UInt32 := UInt32.ofNat (beNat (leBytes 4 c.toNat))

/-- Two bytes shifted and joined as in `get16`. -/
def join16 : List UInt8 → UInt16
  | [a, b] => a.toUInt16 <<< 8 ||| b.toUInt16 <<< 0
  | _ => 0

/-- Four bytes shifted and joined as in `get32`. -/
def join32 : List UInt8 → UInt32
  | [a, b, c, d] =>
    a.toUInt32 <<< 24 ||| b.toUInt32 <<< 16 ||| c.toUInt32 <<< 8 ||| d.toUInt32 <<< 0
  | _ => 0

/-- Eight bytes shifted and joined as in `put64` and `get64`. -/
def join64 : List UInt8 → UInt64
  | [a, b, c, d, e, f, g, h] =>
    a.toUInt64 <<< 56 ||| b.toUInt64 <<< 48 ||| c.toUInt64 <<< 40 ||| d.toUInt64 <<< 32 |||
      e.toUInt64 <<< 24 ||| f.toUInt64 <<< 16 ||| g.toUInt64 <<< 8 ||| h.toUInt64 <<< 0
  | _ => 0

namespace EdByteBuffer

variable (s : EdByteBuffer)

/-- `junk` is what `realloc` will give. -/
def new (junk : Nat → UInt8) : EdByteBuffer where
  mSize := 0
  mCapacity := 0
  mReadPos := 0
  mBuf := ⟨0, junk⟩
  mErr := 0
  mOrder := false

def setOrder (order : Int) : EdByteBuffer :=
  { s with mOrder := decide (order ≠ 0) }

def remain : Nat := toSize (s.mSize + (2 ^ 64 - s.mReadPos))

def reserve (size : Nat) : EdByteBuffer :=
  { s with mBuf := s.mBuf.realloc size, mCapacity := size }

/-- The loop that doubles `t`. -/
def doubled (need t : Nat) (h : 0 < t) : Nat :=
  if t < need ∧ t < 16 * 1024 then doubled need (t * 2) (by omega) else t
termination_by 16 * 1024 - t

/-- The size `put` reserves for `need` bytes. -/
def newCapacity (need : Nat) : Nat :=
  let t := doubled need (if s.mCapacity = 0 then 4 else s.mCapacity) (by split <;> omega)
  if t < need then toSize ((need / 128 + need % 128) * 128) else t

def put (buf : List UInt8) : Option (Int × EdByteBuffer) :=
  let need := toSize (s.mSize + buf.length)
  let s := if s.mCapacity < need then s.reserve (s.newCapacity need) else s
  (s.mBuf.store s.mSize buf.length buf).map (fun b =>
    (toI32 need, { s with mBuf := b, mSize := need }))

def put8 (c : UInt8) : Option (Int × EdByteBuffer) := s.put [c]

def put16 (c : UInt16) : Option (Int × EdByteBuffer) :=
  if s.mOrder = false then s.put (leBytes 2 c.toNat) else s.put (leBytes 2 (htons c).toNat)

def put32 (c : UInt32) : Option (Int × EdByteBuffer) :=
  if s.mOrder = false then s.put (leBytes 4 c.toNat) else s.put (leBytes 4 (htonl c).toNat)

def put64 (c : UInt64) : Option (Int × EdByteBuffer) :=
  if s.mOrder = false then s.put (leBytes 8 c.toNat)
  else s.put (leBytes 8 (join64 (leBytes 8 c.toNat)).toNat)

/-- `put<T>`. -/
def putObj {T : Type} (rep : ObjRep T) (val : T) : Option (Int × EdByteBuffer) :=
  s.put (rep.bytes val)

/-- `get(buf, count)`. -/
def get (count : Nat) : Result (List UInt8) × EdByteBuffer :=
  let c := min count s.remain
  match s.mBuf.load s.mReadPos c with
  | some bs => (.ret bs, { s with mReadPos := toSize (s.mReadPos + c) })
  | none => (.fault, s)

/-- `get16`, `get32` and `get64`: `host` reads the bytes as they lie in memory, `net` joins
them. -/
def getNum {α : Type} (w : Nat) (host net : List UInt8 → α) : Result α × EdByteBuffer :=
  if w ≤ s.remain then
    match s.mBuf.load s.mReadPos w with
    | some bs =>
      (.ret (if s.mOrder = false then host bs else net bs),
        { s with mReadPos := toSize (s.mReadPos + w) })
    | none => (.fault, s)
  else (.thrown 1, s)

def get16 : Result UInt16 × EdByteBuffer :=
  s.getNum 2 (fun bs => UInt16.ofNat (leNat bs)) join16

def get32 : Result UInt32 × EdByteBuffer :=
  s.getNum 4 (fun bs => UInt32.ofNat (leNat bs)) join32

def get64 : Result UInt64 × EdByteBuffer :=
  s.getNum 8 (fun bs => UInt64.ofNat (leNat bs)) join64

def get8 : Result UInt8 × EdByteBuffer :=
  if s.mReadPos < s.mSize then
    match s.mBuf.load s.mReadPos 1 with
    | some bs => (.ret (bs.headD 0), { s with mReadPos := toSize (s.mReadPos + 1) })
    | none => (.fault, s)
  else (.thrown 1, s)

/-- `get<T>`. -/
def getObj {T : Type} (rep : ObjRep T) : Result T × EdByteBuffer :=
  if s.remain < rep.size then
    (.ret (rep.value (List.replicate rep.size 0)), { s with mErr := -1 })
  else
    match s.mBuf.load s.mReadPos rep.size with
    | some bs =>
      (.ret (rep.value bs), { s with mReadPos := toSize (s.mReadPos + rep.size), mErr := 0 })
    | none => (.fault, s)

def getError : Int := s.mErr

end EdByteBuffer

/-- What one call of `put` stores. -/
inductive Item : Type 1
  | num8 (v : UInt8)
  | num16 (v : UInt16)
  | num32 (v : UInt32)
  | num64 (v : UInt64)
  | bytes (bs : List UInt8)
  | obj {T : Type} (rep : ObjRep T) (v : T)

namespace EdByteBuffer

variable (s : EdByteBuffer)

def putItem : Item → Option (Int × EdByteBuffer)
  | .num8 v => s.put8 v
  | .num16 v => s.put16 v
  | .num32 v => s.put32 v
  | .num64 v => s.put64 v
  | .bytes bs => s.put bs
  | .obj rep v => s.putObj rep v

/-- The value of a call of `get` as an item. -/
def returned {α : Type} (f : α → Item) : Result α × EdByteBuffer → Option (Item × EdByteBuffer)
  | (.ret v, s) => some (f v, s)
  | (_, _) => none

/-- The call of `get` that matches the call of `put` for an item. -/
def getItem : Item → Option (Item × EdByteBuffer)
  | .num8 _ => returned .num8 s.get8
  | .num16 _ => returned .num16 s.get16
  | .num32 _ => returned .num32 s.get32
  | .num64 _ => returned .num64 s.get64
  | .bytes bs => returned .bytes (s.get bs.length)
  | .obj rep _ => returned (.obj rep) (s.getObj rep)

end EdByteBuffer

/-- A call of `setOrder` with 0 or 1 and the put of an item, or of the order of the next item
and its get. -/
inductive Step : Type 1
  | put (order : Bool) (it : Item)
  | get

namespace EdByteBuffer

/-- The items read. `waiting` are the items put and not read, with their orders; a get without
such an item is not a matching one and left out. -/
def run : EdByteBuffer → List (Bool × Item) → List Step → Option (List Item × EdByteBuffer)
  | s, _, [] => some ([], s)
  | s, waiting, .put order it :: steps =>
    ((s.setOrder order.toInt).putItem it).bind (fun (_, s) =>
      s.run (waiting ++ [(order, it)]) steps)
  | s, (order, it) :: waiting, .get :: steps =>
    ((s.setOrder order.toInt).getItem it).bind (fun (x, s) =>
      (s.run waiting steps).map (fun (xs, s) => (x :: xs, s)))
  | s, [], .get :: steps => s.run [] steps

end EdByteBuffer

/-- The items that matching gets should read. -/
def expected : List Item → List Step → List Item
  | _, [] => []
  | waiting, .put _ it :: steps => expected (waiting ++ [it]) steps
  | it :: waiting, .get :: steps => it :: expected waiting steps
  | [], .get :: steps => expected [] steps

/-- The bytes an item is stored as. -/
def Item.encode (order : Bool) : Item → List UInt8
  | .num8 v => [v]
  | .num16 v => if order then beBytes 2 v.toNat else leBytes 2 v.toNat
  | .num32 v => if order then beBytes 4 v.toNat else leBytes 4 v.toNat
  | .num64 v => if order then beBytes 8 v.toNat else leBytes 8 v.toNat
  | .bytes bs => bs
  | .obj rep v => rep.bytes v

/-- The bytes that the puts store. -/
def stored : List Step → List UInt8
  | [] => []
  | .put order it :: steps => it.encode order ++ stored steps
  | .get :: steps => stored steps

/-- The bytes of the items not yet read. -/
def encodes (waiting : List (Bool × Item)) : List UInt8 :=
  waiting.flatMap (fun (order, it) => it.encode order)

lemma toNat_join16 {bs : List UInt8} (h : bs.length = 2) : (join16 bs).toNat = beNat bs := by
  rcases bs with _ | ⟨a, _ | ⟨b, _ | ⟨_, _⟩⟩⟩ <;> simp at h
  exact or_shift16 a b

lemma toNat_join32 {bs : List UInt8} (h : bs.length = 4) : (join32 bs).toNat = beNat bs := by
  rcases bs with _ | ⟨a, _ | ⟨b, _ | ⟨c, _ | ⟨d, _ | ⟨_, _⟩⟩⟩⟩⟩ <;> simp at h
  exact or_shift32 a b c d

lemma toNat_join64 {bs : List UInt8} (h : bs.length = 8) : (join64 bs).toNat = beNat bs := by
  rcases bs with _ | ⟨a, _ | ⟨b, _ | ⟨c, _ | ⟨d, _ | ⟨e, _ | ⟨f, _ | ⟨g, _ | ⟨i, _ | ⟨_, _⟩⟩⟩⟩⟩⟩⟩⟩⟩
    <;> simp at h
  exact or_shift64 a b c d e f g i

lemma join16_beBytes (v : UInt16) : join16 (beBytes 2 v.toNat) = v := by
  apply UInt16.toNat_inj.mp
  rw [toNat_join16 (length_beBytes 2 _), beNat_beBytes]
  exact Nat.mod_eq_of_lt v.toNat_lt

lemma join32_beBytes (v : UInt32) : join32 (beBytes 4 v.toNat) = v := by
  apply UInt32.toNat_inj.mp
  rw [toNat_join32 (length_beBytes 4 _), beNat_beBytes]
  exact Nat.mod_eq_of_lt v.toNat_lt

lemma join64_beBytes (v : UInt64) : join64 (beBytes 8 v.toNat) = v := by
  apply UInt64.toNat_inj.mp
  rw [toNat_join64 (length_beBytes 8 _), beNat_beBytes]
  exact Nat.mod_eq_of_lt v.toNat_lt

lemma leBytes_htons (v : UInt16) : leBytes 2 (htons v).toNat = beBytes 2 v.toNat := by
  have h := beNat_lt (leBytes 2 v.toNat)
  have h' := leBytes_beNat (leBytes 2 v.toNat)
  rw [length_leBytes] at h h'
  rw [htons, UInt16.toNat_ofNat_of_lt' h]
  exact h'

lemma leBytes_htonl (v : UInt32) : leBytes 4 (htonl v).toNat = beBytes 4 v.toNat := by
  have h := beNat_lt (leBytes 4 v.toNat)
  have h' := leBytes_beNat (leBytes 4 v.toNat)
  rw [length_leBytes] at h h'
  rw [htonl, UInt32.toNat_ofNat_of_lt' h]
  exact h'

lemma leBytes_join64 (v : UInt64) :
    leBytes 8 (join64 (leBytes 8 v.toNat)).toNat = beBytes 8 v.toNat := by
  have h := leBytes_beNat (leBytes 8 v.toNat)
  rw [length_leBytes] at h
  rw [toNat_join64 (length_leBytes 8 _)]
  exact h

lemma ofNat_leNat16 (v : UInt16) : UInt16.ofNat (leNat (leBytes 2 v.toNat)) = v := by
  rw [leNat_leBytes, Nat.mod_eq_of_lt (show v.toNat < 256 ^ 2 from v.toNat_lt),
    UInt16.ofNat_toNat]

lemma ofNat_leNat32 (v : UInt32) : UInt32.ofNat (leNat (leBytes 4 v.toNat)) = v := by
  rw [leNat_leBytes, Nat.mod_eq_of_lt (show v.toNat < 256 ^ 4 from v.toNat_lt),
    UInt32.ofNat_toNat]

lemma ofNat_leNat64 (v : UInt64) : UInt64.ofNat (leNat (leBytes 8 v.toNat)) = v := by
  rw [leNat_leBytes, Nat.mod_eq_of_lt (show v.toNat < 256 ^ 8 from v.toNat_lt),
    UInt64.ofNat_toNat]

namespace EdByteBuffer

variable {s : EdByteBuffer}

/-- The bytes stored. -/
def contents (s : EdByteBuffer) : List UInt8 := (List.range s.mSize).map s.mBuf.byte

def unread (s : EdByteBuffer) : List UInt8 := s.contents.drop s.mReadPos

/-- A typed get for which too few bytes are left throws or gives the zero value, and leaves
the bytes and the read position. -/
structure RefusesShort (s : EdByteBuffer) : Prop where
  get8 : s.remain < 1 → s.get8 = (.thrown 1, s)
  get16 : s.remain < 2 → s.get16 = (.thrown 1, s)
  get32 : s.remain < 4 → s.get32 = (.thrown 1, s)
  get64 : s.remain < 8 → s.get64 = (.thrown 1, s)
  getObj : ∀ {T : Type} (rep : ObjRep T), s.remain < rep.size →
    ∃ t, s.getObj rep = (.ret (rep.value (List.replicate rep.size 0)), t) ∧
      t.getError = -1 ∧ t.contents = s.contents ∧ t.mReadPos = s.mReadPos

structure Inv (s : EdByteBuffer) : Prop where
  block : s.mBuf.size = s.mCapacity
  size_le : s.mSize ≤ s.mCapacity
  readPos_le : s.mReadPos ≤ s.mSize
  size_lt : s.mSize < 2 ^ 63

lemma Inv.new (junk : Nat → UInt8) : (EdByteBuffer.new junk).Inv := by
  constructor <;> simp [EdByteBuffer.new]

lemma Inv.setOrder (h : s.Inv) (order : Int) : (s.setOrder order).Inv :=
  ⟨h.block, h.size_le, h.readPos_le, h.size_lt⟩

@[simp] lemma unread_setOrder (order : Int) : (s.setOrder order).unread = s.unread := rfl

@[simp] lemma contents_setOrder (order : Int) : (s.setOrder order).contents = s.contents := rfl

lemma mOrder_setOrder (order : Bool) : (s.setOrder order.toInt).mOrder = order := by
  cases order <;> rfl

lemma length_unread (s : EdByteBuffer) : s.unread.length = s.mSize - s.mReadPos := by
  simp [unread, contents]

lemma Inv.remain (h : s.Inv) : s.remain = s.unread.length := by
  have h1 := h.readPos_le
  have h2 := h.size_lt
  rw [length_unread, EdByteBuffer.remain, toSize]
  omega

lemma le_newCapacity {need : Nat} (h : need < 2 ^ 63) : need ≤ s.newCapacity need := by
  unfold newCapacity
  generalize doubled need (if s.mCapacity = 0 then 4 else s.mCapacity) _ = t
  dsimp only
  split
  · rw [toSize]
    omega
  · omega

/-- `put` into a buffer whose block has its capacity at least. -/
lemma put_spec (hblock : s.mCapacity ≤ s.mBuf.size) {buf : List UInt8}
    (hb : s.mSize + buf.length < 2 ^ 63) :
    ∃ ret t, s.put buf = some (ret, t) ∧ t.mSize = s.mSize + buf.length ∧
      t.mSize ≤ t.mCapacity ∧ t.mCapacity ≤ t.mBuf.size ∧
      (s.mBuf.size = s.mCapacity → t.mBuf.size = t.mCapacity) ∧
      t.contents = s.contents ++ buf ∧ t.mReadPos = s.mReadPos := by
  have hneed : toSize (s.mSize + buf.length) = s.mSize + buf.length := by
    rw [toSize]
    omega
  have hgrown : ∃ u : EdByteBuffer, (if s.mCapacity < s.mSize + buf.length then
        s.reserve (s.newCapacity (s.mSize + buf.length)) else s) = u ∧
      u.mCapacity ≤ u.mBuf.size ∧ (s.mBuf.size = s.mCapacity → u.mBuf.size = u.mCapacity) ∧
      s.mSize + buf.length ≤ u.mCapacity ∧
      u.mBuf.byte = s.mBuf.byte ∧ u.mSize = s.mSize ∧ u.mReadPos = s.mReadPos := by
    split
    · exact ⟨_, rfl, Nat.le_refl _, fun _ => rfl, le_newCapacity hb, rfl, rfl, rfl⟩
    · exact ⟨s, rfl, hblock, id, by omega, rfl, rfl, rfl⟩
  obtain ⟨u, hu, hle, heq, hcap, hbyte, hsz, hpos⟩ := hgrown
  obtain ⟨b, hst, hbs, hin, hout⟩ := Block.store_eq (b := u.mBuf) (o := u.mSize)
    (n := buf.length) (s := buf) (by omega) (by omega) (by omega) (Int.le_refl _)
  simp only [Int.toNat_natCast] at hin hout
  refine ⟨toI32 (s.mSize + buf.length : Nat),
    { u with mBuf := b, mSize := s.mSize + buf.length }, ?_, rfl, hcap, hbs ▸ hle,
    fun h => hbs.trans (heq h), ?_, hpos⟩
  · unfold EdByteBuffer.put
    simp only [hneed, hu]
    rw [hst]
    rfl
  · simp only [contents]
    apply List.ext_getElem (by simp)
    intro i hi hi'
    simp only [List.length_map, List.length_range] at hi
    simp only [List.getElem_map, List.getElem_range]
    by_cases hlt : i < s.mSize
    · rw [hout i (by omega), hbyte, List.getElem_append_left (by simpa using hlt)]
      simp
    · have hi2 : i - s.mSize < buf.length := by omega
      have hin' := hin (i - s.mSize) hi2
      rw [hsz, show s.mSize + (i - s.mSize) = i by omega] at hin'
      rw [hin', List.getElem_append_right (by simpa using hlt)]
      simp [hi2]

/-- `put` appends and leaves the rest. -/
lemma Inv.put (h : s.Inv) {buf : List UInt8} (hb : s.mSize + buf.length < 2 ^ 63) :
    ∃ ret t, s.put buf = some (ret, t) ∧ t.Inv ∧ t.contents = s.contents ++ buf ∧
      t.mReadPos = s.mReadPos := by
  have hle := h.readPos_le
  obtain ⟨ret, t, ht, hsize, hcap, -, heq, hc, hpos⟩ :=
    put_spec (Nat.le_of_eq h.block.symm) hb
  refine ⟨ret, t, ht, ⟨heq h.block, hcap, ?_, ?_⟩, hc, hpos⟩
  · omega
  · omega

/-- A read of the next `w` bytes. -/
lemma Inv.load (h : s.Inv) {w : Nat} (hw : w ≤ s.unread.length) :
    s.mBuf.load s.mReadPos w = some (s.unread.take w) := by
  rw [length_unread] at hw
  have h1 := h.size_le
  have h2 := h.readPos_le
  rw [Block.load_eq (by omega) (by omega) (by rw [h.block]; omega)]
  simp only [Int.toNat_natCast, Option.some.injEq]
  apply List.ext_getElem
  · rw [List.length_take, length_unread]
    simp [hw]
  · intro i hi hi'
    simp [unread, contents]

/-- The state after a read of `w` bytes, whatever it does to the error. -/
lemma Inv.advance (h : s.Inv) {w : Nat} (hw : w ≤ s.unread.length) (e : Int) :
    { s with mReadPos := toSize (s.mReadPos + w), mErr := e }.Inv ∧
      { s with mReadPos := toSize (s.mReadPos + w), mErr := e }.unread = s.unread.drop w := by
  rw [length_unread] at hw
  have h1 := h.readPos_le
  have h2 := h.size_lt
  have hpos : toSize (s.mReadPos + w) = s.mReadPos + w := by
    rw [toSize]
    omega
  rw [hpos]
  refine ⟨⟨h.block, h.size_le, ?_, h.size_lt⟩, ?_⟩
  · show s.mReadPos + w ≤ s.mSize
    omega
  · simp only [unread, contents, List.drop_drop]

lemma putItem_setOrder (s : EdByteBuffer) (order : Bool) (it : Item) :
    (s.setOrder order.toInt).putItem it = (s.setOrder order.toInt).put (it.encode order) := by
  have ho := mOrder_setOrder (s := s) order
  cases it with
  | num8 v => rfl
  | bytes bs => rfl
  | obj rep v => rfl
  | num16 v =>
    rw [putItem, put16, ho, Item.encode, leBytes_htons]
    cases order <;> rfl
  | num32 v =>
    rw [putItem, put32, ho, Item.encode, leBytes_htonl]
    cases order <;> rfl
  | num64 v =>
    rw [putItem, put64, ho, Item.encode, leBytes_join64]
    cases order <;> rfl

/-- What the next bytes give a read of as many. -/
lemma Inv.next (h : s.Inv) {bs more : List UInt8} (hu : s.unread = bs ++ more) (e : Int) :
    bs.length ≤ s.remain ∧ s.mBuf.load s.mReadPos bs.length = some bs ∧
      { s with mReadPos := toSize (s.mReadPos + bs.length), mErr := e }.Inv ∧
      { s with mReadPos := toSize (s.mReadPos + bs.length), mErr := e }.unread = more := by
  have hw : bs.length ≤ s.unread.length := by
    rw [hu, List.length_append]
    exact Nat.le_add_right _ _
  obtain ⟨hinv, hdrop⟩ := h.advance hw e
  refine ⟨h.remain ▸ hw, ?_, hinv, ?_⟩
  · rw [h.load hw, hu, List.take_left]
  · rw [hdrop, hu, List.drop_left]

/-- A number that is there is read, in the order it was put. -/
lemma Inv.getNum (h : s.Inv) {α : Type} (host net : List UInt8 → α) {w n : Nat} {v : α}
    {more : List UInt8} (hhost : host (leBytes w n) = v) (hnet : net (beBytes w n) = v)
    (hu : s.unread = (if s.mOrder then beBytes w n else leBytes w n) ++ more) :
    ∃ t, s.getNum w host net = (.ret v, t) ∧ t.Inv ∧ t.unread = more ∧
      t.contents = s.contents := by
  have hw : (if s.mOrder then beBytes w n else leBytes w n).length = w := by
    split <;> simp
  obtain ⟨hrem, hload, hinv, hmore⟩ := h.next hu s.mErr
  rw [hw] at hrem hload hinv hmore
  refine ⟨{ s with mReadPos := toSize (s.mReadPos + w) }, ?_, hinv, hmore, rfl⟩
  rw [EdByteBuffer.getNum, if_pos hrem, hload]
  cases s.mOrder with
  | false => simp [hhost]
  | true => simp [hnet]

lemma Inv.getItem (h : s.Inv) {it : Item} {more : List UInt8}
    (hu : s.unread = it.encode s.mOrder ++ more) :
    ∃ t, s.getItem it = some (it, t) ∧ t.Inv ∧ t.unread = more ∧ t.contents = s.contents := by
  cases it with
  | num8 v =>
    obtain ⟨hrem, hload, hinv, hmore⟩ := h.next hu s.mErr
    have hlt : s.mReadPos < s.mSize := by
      rw [h.remain, length_unread] at hrem
      exact Nat.lt_of_sub_pos hrem
    refine ⟨{ s with mReadPos := toSize (s.mReadPos + 1) }, ?_, hinv, hmore, rfl⟩
    rw [EdByteBuffer.getItem, get8, if_pos hlt, show s.mBuf.load s.mReadPos 1 = some [v] from hload]
    rfl
  | num16 v =>
    obtain ⟨t, ht, hrest⟩ := h.getNum (fun bs => UInt16.ofNat (leNat bs)) join16
      (ofNat_leNat16 v) (join16_beBytes v) hu
    refine ⟨t, ?_, hrest⟩
    rw [EdByteBuffer.getItem, get16, ht]
    rfl
  | num32 v =>
    obtain ⟨t, ht, hrest⟩ := h.getNum (fun bs => UInt32.ofNat (leNat bs)) join32
      (ofNat_leNat32 v) (join32_beBytes v) hu
    refine ⟨t, ?_, hrest⟩
    rw [EdByteBuffer.getItem, get32, ht]
    rfl
  | num64 v =>
    obtain ⟨t, ht, hrest⟩ := h.getNum (fun bs => UInt64.ofNat (leNat bs)) join64
      (ofNat_leNat64 v) (join64_beBytes v) hu
    refine ⟨t, ?_, hrest⟩
    rw [EdByteBuffer.getItem, get64, ht]
    rfl
  | bytes bs =>
    obtain ⟨hrem, hload, hinv, hmore⟩ := h.next hu s.mErr
    refine ⟨{ s with mReadPos := toSize (s.mReadPos + bs.length) }, ?_, hinv, hmore, rfl⟩
    have hmin : min bs.length s.remain = bs.length := Nat.min_eq_left hrem
    have hget : s.get bs.length =
        (.ret bs, { s with mReadPos := toSize (s.mReadPos + bs.length) }) := by
      simp only [EdByteBuffer.get, hmin]
      rw [show s.mBuf.load s.mReadPos bs.length = some bs from hload]
    rw [EdByteBuffer.getItem, hget]
    rfl
  | obj rep v =>
    obtain ⟨hrem, hload, hinv, hmore⟩ := h.next hu 0
    have hlen : (Item.encode s.mOrder (.obj rep v)).length = rep.size := rep.length_bytes v
    rw [hlen] at hrem hload hinv hmore
    refine ⟨{ s with mReadPos := toSize (s.mReadPos + rep.size), mErr := 0 }, ?_, hinv, hmore,
      rfl⟩
    rw [EdByteBuffer.getItem, getObj, if_neg (Nat.not_lt.mpr hrem), hload]
    exact congrArg (fun v => some (Item.obj rep v, _)) (rep.value_bytes v)

lemma getNum_short {α : Type} {host net : List UInt8 → α} {w : Nat} (h : s.remain < w) :
    s.getNum w host net = (.thrown 1, s) :=
  if_neg (Nat.not_le.mpr h)

lemma Inv.refusesShort (h : s.Inv) : s.RefusesShort where
  get8 hr := by
    rw [h.remain, length_unread] at hr
    exact if_neg (by omega)
  get16 := getNum_short
  get32 := getNum_short
  get64 := getNum_short
  getObj rep hr := ⟨{ s with mErr := -1 }, if_pos hr, rfl, rfl, rfl⟩

lemma length_contents (s : EdByteBuffer) : s.contents.length = s.mSize := by
  simp [contents]

lemma encodes_append (waiting : List (Bool × Item)) (order : Bool) (it : Item) :
    encodes (waiting ++ [(order, it)]) = encodes waiting ++ it.encode order := by
  simp [encodes]

/-- What is unread are the items put and not read. -/
lemma Inv.run (steps : List Step) : ∀ {s : EdByteBuffer} {waiting : List (Bool × Item)},
    s.Inv → s.unread = encodes waiting → s.mSize + (stored steps).length < 2 ^ 63 →
    ∃ outs t, s.run waiting steps = some (outs, t) ∧
      outs = expected (waiting.map Prod.snd) steps ∧ t.Inv ∧
      t.contents = s.contents ++ stored steps := by
  induction steps with
  | nil =>
    intro s waiting h hu hsz
    refine ⟨[], s, by rw [EdByteBuffer.run], by rw [expected], h, ?_⟩
    rw [stored, List.append_nil]
  | cons step steps ih =>
    intro s waiting h hu hsz
    cases step with
    | put order it =>
      rw [stored, List.length_append] at hsz
      have hput : (s.setOrder order.toInt).mSize + (it.encode order).length < 2 ^ 63 := by
        show s.mSize + _ < 2 ^ 63
        omega
      obtain ⟨ret, t, ht, hinv, hc, hpos⟩ := (h.setOrder order.toInt).put hput
      have hsize : t.mSize = s.mSize + (it.encode order).length := by
        rw [← length_contents, hc, List.length_append, contents_setOrder, length_contents]
      have hunread : t.unread = encodes (waiting ++ [(order, it)]) := by
        have hle : s.mReadPos ≤ s.contents.length := by
          rw [length_contents]
          exact h.readPos_le
        rw [unread, hc, hpos, contents_setOrder, encodes_append, ← hu, unread]
        exact List.drop_append_of_le_length hle
      obtain ⟨outs, u, hrun, houts, hu', hcu⟩ := ih hinv hunread (by rw [hsize]; omega)
      refine ⟨outs, u, ?_, ?_, hu', ?_⟩
      · rw [EdByteBuffer.run, putItem_setOrder, ht, Option.bind_some]
        exact hrun
      · rw [houts, List.map_append, expected]
        rfl
      · rw [hcu, hc, contents_setOrder, stored, List.append_assoc]
    | get =>
      rw [stored] at hsz ⊢
      rcases waiting with _ | ⟨⟨order, it⟩, waiting⟩
      · rw [EdByteBuffer.run, List.map_nil, expected]
        exact ih h hu hsz
      · have ho := mOrder_setOrder (s := s) order
        have hnext : (s.setOrder order.toInt).unread =
            it.encode (s.setOrder order.toInt).mOrder ++ encodes waiting := by
          rw [unread_setOrder, hu, ho]
          rfl
        obtain ⟨t, ht, hinv, hmore, hc⟩ := (h.setOrder order.toInt).getItem hnext
        have hsize : t.mSize = s.mSize := by
          rw [← length_contents, hc, contents_setOrder, length_contents]
        obtain ⟨outs, u, hrun, houts, hu', hcu⟩ := ih hinv hmore (by rw [hsize]; exact hsz)
        refine ⟨it :: outs, u, ?_, ?_, hu', ?_⟩
        · rw [EdByteBuffer.run, ht, Option.bind_some]
          dsimp only
          rw [hrun]
          rfl
        · rw [houts, List.map_cons, expected]
        · rw [hcu, hc, contents_setOrder]

/-- After every sequence of puts and matching gets on a new buffer, the gets have returned the
items put, in order; the buffer holds the bytes of the items, those of a number big-endian
where the order was 1; and a typed get that is too wide is refused. -/
theorem round_trip (junk : Nat → UInt8) (steps : List Step)
    (hsize : (stored steps).length < 2 ^ 62) :
    ∃ outs t, (EdByteBuffer.new junk).run [] steps = some (outs, t) ∧
      outs = expected [] steps ∧ t.contents = stored steps ∧
      ∀ order : Int, (t.setOrder order).RefusesShort := by
  have hnone : (EdByteBuffer.new junk).unread = encodes [] := rfl
  have hsz : (EdByteBuffer.new junk).mSize + (stored steps).length < 2 ^ 63 := by
    show 0 + _ < 2 ^ 63
    omega
  obtain ⟨outs, t, hrun, houts, hinv, hc⟩ := Inv.run steps (Inv.new junk) hnone hsz
  exact ⟨outs, t, hrun, houts, hc, fun order => (hinv.setOrder order).refusesShort⟩

theorem round_trip_mixedRun : ∃ outs t, (EdByteBuffer.new (fun _ => 0)).run []
      [.put true (.num16 0x1122), .put false (.num32 0x11223344), .get, .put true (.bytes [7, 8]),
        .get, .get] = some (outs, t) ∧
    outs = [.num16 0x1122, .num32 0x11223344, .bytes [7, 8]] ∧
    t.contents = [0x11, 0x22, 0x44, 0x33, 0x22, 0x11, 7, 8] ∧
    ∀ order : Int, (t.setOrder order).RefusesShort :=
  round_trip (fun _ => 0)
    [.put true (.num16 0x1122), .put false (.num32 0x11223344), .get, .put true (.bytes [7, 8]),
      .get, .get] (by decide)

end EdByteBuffer

end EdNio.Buffer
