import EdNio.Library.Block
import EdNio.Library.BoundedFifo
import EdNio.Library.Circular
import EdNio.Library.MachineInt

/-!
# EdRingQue

The ring of bytes with its positions as 32-bit integers. An operation gives none when it
would copy outside the buffer or divide by zero.
-/

namespace EdNio.Buffer
open MachineInt Memory

structure EdRingQue where
  mBuf : Block
  mReadPos : Int
  mWritePos : Int
  mBufSize : Int
  mDataSize : Int
  mLastPeekPos : Int
  mLastPeekDataSize : Int

def ESMIN (a b : Int) : Int :=
  if a < b then a else b

namespace EdRingQue

variable (q : EdRingQue)

/-- `junk` is what `malloc` left in the buffer. -/
def new (bufsize : Int) (junk : Nat → UInt8) : EdRingQue where
  mBuf := ⟨bufsize.toNat, junk⟩
  mReadPos := 0
  mWritePos := 0
  mBufSize := bufsize
  mDataSize := 0
  mLastPeekPos := 0
  mLastPeekDataSize := 0

/-- `x % mBufSize`. -/
def wrap (x : Int) : Option Int :=
  if q.mBufSize = 0 then none else some (x.tmod q.mBufSize)

/-- `memcpy` to the caller's buffer, unless that is NULL. -/
def copyOut (buf : Bool) (off len : Int) : Option (List UInt8) :=
  if buf then q.mBuf.load off len else some []

/-- The returned count and the bytes copied to the caller's buffer. -/
def readPos (buf : Bool) (size readpos datasize : Int) : Option (Int × List UInt8) :=
  let rdsize := ESMIN size datasize
  let retVal := rdsize
  let c := ESMIN rdsize (toI32 (q.mBufSize - readpos))
  (q.copyOut buf readpos c).bind (fun out =>
    (q.wrap (toI32 (readpos + c))).bind (fun _ =>
      let rdsize := toI32 (rdsize - c)
      if 0 < rdsize then (q.copyOut buf 0 rdsize).map (fun out' => (retVal, out ++ out'))
      else some (retVal, out)))

def get (buf : Bool) (size : Int) : Option ((Int × List UInt8) × EdRingQue) :=
  (q.readPos buf size q.mReadPos q.mDataSize).bind (fun (rdcnt, out) =>
    (q.wrap (toI32 (q.mReadPos + rdcnt))).map (fun pos =>
      ((rdcnt, out), { q with mReadPos := pos, mDataSize := toI32 (q.mDataSize - rdcnt) })))

def peek (buf : Bool) (size : Int) : Option ((Int × List UInt8) × EdRingQue) :=
  (q.readPos buf size q.mReadPos q.mDataSize).bind (fun (rdcnt, out) =>
    (q.wrap (toI32 (q.mReadPos + rdcnt))).map (fun pos =>
      ((rdcnt, out),
        { q with mLastPeekPos := pos, mLastPeekDataSize := toI32 (q.mDataSize - rdcnt) })))

def peekNext (buf : Bool) (size : Int) : Option ((Int × List UInt8) × EdRingQue) :=
  (q.readPos buf size q.mLastPeekPos q.mLastPeekDataSize).bind (fun (rdcnt, out) =>
    (q.wrap (toI32 (q.mLastPeekPos + rdcnt))).map (fun pos =>
      ((rdcnt, out),
        { q with mLastPeekPos := pos, mLastPeekDataSize := toI32 (q.mLastPeekDataSize - rdcnt) })))

/-- `buf` are the `size` bytes of the caller. -/
def put (buf : List UInt8) : Option (Int × EdRingQue) :=
  let size : Int := buf.length
  let wsize := ESMIN size (toI32 (q.mBufSize - q.mDataSize))
  let retVal := wsize
  let c := ESMIN wsize (toI32 (q.mBufSize - q.mWritePos))
  (q.mBuf.store q.mWritePos c buf).bind (fun mBuf =>
    (q.wrap (toI32 (q.mWritePos + c))).bind (fun mWritePos =>
      let wsize := toI32 (wsize - c)
      let mDataSize := toI32 (q.mDataSize + retVal)
      if 0 < wsize then
        (mBuf.store 0 wsize (buf.drop c.toNat)).map (fun mBuf =>
          (retVal, { q with
            mBuf := mBuf
            mWritePos := toI32 (mWritePos + wsize)
            mDataSize := mDataSize }))
      else
        some (retVal, { q with mBuf := mBuf, mWritePos := mWritePos, mDataSize := mDataSize })))

def getDataSize : Int := q.mDataSize

def getFreeSize : Int := toI32 (q.mBufSize - q.mDataSize)

end EdRingQue

/-- A call of the queue; `buf` is false for a NULL buffer. -/
inductive Op
  | put (buf : List UInt8)
  | get (buf : Bool) (size : Nat)
  | peek (buf : Bool) (size : Nat)
  | peekNext (buf : Bool) (size : Nat)
  | getDataSize
  | getFreeSize
deriving DecidableEq, Repr

/-- The returned value and the bytes copied to the caller. -/
abbrev Out := Int × List UInt8

def EdRingQue.call (q : EdRingQue) : Op → Option (Out × EdRingQue)
  | .put buf => (q.put buf).map (fun (ret, q) => ((ret, []), q))
  | .get buf size => q.get buf size
  | .peek buf size => q.peek buf size
  | .peekNext buf size => q.peekNext buf size
  | .getDataSize => some ((q.getDataSize, []), q)
  | .getFreeSize => some ((q.getFreeSize, []), q)

def EdRingQue.calls (q : EdRingQue) : List Op → Option (List Out × EdRingQue)
  | [] => some ([], q)
  | op :: ops =>
    (q.call op).bind (fun (out, q) => (q.calls ops).map (fun (outs, q) => (out :: outs, q)))

namespace EdRingQue

/-- What the queue should answer; none where that is left open. -/
def spec {cap : Nat} (s : BoundedFifo UInt8 cap) : Op → Option Out × BoundedFifo UInt8 cap
  | .put buf => (some (((min buf.length s.free : Nat) : Int), []), s.put buf)
  | .get buf size =>
    (some (((min size s.items.length : Nat) : Int), if buf then s.items.take size else []),
      s.get size)
  | .peek buf size =>
    (some (((min size s.items.length : Nat) : Int), if buf then s.items.take size else []),
      s.peek size)
  | .peekNext buf size =>
    ((s.next size).map (fun xs => (xs.length, if buf then xs else [])), s.peekNext size)
  | .getDataSize => (some (s.items.length, []), s)
  | .getFreeSize => (some (s.free, []), s)

def specs {cap : Nat} (s : BoundedFifo UInt8 cap) : List Op → List (Option Out) × BoundedFifo UInt8 cap
  | [] => ([], s)
  | op :: ops => ((spec s op).1 :: (specs (spec s op).2 ops).1, (specs (spec s op).2 ops).2)

/-- The positions are inside the buffer and fit together. -/
structure Bounds (q : EdRingQue) : Prop where
  readPos : 0 ≤ q.mReadPos ∧ q.mReadPos < q.mBufSize
  writePos : 0 ≤ q.mWritePos ∧ q.mWritePos < q.mBufSize
  dataSize : 0 ≤ q.mDataSize ∧ q.mDataSize ≤ q.mBufSize
  ring : q.mWritePos = (q.mReadPos + q.mDataSize) % q.mBufSize

/-- The queue holds the items of `s` from position `r` on, and has been peeked up to `p` with
`k` bytes left to peek. -/
structure Holds {cap : Nat} (q : EdRingQue) (s : BoundedFifo UInt8 cap) (r p k : Nat) : Prop where
  bufSize : q.mBufSize = cap
  block : q.mBuf.size = cap
  readPos : q.mReadPos = r
  r_lt : r < cap
  dataSize : q.mDataSize = s.items.length
  writePos : q.mWritePos = ((r + s.items.length) % cap : Nat)
  items : Circular.window cap q.mBuf.byte r s.items.length = s.items
  lastPeekPos : q.mLastPeekPos = p
  p_lt : p < cap
  lastPeekDataSize : q.mLastPeekDataSize = k
  k_le : k ≤ cap
  peeked : ∀ c, s.peeked = some c → p = (r + c.1) % cap ∧ k = c.2

def Represents {cap : Nat} (q : EdRingQue) (s : BoundedFifo UInt8 cap) : Prop :=
  ∃ r p k, q.Holds s r p k

variable {cap : Nat} {q : EdRingQue} {s : BoundedFifo UInt8 cap} {r p k : Nat}

lemma Holds.bounds (h : q.Holds s r p k) : q.Bounds := by
  have hb := s.bounded
  have hr := h.r_lt
  have hw := Nat.mod_lt (r + s.items.length) (Nat.zero_lt_of_lt hr)
  constructor
  · rw [h.readPos, h.bufSize]
    omega
  · rw [h.writePos, h.bufSize]
    omega
  · rw [h.dataSize, h.bufSize]
    omega
  · rw [h.writePos, h.readPos, h.dataSize, h.bufSize]
    rfl

lemma Holds.new (junk : Nat → UInt8) (h : 0 < cap) :
    (EdRingQue.new cap junk).Holds (BoundedFifo.empty : BoundedFifo UInt8 cap) 0 0 0 := by
  constructor <;> simp [EdRingQue.new, BoundedFifo.empty, h]

lemma toI32_natCast_of_lt {a : Nat} (h : a < 2 ^ 31) : toI32 a = a :=
  toI32_eq (by omega) (by omega)

lemma toI32_sub_natCast {a b : Nat} (h : b ≤ a) (ha : a < 2 ^ 31) :
    toI32 ((a : Int) - b) = (a - b : Nat) := by
  rw [← Int.natCast_sub h]
  exact toI32_natCast_of_lt (by omega)

lemma ESMIN_natCast (m n : Nat) : ESMIN m n = (min m n : Nat) := by
  unfold ESMIN
  split <;> omega

lemma wrap_natCast {n : Nat} (hs : q.mBufSize = cap) (h : 0 < cap) :
    q.wrap n = some ((n % cap : Nat) : Int) := by
  have hne : ¬ (cap : Int) = 0 := by omega
  simp only [wrap, hs, hne, if_false]
  rfl

/-- `readPos` copies a window of the ring. -/
lemma readPos_eq {buf : Bool} {size pos len : Nat} (hcap : cap < 2 ^ 31) (hs : q.mBufSize = cap)
    (hb : q.mBuf.size = cap) (hp : pos < cap) (hl : len ≤ cap) :
    q.readPos buf size pos len = some (((min size len : Nat) : Int),
      if buf then Circular.window cap q.mBuf.byte pos (min size len) else []) := by
  have hsub : toI32 (q.mBufSize - pos) = (cap - pos : Nat) := by
    rw [hs, toI32_eq (by omega) (by omega)]
    omega
  have hn : min size len ≤ cap := by omega
  have hadd : toI32 ((pos : Int) + (min (min size len) (cap - pos) : Nat)) =
      (pos + min (min size len) (cap - pos) : Nat) := by
    rw [toI32_eq (by omega) (by omega)]
    rfl
  have hrest : toI32 (((min size len : Nat) : Int) - (min (min size len) (cap - pos) : Nat)) =
      (min size len - min (min size len) (cap - pos) : Nat) := by
    rw [toI32_eq (by omega) (by omega)]
    omega
  unfold EdRingQue.readPos
  simp only [ESMIN_natCast, hsub, hadd, hrest, wrap_natCast hs (Nat.zero_lt_of_lt hp)]
  generalize hc : min (min size len) (cap - pos) = c
  cases buf with
  | false =>
    simp only [copyOut, Bool.false_eq_true, if_false, Option.bind_some, Option.map_some]
    split <;> rfl
  | true =>
    have hwin := Circular.range_append_range (f := q.mBuf.byte) hp hn
    rw [hc] at hwin
    simp only [copyOut, if_true]
    rw [Block.load_eq (by omega) (by omega) (by rw [hb]; omega)]
    simp only [Option.bind_some]
    split
    · rw [Block.load_eq (by omega) (by omega) (by rw [hb]; omega)]
      simp only [Option.map_some, Int.toNat_natCast, Int.toNat_zero]
      rw [hwin]
    · have hzero : min size len - c = 0 := by omega
      rw [hzero] at hwin
      simpa using hwin

lemma Holds.window {n : Nat} (h : q.Holds s r p k) (hn : n ≤ s.items.length) :
    Circular.window cap q.mBuf.byte r n = s.items.take n := by
  rw [← h.items, Circular.take_window, Nat.min_eq_left hn]

/-- What is read from a position on, where the next read goes on, and what is left then. -/
lemma Holds.advance (h : q.Holds s r p k) (hcap : cap < 2 ^ 31) (buf : Bool) {size pos len : Nat}
    (hp : pos < cap) (hl : len ≤ cap) (hsum : pos + min size len < 2 ^ 31) :
    q.readPos buf size pos len = some (((min size len : Nat) : Int),
        if buf then Circular.window cap q.mBuf.byte pos (min size len) else []) ∧
      q.wrap (toI32 ((pos : Int) + (min size len : Nat))) =
        some (((pos + min size len) % cap : Nat) : Int) ∧
      toI32 ((len : Int) - (min size len : Nat)) = (len - size : Nat) := by
  refine ⟨readPos_eq hcap h.bufSize h.block hp hl, ?_, ?_⟩
  · rw [← Int.natCast_add, toI32_natCast_of_lt hsum,
      wrap_natCast h.bufSize (Nat.zero_lt_of_lt hp)]
  · rw [toI32_sub_natCast (Nat.min_le_right _ _) (Nat.lt_of_le_of_lt hl hcap), Nat.min_comm,
      ← Nat.sub_eq_sub_min]

/-- The same from the read position, where the items are. -/
lemma Holds.front (h : q.Holds s r p k) (hcap : cap < 2 ^ 31) (buf : Bool) {size : Nat}
    (hfit : r + min size s.items.length < 2 ^ 31) :
    q.readPos buf size q.mReadPos q.mDataSize = some (((min size s.items.length : Nat) : Int),
        if buf then s.items.take size else []) ∧
      q.wrap (toI32 (q.mReadPos + (min size s.items.length : Nat))) =
        some (((r + min size s.items.length) % cap : Nat) : Int) ∧
      toI32 (q.mDataSize - (min size s.items.length : Nat)) = (s.items.length - size : Nat) := by
  have hwin : Circular.window cap q.mBuf.byte r (min size s.items.length) =
      s.items.take size := by
    rw [h.window (Nat.min_le_right _ _), ← List.take_eq_take_min]
  rw [h.readPos, h.dataSize, ← hwin]
  exact h.advance hcap buf h.r_lt s.bounded hfit

lemma Holds.get (h : q.Holds s r p k) (hcap : cap < 2 ^ 31) (buf : Bool) {size : Nat}
    (hfit : r + min size s.items.length < 2 ^ 31) :
    ∃ q', q.get buf size = some ((((min size s.items.length : Nat) : Int),
        if buf then s.items.take size else []), q') ∧
      q'.Holds (s.get size) ((r + min size s.items.length) % cap) p k := by
  obtain ⟨hread, hwrap, hleft⟩ := h.front hcap buf hfit
  have hlen : (s.items.drop size).length = s.items.length - size := List.length_drop
  unfold EdRingQue.get
  rw [hread, Option.bind_some]
  dsimp only
  rw [hwrap, hleft]
  refine ⟨_, rfl, ?_⟩
  constructor
  · exact h.bufSize
  · exact h.block
  · rfl
  · exact Nat.mod_lt _ (Nat.zero_lt_of_lt h.r_lt)
  · simp only [BoundedFifo.get, hlen]
  · simp only [BoundedFifo.get, hlen, h.writePos, Nat.mod_add_mod]
    rw [Nat.add_assoc, show min size s.items.length + (s.items.length - size) = s.items.length
      by omega]
  · simp only [BoundedFifo.get, hlen, Circular.window_mod]
    rcases Nat.le_total size s.items.length with hle | hle
    · rw [Nat.min_eq_left hle, ← Circular.drop_window r hle, h.items]
    · rw [Nat.sub_eq_zero_of_le hle, List.drop_of_length_le hle]
      rfl
  · exact h.lastPeekPos
  · exact h.p_lt
  · exact h.lastPeekDataSize
  · exact h.k_le
  · intro c hc
    simp only [BoundedFifo.get, Option.bind_eq_some_iff, Prod.exists,
      Option.ite_none_right_eq_some, Option.some.injEq] at hc
    obtain ⟨passed, left, hp, hle, rfl⟩ := hc
    obtain ⟨hp', hk'⟩ := h.peeked _ hp
    refine ⟨?_, hk'⟩
    rw [hp', Nat.mod_add_mod]
    exact congrArg (· % cap) (by dsimp only; omega)

lemma Holds.peek (h : q.Holds s r p k) (hcap : cap < 2 ^ 31) (buf : Bool) {size : Nat}
    (hfit : r + min size s.items.length < 2 ^ 31) :
    ∃ q', q.peek buf size = some ((((min size s.items.length : Nat) : Int),
        if buf then s.items.take size else []), q') ∧
      q'.Holds (s.peek size) r ((r + min size s.items.length) % cap) (s.items.length - size) := by
  have hb := s.bounded
  obtain ⟨hread, hwrap, hleft⟩ := h.front hcap buf hfit
  unfold EdRingQue.peek
  rw [hread, Option.bind_some]
  dsimp only
  rw [hwrap, hleft]
  refine ⟨_, rfl, ?_⟩
  constructor
  · exact h.bufSize
  · exact h.block
  · exact h.readPos
  · exact h.r_lt
  · exact h.dataSize
  · exact h.writePos
  · exact h.items
  · rfl
  · exact Nat.mod_lt _ (Nat.zero_lt_of_lt h.r_lt)
  · rfl
  · omega
  · intro c hc
    obtain rfl := Option.some.inj hc
    exact ⟨rfl, rfl⟩

/-- `peekNext` copies the window at the peeked position, whatever is there by now. -/
lemma Holds.peekNext (h : q.Holds s r p k) (hcap : cap < 2 ^ 31) (buf : Bool) {size : Nat}
    (hfit : p + min size k < 2 ^ 31) :
    ∃ q', q.peekNext buf size = some ((((min size k : Nat) : Int),
        if buf then Circular.window cap q.mBuf.byte p (min size k) else []), q') ∧
      q'.Holds (s.peekNext size) r ((p + min size k) % cap) (k - size) := by
  have hp := h.p_lt
  obtain ⟨hread, hwrap, hleft⟩ := h.advance hcap buf hp h.k_le hfit
  unfold EdRingQue.peekNext
  rw [h.lastPeekPos, h.lastPeekDataSize, hread, Option.bind_some]
  dsimp only
  rw [hwrap, hleft]
  refine ⟨_, rfl, ?_⟩
  constructor
  · exact h.bufSize
  · exact h.block
  · exact h.readPos
  · exact h.r_lt
  · exact h.dataSize
  · exact h.writePos
  · exact h.items
  · rfl
  · exact Nat.mod_lt _ (Nat.zero_lt_of_lt hp)
  · rfl
  · exact Nat.le_trans (Nat.sub_le _ _) h.k_le
  · intro c hc
    simp only [BoundedFifo.peekNext, Option.map_eq_some_iff, Prod.exists] at hc
    obtain ⟨passed, left, hc, rfl⟩ := hc
    obtain ⟨rfl, rfl⟩ := h.peeked _ hc
    simp [Nat.add_assoc]

/-- What is there, when the last peek is still in the queue. -/
lemma Holds.window_peeked (h : q.Holds s r p k) {size : Nat} {xs : List UInt8}
    (hxs : s.next size = some xs) :
    Circular.window cap q.mBuf.byte p (min size k) = xs ∧ min size k = xs.length := by
  simp only [BoundedFifo.next, Option.map_eq_some_iff, Prod.exists] at hxs
  obtain ⟨passed, left, hc, rfl⟩ := hxs
  obtain ⟨hp', hk'⟩ := h.peeked _ hc
  have hin := s.inside _ hc
  dsimp only at hp' hk' hin
  subst hk'
  have hle : min size k ≤ s.items.length - passed := by omega
  constructor
  · rw [hp', Circular.window_mod, ← h.items, Circular.drop_window _ (by omega),
      Circular.take_window, Nat.min_eq_left hle]
  · rw [List.length_take, List.length_drop, Nat.min_eq_left hle]

/-- The two pieces of a write of `n` bytes from position `w` on. -/
lemma store_ring {b : Block} {w n : Nat} {l : List UInt8} (hb : b.size = cap) (hw : w < cap)
    (hn : n ≤ cap) (hs : n ≤ l.length) :
    ∃ t, (b.store w (min n (cap - w) : Nat) l).bind (fun b =>
        if 0 < n - min n (cap - w) then
          b.store 0 (n - min n (cap - w) : Nat)
            (l.drop (min n (cap - w)))
        else some b) = some t ∧ t.size = cap ∧
      (∀ i, i < n → t.byte ((w + i) % cap) = l.getD i 0) ∧
      ∀ j, j < cap → (∀ i, i < n → j ≠ (w + i) % cap) → t.byte j = b.byte j := by
  generalize hc : min n (cap - w) = c
  obtain ⟨t, ht, hts, htin, htout⟩ := Block.store_eq (b := b) (o := w) (n := c) (s := l)
    (by omega) (by omega) (by rw [hb]; omega) (by omega)
  simp only [Int.toNat_natCast] at htin htout
  rw [ht, Option.bind_some]
  split
  · rename_i hrest
    have hwc : w + c = cap := by omega
    obtain ⟨u, hu, hus, huin, huout⟩ := Block.store_eq (b := t) (o := 0)
      (n := (n - c : Nat)) (s := l.drop c) (by omega) (by omega)
      (by rw [hts, hb]; omega) (by rw [List.length_drop]; omega)
    simp only [Int.toNat_natCast, Int.toNat_zero, Nat.zero_add] at huin huout
    refine ⟨u, hu, by rw [hus, hts, hb], ?_, ?_⟩
    · intro i hi
      by_cases hic : i < c
      · rw [Nat.mod_eq_of_lt (by omega), huout _ (by omega), htin i hic]
      · have hmod : (w + i) % cap = i - c := by
          rw [show w + i = cap + (i - c) by omega, Nat.add_mod_left, Nat.mod_eq_of_lt (by omega)]
        rw [hmod, huin _ (by omega)]
        simp only [List.getD_eq_getElem?_getD, List.getElem?_drop]
        rw [show c + (i - c) = i by omega]
    · intro j hj hne
      have hlow : ¬ j < n - c := by
        intro hlt
        refine hne (c + j) (by omega) ?_
        rw [show w + (c + j) = cap + j by omega, Nat.add_mod_left, Nat.mod_eq_of_lt hj]
      have hhigh : ¬ w ≤ j := by
        intro hle
        refine hne (j - w) (by omega) ?_
        rw [show w + (j - w) = j by omega, Nat.mod_eq_of_lt hj]
      rw [huout j (by omega), htout j (by omega)]
  · rename_i hrest
    have hcs : c = n := by omega
    refine ⟨t, rfl, by rw [hts, hb], ?_, ?_⟩
    · intro i hi
      rw [Nat.mod_eq_of_lt (by omega), htin i (by omega)]
    · intro j hj hne
      have hout : ¬ (w ≤ j ∧ j < w + c) := by
        intro hin
        refine hne (j - w) (by omega) ?_
        rw [show w + (j - w) = j by omega, Nat.mod_eq_of_lt hj]
      rw [htout j (by omega)]

/-- `put` in natural numbers, for a write of `n` bytes at `w`. -/
lemma Holds.put_eq (h : q.Holds s r p k) (hcap : cap < 2 ^ 31) {buf : List UInt8} {w n : Nat}
    (hwe : (r + s.items.length) % cap = w) (hne : min buf.length s.free = n) :
    q.put buf = ((q.mBuf.store w (min n (cap - w) : Nat) buf).bind (fun b =>
        if 0 < n - min n (cap - w) then
          b.store 0 (n - min n (cap - w) : Nat) (buf.drop (min n (cap - w)))
        else some b)).map (fun t => ((n : Int), { q with
          mBuf := t
          mWritePos := ((w + n) % cap : Nat)
          mDataSize := (s.items.length + n : Nat) })) := by
  have hb := s.bounded
  have hpos := Nat.zero_lt_of_lt h.r_lt
  have hw : w < cap := hwe ▸ Nat.mod_lt _ hpos
  have hfree : s.free = cap - s.items.length := rfl
  have hn : n ≤ cap - s.items.length := by omega
  generalize hc : min n (cap - w) = c
  have hcn : c ≤ n := by omega
  have hcw : w + c ≤ cap := by omega
  have hlen : s.items.length + n ≤ cap := by omega
  have hfull : 0 < n - c → w + c = cap ∧ w + n = cap + (n - c) ∧ n - c < cap := by omega
  have hall : ¬ 0 < n - c → c = n := by omega
  have hsize : toI32 (q.mBufSize - q.mDataSize) = (s.free : Nat) := by
    rw [h.bufSize, h.dataSize, toI32_sub_natCast hb hcap, hfree]
  have hend : toI32 (q.mBufSize - (w : Int)) = (cap - w : Nat) := by
    rw [h.bufSize, toI32_sub_natCast hw.le hcap]
  have hwc : toI32 ((w : Int) + (c : Nat)) = (w + c : Nat) :=
    toI32_natCast_of_lt (Nat.lt_of_le_of_lt hcw hcap)
  have hrest : toI32 ((n : Int) - (c : Nat)) = (n - c : Nat) :=
    toI32_sub_natCast hcn (Nat.lt_of_le_of_lt (Nat.le_of_add_left_le hlen) hcap)
  have hdata : toI32 (q.mDataSize + n) = (s.items.length + n : Nat) := by
    rw [h.dataSize]
    exact toI32_natCast_of_lt (Nat.lt_of_le_of_lt hlen hcap)
  unfold EdRingQue.put
  simp only [hsize, ESMIN_natCast, hne, hend, hc, h.writePos, hwe, hwc, hrest, hdata,
    wrap_natCast h.bufSize hpos, Option.bind_some, Int.toNat_natCast, Int.natCast_pos]
  cases q.mBuf.store w c buf with
  | none => rfl
  | some b =>
    simp only [Option.bind_some]
    split
    · rename_i hlt
      obtain ⟨hwrap, hwn, hnc⟩ := hfull hlt
      have hcast : toI32 ((((w + c) % cap : Nat) : Int) + (n - c : Nat)) =
          ((w + n) % cap : Nat) := by
        rw [hwrap, Nat.mod_self, hwn, Nat.add_mod_left, Nat.mod_eq_of_lt hnc, ← Int.natCast_add,
          Nat.zero_add]
        exact toI32_natCast_of_lt (Nat.lt_trans hnc hcap)
      rw [hcast]
    · rename_i hlt
      rw [hall hlt]
      rfl

lemma Holds.put (h : q.Holds s r p k) (hcap : cap < 2 ^ 31) (buf : List UInt8) :
    ∃ q', q.put buf = some (((min buf.length s.free : Nat) : Int), q') ∧
      q'.Holds (s.put buf) r p k := by
  have hb := s.bounded
  have hr := h.r_lt
  have hpos := Nat.zero_lt_of_lt hr
  have hfree : s.free = cap - s.items.length := rfl
  have hncap : min buf.length s.free ≤ cap - s.items.length := by omega
  have htake : buf.take s.free = buf.take (min buf.length s.free) := by
    rw [Nat.min_comm, ← List.take_eq_take_min]
  have hlen : (buf.take s.free).length = min buf.length s.free := by
    rw [List.length_take, Nat.min_comm]
  obtain ⟨t, ht, hts, hin, hout⟩ :=
    store_ring (b := q.mBuf) (l := buf) h.block (Nat.mod_lt (r + s.items.length) hpos)
      (Nat.le_trans hncap (Nat.sub_le _ _)) (Nat.min_le_left _ _)
  rw [h.put_eq hcap rfl rfl, ht]
  refine ⟨_, rfl, ?_⟩
  constructor
  · exact h.bufSize
  · exact hts
  · exact h.readPos
  · exact hr
  · simp only [BoundedFifo.put, List.length_append, hlen]
  · simp only [BoundedFifo.put, List.length_append, hlen, Nat.mod_add_mod, Nat.add_assoc]
  · simp only [BoundedFifo.put, List.length_append]
    rw [Circular.window_of_written (f := q.mBuf.byte) (d := 0) hpos, h.items]
    · omega
    · intro i hi
      rw [hlen] at hi
      rw [← Nat.mod_add_mod, hin i hi, htake]
      simp [List.getD_eq_getElem?_getD, List.getElem?_take_of_lt hi]
    · intro j hj hne
      refine hout j hj (fun i hi => ?_)
      rw [Nat.mod_add_mod]
      exact hne i (by omega)
  · exact h.lastPeekPos
  · exact h.p_lt
  · exact h.lastPeekDataSize
  · exact h.k_le
  · exact h.peeked

/-- No index of a ring of `cap` bytes leaves the range of `int` when `size` bytes are asked
for. -/
structure Fits (cap size : Nat) : Prop where
  cap_lt : cap < 2 ^ 31
  sum_le : cap + min size cap ≤ 2 ^ 31

lemma Fits.of_le (hcap : cap ≤ 2 ^ 30) (size : Nat) : Fits cap size := by
  constructor <;> omega

lemma Fits.add_lt {pos len size : Nat} (h : Fits cap size) (hp : pos < cap) (hl : len ≤ cap) :
    pos + min size len < 2 ^ 31 := by
  have := h.sum_le
  omega

lemma Represents.put (h : q.Represents s) (hcap : cap < 2 ^ 31) (buf : List UInt8) :
    ∃ q', q.put buf = some (((min buf.length s.free : Nat) : Int), q') ∧
      q'.Represents (s.put buf) := by
  obtain ⟨r, p, k, hh⟩ := h
  obtain ⟨q', hq, hh'⟩ := hh.put hcap buf
  exact ⟨q', hq, r, p, k, hh'⟩

lemma Represents.get {size : Nat} (h : q.Represents s) (hfit : Fits cap size) (buf : Bool) :
    ∃ q', q.get buf size = some ((((min size s.items.length : Nat) : Int),
        if buf then s.items.take size else []), q') ∧ q'.Represents (s.get size) := by
  obtain ⟨r, p, k, hh⟩ := h
  obtain ⟨q', hq, hh'⟩ := hh.get hfit.cap_lt buf (hfit.add_lt hh.r_lt s.bounded)
  exact ⟨q', hq, _, _, _, hh'⟩

lemma Represents.peek {size : Nat} (h : q.Represents s) (hfit : Fits cap size) (buf : Bool) :
    ∃ q', q.peek buf size = some ((((min size s.items.length : Nat) : Int),
        if buf then s.items.take size else []), q') ∧ q'.Represents (s.peek size) := by
  obtain ⟨r, p, k, hh⟩ := h
  obtain ⟨q', hq, hh'⟩ := hh.peek hfit.cap_lt buf (hfit.add_lt hh.r_lt s.bounded)
  exact ⟨q', hq, _, _, _, hh'⟩

/-- `peekNext` stays inside the buffer in every case. -/
lemma Represents.peekNext {size : Nat} (h : q.Represents s) (hfit : Fits cap size) (buf : Bool) :
    ∃ out q', q.peekNext buf size = some (out, q') ∧ q'.Represents (s.peekNext size) ∧
      ∀ xs, s.next size = some xs → out = ((xs.length : Int), if buf then xs else []) := by
  obtain ⟨r, p, k, hh⟩ := h
  obtain ⟨q', hq, hh'⟩ := hh.peekNext hfit.cap_lt buf (hfit.add_lt hh.p_lt hh.k_le)
  refine ⟨_, q', hq, ⟨_, _, _, hh'⟩, fun xs hxs => ?_⟩
  obtain ⟨hwin, hlen⟩ := hh.window_peeked hxs
  rw [hwin, hlen]

lemma Represents.dataSize (h : q.Represents s) : q.getDataSize = s.items.length := by
  obtain ⟨r, p, k, hh⟩ := h
  exact hh.dataSize

lemma Represents.getFreeSize (h : q.Represents s) (hcap : cap < 2 ^ 31) :
    q.getFreeSize = s.free := by
  obtain ⟨r, p, k, hh⟩ := h
  rw [EdRingQue.getFreeSize, hh.bufSize, hh.dataSize, toI32_sub_natCast s.bounded hcap]
  rfl

lemma Represents.call (h : q.Represents s) (hcap : cap ≤ 2 ^ 30) (op : Op) :
    ∃ out q', q.call op = some (out, q') ∧ q'.Represents (spec s op).2 ∧
      ∀ o, (spec s op).1 = some o → out = o := by
  have hlt : cap < 2 ^ 31 := by omega
  cases op with
  | put buf =>
    obtain ⟨q', hq, hr⟩ := h.put hlt buf
    exact ⟨_, q', by rw [EdRingQue.call, hq]; rfl, hr, fun o ho => Option.some.inj ho⟩
  | get buf size =>
    obtain ⟨q', hq, hr⟩ := h.get (Fits.of_le hcap size) buf
    exact ⟨_, q', hq, hr, fun o ho => Option.some.inj ho⟩
  | peek buf size =>
    obtain ⟨q', hq, hr⟩ := h.peek (Fits.of_le hcap size) buf
    exact ⟨_, q', hq, hr, fun o ho => Option.some.inj ho⟩
  | peekNext buf size =>
    obtain ⟨out, q', hq, hr, hout⟩ := h.peekNext (Fits.of_le hcap size) buf
    refine ⟨out, q', hq, hr, fun o ho => ?_⟩
    simp only [spec, Option.map_eq_some_iff] at ho
    obtain ⟨xs, hxs, rfl⟩ := ho
    exact hout xs hxs
  | getDataSize =>
    refine ⟨_, q, rfl, h, fun o ho => ?_⟩
    rw [← Option.some.inj ho, h.dataSize]
  | getFreeSize =>
    refine ⟨_, q, rfl, h, fun o ho => ?_⟩
    rw [← Option.some.inj ho, h.getFreeSize hlt]

/-- `out` is what was asked for, where something was. -/
def Answers (o : Option Out) (out : Out) : Prop :=
  ∀ x, o = some x → out = x

lemma Represents.calls (hcap : cap ≤ 2 ^ 30) (ops : List Op) {q : EdRingQue}
    {s : BoundedFifo UInt8 cap} (h : q.Represents s) :
    ∃ outs q', q.calls ops = some (outs, q') ∧ q'.Represents (specs s ops).2 ∧
      List.Forall₂ Answers (specs s ops).1 outs := by
  induction ops generalizing q s with
  | nil => exact ⟨[], q, rfl, h, .nil⟩
  | cons op ops ih =>
    obtain ⟨out, q₁, hcall, h₁, hout⟩ := h.call hcap op
    obtain ⟨outs, q₂, hcalls, h₂, houts⟩ := ih h₁
    refine ⟨out :: outs, q₂, ?_, h₂, .cons hout houts⟩
    rw [EdRingQue.calls, hcall, Option.bind_some]
    dsimp only
    rw [hcalls]
    rfl

/-- The bytes in the queue. -/
def contents (q : EdRingQue) : List UInt8 :=
  Circular.window q.mBufSize.toNat q.mBuf.byte q.mReadPos.toNat q.mDataSize.toNat

lemma Represents.contents (h : q.Represents s) : q.contents = s.items := by
  obtain ⟨r, p, k, hh⟩ := h
  rw [EdRingQue.contents, hh.bufSize, hh.readPos, hh.dataSize]
  exact hh.items

/-- After every sequence of calls on a new queue, all of them have ended with the answers of
a bounded list, the queue holds that list, and its positions are in bounds. -/
theorem refines_fifo {B : Nat} (hB : 1 ≤ B) (hB' : B ≤ 2 ^ 30) (junk : Nat → UInt8)
    (ops : List Op) :
    ∃ outs q, (EdRingQue.new B junk).calls ops = some (outs, q) ∧
      List.Forall₂ Answers (specs (BoundedFifo.empty : BoundedFifo UInt8 B) ops).1 outs ∧
      q.contents = (specs (BoundedFifo.empty : BoundedFifo UInt8 B) ops).2.items ∧ q.Bounds := by
  obtain ⟨outs, q, hcalls, hrep, houts⟩ :=
    Represents.calls hB' ops ⟨0, 0, 0, Holds.new junk hB⟩
  obtain ⟨r, p, k, hh⟩ := id hrep
  exact ⟨outs, q, hcalls, houts, hrep.contents, hh.bounds⟩

theorem refines_fifo_wrapRun : ∃ outs q, (EdRingQue.new 4 (fun _ => 0)).calls
      [.put [1, 2, 3], .get true 2, .put [4, 5, 6, 7], .peek true 1, .peekNext true 9] =
        some (outs, q) ∧
    outs = [(3, []), (2, [1, 2]), (3, []), (1, [3]), (3, [4, 5, 6])] ∧
    q.contents = [3, 4, 5, 6] ∧ q.Bounds := by
  obtain ⟨outs, q, hcalls, houts, hq, hb⟩ := refines_fifo (B := 4) (by decide) (by decide)
    (fun _ => 0) [.put [1, 2, 3], .get true 2, .put [4, 5, 6, 7], .peek true 1, .peekNext true 9]
  refine ⟨outs, q, hcalls, ?_, hq, hb⟩
  obtain _ | ⟨h1, _ | ⟨h2, _ | ⟨h3, _ | ⟨h4, _ | ⟨h5, _ | _⟩⟩⟩⟩⟩ := houts
  rw [h1 _ rfl, h2 _ rfl, h3 _ rfl, h4 _ rfl, h5 _ rfl]
  rfl

end EdRingQue

end EdNio.Buffer
