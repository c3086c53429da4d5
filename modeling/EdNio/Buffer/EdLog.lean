import EdNio.Buffer.RingQue
import EdNio.Library.Endian

/-!
# EdLog

The log keeps its strings in the ring queue, each after its length. What is in the memory
that `malloc` and the stack give is not known.
-/

namespace EdNio.Buffer
open Endian Memory

/-- The bytes of a string of C before its NUL. With it they can be counted in 16 bits. -/
abbrev LogString := { str : List UInt8 // 0 ∉ str ∧ str.length ≤ 65534 }

/-- An u16 in memory; `low` tells whether the machine puts its lower byte first. -/
def u16Bytes (low : Bool) (n : UInt16) : List UInt8 :=
  if low then leBytes 2 n.toNat else beBytes 2 n.toNat

/-- The u16 at `n` after `out` has been copied over its first bytes. -/
def copyU16 (low : Bool) (n : UInt16) (out : List UInt8) : UInt16 :=
  let bytes := out ++ (u16Bytes low n).drop out.length
  UInt16.ofNat (if low then leNat bytes else beNat bytes)

/-- The line that `puts` writes; none when there is no NUL in the block. -/
def puts (str : Block) : Option (List UInt8) :=
  let bytes := (List.range str.size).map str.byte
  if 0 ∈ bytes then some (bytes.takeWhile (fun b => b != 0)) else none

structure EdLog where
  mQue : EdRingQue

namespace EdLog

def new (bsize : Int) (junk : Nat → UInt8) : EdLog where
  mQue := EdRingQue.new bsize junk

/-- The first loop of `print`, false for its return of -1; `slen` are the values that the
local variable happens to have. -/
def makeRoom (low : Bool) (slen : Nat → UInt16) (len : UInt16) :
    Nat → EdRingQue → Option (Bool × EdRingQue)
  | 0, _ => none
  | fuel + 1, mQue =>
    if mQue.getFreeSize < 2 + len.toNat then
      (mQue.get true 2).bind (fun ((_, out), mQue) =>
        (mQue.get false (copyU16 low (slen fuel) out).toNat).bind (fun ((rdcnt, _), mQue) =>
          if rdcnt = 0 then some (false, mQue) else makeRoom low slen len fuel mQue))
    else some (true, mQue)

def print (log : EdLog) (low : Bool) (slen : Nat → UInt16) (str : List UInt8) :
    Option (Int × EdLog) :=
  let len := UInt16.ofNat (str.length + 1)
  (makeRoom low slen len (log.mQue.mDataSize.toNat + 1) log.mQue).bind (fun (room, mQue) =>
    if room then
      (mQue.put (u16Bytes low len)).bind (fun (_, mQue) =>
        (mQue.put ((str ++ [0]).take len.toNat)).map (fun (_, mQue) => (0, ⟨mQue⟩)))
    else some (-1, ⟨mQue⟩))

/-- The lines that `loop` passes of `flush` put out. -/
def flushLoop (low : Bool) :
    Nat → UInt16 → Block → EdRingQue → Option (List (List UInt8) × EdRingQue)
  | 0, _, _, mQue => some ([], mQue)
  | loop + 1, slen, logstr, mQue =>
    (mQue.get true 2).bind (fun ((rdcnt, out), mQue) =>
      if rdcnt = 0 then some ([], mQue)
      else
        let slen := copyU16 low slen out
        (mQue.get true slen.toNat).bind (fun ((rdcnt, out), mQue) =>
          (logstr.store 0 rdcnt out).bind (fun logstr =>
            (puts logstr).bind (fun line =>
              (flushLoop low loop slen logstr mQue).map (fun (lines, mQue) =>
                (line :: lines, mQue))))))

def flush (log : EdLog) (low : Bool) (slen : UInt16) (junk : Nat → UInt8) (count : Int) :
    Option (List (List UInt8) × EdLog) :=
  let loop := if count ≤ 0 then log.mQue.getDataSize else count
  (flushLoop low loop.toNat slen ⟨64 * 1024, junk⟩ log.mQue).map (fun (lines, mQue) =>
    (lines, ⟨mQue⟩))

def dumpLoop (low : Bool) :
    Nat → Int → UInt16 → Block → EdRingQue → Option (List (List UInt8) × EdRingQue)
  | 0, _, _, _, _ => none
  | fuel + 1, rdcnt, slen, logstr, mQue =>
    if rdcnt = 0 then some ([], mQue)
    else
      (puts logstr).bind (fun line =>
        (mQue.peekNext true 2).bind (fun ((_, out), mQue) =>
          let slen := copyU16 low slen out
          (mQue.peekNext true slen.toNat).bind (fun ((rdcnt, out), mQue) =>
            (logstr.store 0 rdcnt out).bind (fun logstr =>
              (dumpLoop low fuel rdcnt slen logstr mQue).map (fun (lines, mQue) =>
                (line :: lines, mQue))))))

def dumpAll (log : EdLog) (low : Bool) (slen : UInt16) (junk : Nat → UInt8) :
    Option (List (List UInt8) × EdLog) :=
  (log.mQue.peek true 2).bind (fun ((_, out), mQue) =>
    let slen := copyU16 low slen out
    (mQue.peekNext true slen.toNat).bind (fun ((rdcnt, out), mQue) =>
      ((⟨64 * 1024, junk⟩ : Block).store 0 rdcnt out).bind (fun logstr =>
        (dumpLoop low (mQue.mDataSize.toNat + 1) rdcnt slen logstr mQue).map
          (fun (lines, mQue) => (lines, ⟨mQue⟩)))))

inductive LogOp
  | print (str : LogString)
  | flush (count : Int)
  | dumpAll

inductive LogOut
  | ret (r : Int)
  | lines (strs : List (List UInt8))
deriving DecidableEq, Repr

/-- What the uninitialised memory of one call holds. -/
structure Leftover where
  slen : Nat → UInt16
  logstr : Nat → UInt8

def call (log : EdLog) (low : Bool) (left : Leftover) : LogOp → Option (LogOut × EdLog)
  | .print str =>
    (log.print low left.slen str.1).map (fun (ret, log) => (.ret ret, log))
  | .flush count =>
    (log.flush low (left.slen 0) left.logstr count).map (fun (strs, log) => (.lines strs, log))
  | .dumpAll =>
    (log.dumpAll low (left.slen 0) left.logstr).map (fun (strs, log) => (.lines strs, log))

def calls (log : EdLog) (low : Bool) :
    List (Leftover × LogOp) → Option (List LogOut × EdLog)
  | [] => some ([], log)
  | (left, op) :: ops =>
    (log.call low left op).bind (fun (out, log) =>
      (log.calls low ops).map (fun (outs, log) => (out :: outs, log)))

/-- A string with its length before it and its NUL after it. -/
def record (low : Bool) (str : LogString) : List UInt8 :=
  u16Bytes low (UInt16.ofNat (str.1.length + 1)) ++ (str.1 ++ [0])

def records (low : Bool) (strs : List LogString) : List UInt8 :=
  strs.flatMap (record low)

/-- The strings that were printed and not flushed, and those of them still in the log. -/
structure Strings where
  unflushed : List LogString
  held : List LogString

/-- `print` drops the first `k` strings, and no fewer would have made room. -/
structure Appends (low : Bool) (B : Nat) (s : Strings) (str : LogString) (s' : Strings) : Prop where
  unflushed : s'.unflushed = s.unflushed ++ [str]
  fewest : ∃ k, k ≤ s.held.length ∧ s'.held = s.held.drop k ++ [str] ∧
    (records low s'.held).length ≤ B ∧
    ∀ j, j < k → B < (records low (s.held.drop j ++ [str])).length

/-- What a call may answer on a log of `B` bytes, and the strings before and after it. -/
def Answers (low : Bool) (B : Nat) (s : Strings) : LogOp → LogOut → Strings → Prop
  | .print str, out, s' =>
    (out = .ret 0 ∧ Appends low B s str s') ∨
      (out = .ret (-1) ∧ B < (record low str).length ∧ s' = { s with held := [] })
  | .flush count, out, s' =>
    let n := if count ≤ 0 then s.held.length else min count.toNat s.held.length
    out = .lines ((s.held.take n).map Subtype.val) ∧ s'.held = s.held.drop n ∧
      ∃ dropped, s.unflushed = dropped ++ s.held ∧ s'.unflushed = dropped ++ s'.held
  | .dumpAll, out, s' => out = .lines (s.held.map Subtype.val) ∧ s' = s

inductive AnswersAll (low : Bool) (B : Nat) :
    Strings → List (Leftover × LogOp) → List LogOut → Strings → Prop
  | nil (s : Strings) : AnswersAll low B s [] [] s
  | cons {s s' s'' : Strings} {left : Leftover} {op : LogOp} {out : LogOut}
      {ops : List (Leftover × LogOp)} {outs : List LogOut} (h : Answers low B s op out s')
      (hs : AnswersAll low B s' ops outs s'') :
      AnswersAll low B s ((left, op) :: ops) (out :: outs) s''

variable {low : Bool} {B : Nat}

@[simp] lemma length_u16Bytes (n : UInt16) : (u16Bytes low n).length = 2 := by
  cases low <;> simp [u16Bytes]

@[simp] lemma copyU16_u16Bytes (m n : UInt16) : copyU16 low m (u16Bytes low n) = n := by
  have hdrop : (u16Bytes low m).drop (u16Bytes low n).length = [] :=
    List.drop_of_length_le (by simp)
  apply UInt16.toNat_inj.mp
  rw [copyU16, hdrop, List.append_nil]
  cases low <;>
    simp [u16Bytes, leNat_leBytes, beNat_beBytes]

/-- Bytes that can be counted in 16 bits. -/
abbrev Chunk := { c : List UInt8 // c.length < 2 ^ 16 }

/-- A chunk with its length before it. -/
def frame (low : Bool) (c : Chunk) : List UInt8 :=
  u16Bytes low (UInt16.ofNat c.1.length) ++ c.1

def frames (low : Bool) (cs : List Chunk) : List UInt8 :=
  cs.flatMap (frame low)

/-- What `print` puts after the length of `str`. -/
def stored (str : List UInt8) : Chunk :=
  ⟨(str ++ [0]).take (UInt16.ofNat (str.length + 1)).toNat,
    Nat.lt_of_le_of_lt (List.length_take_le _ _) (UInt16.toNat_lt _)⟩

/-- The first loop of `print` on chunks, to make room for `n` bytes. It takes an empty chunk
for an empty queue. -/
def evict (low : Bool) (B n : Nat) : List Chunk → Bool × List Chunk
  | [] => (decide (n ≤ B), [])
  | c :: cs =>
    if (frames low (c :: cs)).length + n ≤ B then (true, c :: cs)
    else if c.1 = [] then (false, cs)
    else evict low B n cs

lemma toNat_ofNat_chunk (c : Chunk) : (UInt16.ofNat c.1.length).toNat = c.1.length := by
  rw [UInt16.toNat_ofNat']
  exact Nat.mod_eq_of_lt c.2

@[simp] lemma length_frame (c : Chunk) : (frame low c).length = c.1.length + 2 := by
  rw [frame, List.length_append, length_u16Bytes, Nat.add_comm]

lemma frames_cons (c : Chunk) (cs : List Chunk) :
    frames low (c :: cs) = frame low c ++ frames low cs :=
  List.flatMap_cons

lemma frames_append (l l' : List Chunk) : frames low (l ++ l') = frames low l ++ frames low l' :=
  List.flatMap_append

lemma length_le_frames (low : Bool) (cs : List Chunk) : cs.length ≤ (frames low cs).length := by
  induction cs with
  | nil => exact Nat.le_refl _
  | cons c cs ih =>
    simp only [frames_cons, List.length_append, List.length_cons, length_frame]
    omega

lemma length_stored (str : List UInt8) :
    (stored str).1.length = (UInt16.ofNat (str.length + 1)).toNat := by
  have htext : (str ++ [0]).length = str.length + 1 := List.length_append
  simp only [stored, List.length_take, htext, UInt16.toNat_ofNat']
  exact Nat.min_eq_left (Nat.mod_le _ _)

lemma stored_eq (str : LogString) : (stored str.1).1 = str.1 ++ [0] := by
  have h := str.2.2
  have htext : (str.1 ++ [0]).length = str.1.length + 1 := List.length_append
  apply List.take_of_length_le
  rw [htext, UInt16.toNat_ofNat', Nat.mod_eq_of_lt (by omega)]

lemma length_stored_eq (str : LogString) : (stored str.1).1.length = str.1.length + 1 := by
  rw [stored_eq, List.length_append, List.length_singleton]

lemma stored_ne_nil (strs : List LogString) :
    ∀ c ∈ strs.map (fun str => stored str.1), c.1 ≠ [] := by
  intro c hc
  obtain ⟨str, -, rfl⟩ := List.mem_map.mp hc
  rw [stored_eq]
  exact List.append_ne_nil_of_right_ne_nil _ (by decide)

lemma record_eq_frame (str : LogString) : record low str = frame low (stored str.1) := by
  rw [record, frame, length_stored_eq, stored_eq]

@[simp] lemma length_record (str : LogString) : (record low str).length = str.1.length + 3 := by
  rw [record_eq_frame, length_frame, length_stored_eq]

lemma records_eq_frames (strs : List LogString) :
    records low strs = frames low (strs.map (fun str => stored str.1)) := by
  rw [records, frames, List.flatMap_map]
  exact congrArg (fun f => strs.flatMap f) (funext record_eq_frame)

lemma records_cons (str : LogString) (strs : List LogString) :
    records low (str :: strs) = record low str ++ records low strs :=
  List.flatMap_cons

lemma records_append (l l' : List LogString) :
    records low (l ++ l') = records low l ++ records low l' :=
  List.flatMap_append

lemma length_le_records (low : Bool) (l : List LogString) : l.length ≤ (records low l).length := by
  rw [records_eq_frames]
  simpa using length_le_frames low (l.map (fun str => stored str.1))

variable {q : EdRingQue} {s : BoundedFifo UInt8 B} {c : Chunk} {str : LogString}
  {rest : List UInt8}

/-- The sizes the log asks for are those of 16 bits. -/
lemma fits_u16 (hB : B + 65535 ≤ 2 ^ 31) {size : Nat} (h : size ≤ 65535) :
    EdRingQue.Fits B size := by
  constructor <;> omega

lemma chunk_le (c : Chunk) : c.1.length ≤ 65535 :=
  Nat.le_of_lt_succ c.2

/-- Reading a length and then that many bytes takes off the first frame. -/
lemma get_frame (h : q.Represents s) (hB : B + 65535 ≤ 2 ^ 31)
    (hs : s.items = frame low c ++ rest) (buf : Bool) :
    ∃ (q₁ q₂ : EdRingQue) (s' : BoundedFifo UInt8 B),
      q.get true 2 = some ((2, u16Bytes low (UInt16.ofNat c.1.length)), q₁) ∧
      q₁.get buf (c.1.length : Int) =
        some (((c.1.length : Int), if buf then c.1 else []), q₂) ∧
      q₂.Represents s' ∧ s'.items = rest := by
  obtain ⟨q₁, hq₁, h₁⟩ := h.get (fits_u16 hB (show 2 ≤ 65535 by omega)) true
  obtain ⟨q₂, hq₂, h₂⟩ := h₁.get (fits_u16 hB (chunk_le c)) buf
  have hitems : (s.get 2).items = c.1 ++ rest := by
    rw [BoundedFifo.items_get, hs, frame, List.append_assoc, List.drop_left' (length_u16Bytes _)]
  have hlen : c.1.length ≤ (s.get 2).items.length := by
    rw [hitems, List.length_append]
    omega
  have hfull : 2 ≤ s.items.length := by
    rw [hs, List.length_append, length_frame]
    omega
  refine ⟨q₁, q₂, _, ?_, ?_, h₂, ?_⟩
  · rw [Nat.min_eq_left hfull, hs, frame, List.append_assoc,
      List.take_left' (length_u16Bytes _)] at hq₁
    exact hq₁
  · rw [Nat.min_eq_left hlen, hitems, List.take_left' rfl] at hq₂
    exact hq₂
  · rw [BoundedFifo.items_get, hitems, List.drop_left' rfl]

/-- Nothing is left to read. -/
lemma get_end (h : q.Represents s) {size : Nat} (hfit : EdRingQue.Fits B size)
    (hs : s.items = []) (buf : Bool) :
    ∃ (q' : EdRingQue) (s' : BoundedFifo UInt8 B), q.get buf size = some ((0, []), q') ∧
      q'.Represents s' ∧ s'.items = [] := by
  obtain ⟨q', hq', hr'⟩ := h.get hfit buf
  rw [hs, List.length_nil, Nat.min_zero, List.take_nil, ite_self] at hq'
  refine ⟨q', _, hq', hr', ?_⟩
  rw [BoundedFifo.items_get, hs, List.drop_nil]

/-- Peeking on at a chunk passes over it. -/
lemma peekNext_chunk (h : q.Represents s) (hB : B + 65535 ≤ 2 ^ 31) {passed left : Nat}
    (hp : s.peeked = some (passed, left)) (hs : s.items.drop passed = c.1 ++ rest)
    (hl : left = c.1.length + rest.length) :
    ∃ (q' : EdRingQue) (s' : BoundedFifo UInt8 B),
      q.peekNext true (c.1.length : Int) = some (((c.1.length : Int), c.1), q') ∧
      q'.Represents s' ∧ s'.items = s.items ∧
      s'.peeked = some (passed + c.1.length, rest.length) ∧
      s'.items.drop (passed + c.1.length) = rest := by
  obtain ⟨out, q', hq', h', hout⟩ := h.peekNext (fits_u16 hB (chunk_le c)) true
  have hnext : s.next c.1.length = some c.1 := by
    rw [BoundedFifo.next_eq hp, hs, Nat.min_eq_left (by omega), List.take_left' rfl]
  rw [hout _ hnext] at hq'
  refine ⟨q', _, hq', h', rfl, ?_, ?_⟩
  · rw [BoundedFifo.peeked_peekNext hp, Nat.min_eq_left (by omega),
      show left - c.1.length = rest.length by omega]
  · rw [BoundedFifo.items_peekNext, ← List.drop_drop, hs, List.drop_left' rfl]

/-- Peeking on at a frame passes over it. -/
lemma peekNext_frame (h : q.Represents s) (hB : B + 65535 ≤ 2 ^ 31) {passed left : Nat}
    (hp : s.peeked = some (passed, left)) (hs : s.items.drop passed = frame low c ++ rest)
    (hl : left = c.1.length + 2 + rest.length) :
    ∃ (q₁ q₂ : EdRingQue) (s' : BoundedFifo UInt8 B) (out : Int) (passed' : Nat),
      q.peekNext true 2 = some ((out, u16Bytes low (UInt16.ofNat c.1.length)), q₁) ∧
      q₁.peekNext true (c.1.length : Int) = some (((c.1.length : Int), c.1), q₂) ∧
      q₂.Represents s' ∧ s'.items = s.items ∧ s'.peeked = some (passed', rest.length) ∧
      s'.items.drop passed' = rest := by
  obtain ⟨⟨out, bytes⟩, q₁, hq₁, h₁, hout⟩ :=
    h.peekNext (fits_u16 hB (show 2 ≤ 65535 by omega)) true
  have hnext : s.next 2 = some (u16Bytes low (UInt16.ofNat c.1.length)) := by
    rw [BoundedFifo.next_eq hp, hs, Nat.min_eq_left (by omega), frame, List.append_assoc,
      List.take_left' (length_u16Bytes _)]
  have hdrop : (s.peekNext 2).items.drop (passed + 2) = c.1 ++ rest := by
    rw [BoundedFifo.items_peekNext, ← List.drop_drop, hs, frame, List.append_assoc,
      List.drop_left' (length_u16Bytes _)]
  have hp' : (s.peekNext 2).peeked = some (passed + 2, left - 2) := by
    rw [BoundedFifo.peeked_peekNext hp, Nat.min_eq_left (by omega)]
  obtain ⟨q₂, s₂, hq₂, h₂, hitems, hpeeked, hrest⟩ :=
    peekNext_chunk h₁ hB hp' hdrop (by omega)
  rw [hout _ hnext] at hq₁
  exact ⟨q₁, q₂, s₂, _, _, hq₁, hq₂, h₂, hitems, hpeeked, hrest⟩

/-- Nothing is left to peek. -/
lemma peekNext_end (h : q.Represents s) {size : Nat} (hfit : EdRingQue.Fits B size) {passed : Nat}
    (hp : s.peeked = some (passed, 0)) :
    ∃ (q' : EdRingQue) (s' : BoundedFifo UInt8 B), q.peekNext true size = some ((0, []), q') ∧
      q'.Represents s' ∧ s'.items = s.items ∧ s'.peeked = some (passed, 0) := by
  obtain ⟨out, q', hq', hr', hout⟩ := h.peekNext hfit true
  have hnext : s.next size = some [] := by
    rw [BoundedFifo.next_eq hp, Nat.min_zero, List.take_zero]
  rw [hout _ hnext] at hq'
  refine ⟨q', _, hq', hr', rfl, ?_⟩
  rw [BoundedFifo.peeked_peekNext hp, Nat.min_zero, Nat.zero_sub, Nat.add_zero]

/-- A string with its NUL fits into the buffer of 64K and `puts` writes it. -/
lemma puts_store {b : Block} (hb : b.size = 64 * 1024) (str : LogString) :
    ∃ t, b.store 0 ((str.1.length + 1 : Nat) : Int) (str.1 ++ [0]) = some t ∧
      t.size = 64 * 1024 ∧ puts t = some str.1 := by
  have hlen := str.2.2
  have htext : (str.1 ++ [0]).length = str.1.length + 1 := List.length_append
  obtain ⟨t, ht, hts, hin, -⟩ := Block.store_eq (b := b) (o := 0)
    (n := ((str.1.length + 1 : Nat) : Int)) (s := str.1 ++ [0]) (by omega) (by omega)
    (by rw [hb]; omega) (by rw [htext])
  simp only [Int.toNat_natCast, Int.toNat_zero, Nat.zero_add] at hin
  have hsize : t.size = str.1.length + 1 + (65535 - str.1.length) := by
    rw [hts, hb]
    omega
  have hbytes : (List.range t.size).map t.byte = str.1 ++ 0 ::
      (List.range (65535 - str.1.length)).map (fun i => t.byte (str.1.length + 1 + i)) := by
    rw [hsize, List.range_add, List.map_append, List.map_map]
    have hfront : (List.range (str.1.length + 1)).map t.byte = str.1 ++ [0] := by
      apply List.ext_getElem
      · simp
      · intro i hi hi'
        rw [htext] at hi'
        rw [List.getElem_map, List.getElem_range, hin i hi', List.getD_eq_getElem?_getD,
          List.getElem?_eq_getElem, Option.getD_some]
    rw [hfront, List.append_assoc]
    rfl
  refine ⟨t, ht, hts.trans hb, ?_⟩
  have hno : ∀ b ∈ str.1, (b != 0) = true := by
    intro b hb
    rw [bne_iff_ne]
    rintro rfl
    exact str.2.1 hb
  rw [puts, hbytes, if_pos (by simp), List.takeWhile_append_of_pos hno]
  simp

/-- The loop of `print` that makes room. -/
lemma makeRoom_eq (hB : B + 65535 ≤ 2 ^ 31) (slen : Nat → UInt16) (len : UInt16)
    {cs : List Chunk} {q : EdRingQue} {s : BoundedFifo UInt8 B} (h : q.Represents s)
    (hs : s.items = frames low cs) {fuel : Nat} (hf : cs.length < fuel) :
    ∃ (q' : EdRingQue) (s' : BoundedFifo UInt8 B),
      makeRoom low slen len fuel q = some ((evict low B (2 + len.toNat) cs).1, q') ∧
      q'.Represents s' ∧ s'.items = frames low (evict low B (2 + len.toNat) cs).2 := by
  have hlt : B < 2 ^ 31 := by omega
  induction cs generalizing q s fuel with
  | nil =>
    obtain ⟨fuel, rfl⟩ : ∃ n, fuel = n + 1 := ⟨fuel - 1, by omega⟩
    have hempty : s.items = [] := hs
    have hfree : s.free = B := by rw [BoundedFifo.free, hempty, List.length_nil, Nat.sub_zero]
    rw [makeRoom, h.getFreeSize hlt, hfree]
    by_cases hroom : 2 + len.toNat ≤ B
    · refine ⟨q, s, ?_, h, hs⟩
      rw [if_neg (by omega), evict, decide_eq_true hroom]
    · obtain ⟨q₁, s₁, hq₁, h₁, hs₁⟩ :=
        get_end h (fits_u16 hB (show 2 ≤ 65535 by omega)) hempty true
      obtain ⟨q₂, s₂, hq₂, h₂, hs₂⟩ := get_end h₁
        (fits_u16 hB (Nat.le_of_lt_succ (copyU16 low (slen fuel) []).toNat_lt)) hs₁ false
      refine ⟨q₂, s₂, ?_, h₂, hs₂⟩
      rw [if_pos (by omega), evict, decide_eq_false hroom]
      exact (congrArg (fun o => Option.bind o _) hq₁).trans
        (congrArg (fun o => Option.bind o _) hq₂)
  | cons c cs ih =>
    obtain ⟨fuel, rfl⟩ : ∃ n, fuel = n + 1 := ⟨fuel - 1, by omega⟩
    rw [List.length_cons] at hf
    have hle := s.bounded
    have hfree : s.free = B - (frames low (c :: cs)).length := by rw [BoundedFifo.free, hs]
    rw [hs] at hle
    rw [makeRoom, h.getFreeSize hlt, hfree]
    by_cases hroom : (frames low (c :: cs)).length + (2 + len.toNat) ≤ B
    · refine ⟨q, s, ?_, h, ?_⟩
      · rw [if_neg (by omega), evict, if_pos hroom]
      · rw [evict, if_pos hroom]
        exact hs
    · rw [frames_cons] at hs
      obtain ⟨q₁, q₂, s₂, hq₁, hq₂, h₂, hs₂⟩ := get_frame h hB hs false
      rw [if_pos (by omega), hq₁, Option.bind_some, evict, if_neg hroom]
      dsimp only
      rw [copyU16_u16Bytes, toNat_ofNat_chunk, hq₂, Option.bind_some]
      dsimp only
      by_cases hc : c.1 = []
      · refine ⟨q₂, s₂, ?_, h₂, ?_⟩
        · rw [if_pos (by simp [hc]), if_pos hc]
        · rw [if_pos hc]
          exact hs₂
      · obtain ⟨q', s', hq', h', hs'⟩ := ih h₂ hs₂ (show cs.length < fuel by omega)
        have hpos : (c.1.length : Int) ≠ 0 := by
          have := List.length_pos_iff.mpr hc
          omega
        refine ⟨q', s', ?_, h', ?_⟩
        · rw [if_neg hpos, if_neg hc, hq']
        · rw [if_neg hc]
          exact hs'

lemma evict_room {n : Nat} {cs : List Chunk} (h : (evict low B n cs).1 = true) :
    (frames low (evict low B n cs).2).length + n ≤ B := by
  induction cs with
  | nil => simpa [evict, frames] using h
  | cons c cs ih =>
    rw [evict] at h ⊢
    by_cases hroom : (frames low (c :: cs)).length + n ≤ B
    · rw [if_pos hroom]
      exact hroom
    · rw [if_neg hroom] at h ⊢
      by_cases hc : c.1 = []
      · rw [if_pos hc] at h
        cases h
      · rw [if_neg hc] at h ⊢
        exact ih h

/-- Without empty chunks the fewest are dropped that make room, or all when none do. -/
lemma evict_of_ne {n : Nat} {cs : List Chunk} (hne : ∀ c ∈ cs, c.1 ≠ []) :
    (∃ k, k ≤ cs.length ∧ evict low B n cs = (true, cs.drop k) ∧
        ∀ j, j < k → B < (frames low (cs.drop j)).length + n) ∨
      (evict low B n cs = (false, []) ∧ B < n) := by
  induction cs with
  | nil =>
    by_cases hn : n ≤ B
    · exact .inl ⟨0, Nat.le_refl _, by rw [evict, decide_eq_true hn]; rfl, by simp⟩
    · exact .inr ⟨by rw [evict, decide_eq_false hn], by omega⟩
  | cons c cs ih =>
    by_cases hroom : (frames low (c :: cs)).length + n ≤ B
    · exact .inl ⟨0, Nat.zero_le _, by rw [evict, if_pos hroom]; rfl, by simp⟩
    · have hev : evict low B n (c :: cs) = evict low B n cs := by
        rw [evict, if_neg hroom, if_neg (hne c List.mem_cons_self)]
      rw [hev]
      rcases ih (fun d hd => hne d (List.mem_cons_of_mem c hd)) with ⟨k, hk, he, hleast⟩ | hfull
      · refine .inl ⟨k + 1, by simpa using hk, he, fun j hj => ?_⟩
        cases j with
        | zero => exact Nat.lt_of_not_le hroom
        | succ j => exact hleast j (by omega)
      · exact .inr hfull

/-- `print` makes room and appends what it stores of the string, or gives up. -/
lemma print_eq (hB : B + 65535 ≤ 2 ^ 31) {log : EdLog} (slen : Nat → UInt16) (str : List UInt8)
    {cs : List Chunk} {s : BoundedFifo UInt8 B} (h : log.mQue.Represents s)
    (hs : s.items = frames low cs) {e : Bool × List Chunk}
    (he : evict low B (frame low (stored str)).length cs = e) :
    ∃ (log' : EdLog) (s' : BoundedFifo UInt8 B),
      log.print low slen str = some (if e.1 then 0 else -1, log') ∧ log'.mQue.Represents s' ∧
      s'.items = frames low (if e.1 then e.2 ++ [stored str] else e.2) := by
  have hlt : B < 2 ^ 31 := by omega
  have hfuel : cs.length < log.mQue.mDataSize.toNat + 1 := by
    have hlen := length_le_frames low cs
    have hdata : log.mQue.mDataSize = s.items.length := h.dataSize
    rw [hdata, hs, Int.toNat_natCast]
    omega
  obtain ⟨q, s', hq, h', hs'⟩ :=
    makeRoom_eq hB slen (UInt16.ofNat (str.length + 1)) h hs hfuel
  have hlen : 2 + (UInt16.ofNat (str.length + 1)).toNat = (frame low (stored str)).length := by
    rw [length_frame, length_stored, Nat.add_comm]
  rw [hlen, he] at hq hs'
  rw [EdLog.print, hq, Option.bind_some]
  dsimp only
  by_cases hroom : e.1 = true
  · have hfree : (frames low e.2).length + (frame low (stored str)).length ≤ B := by
      subst he
      exact evict_room hroom
    obtain ⟨q₁, hq₁, h₁⟩ := h'.put hlt (u16Bytes low (UInt16.ofNat (str.length + 1)))
    obtain ⟨q₂, hq₂, h₂⟩ := h₁.put hlt (stored str).1
    rw [length_frame] at hfree
    have hitems₁ : (s'.put (u16Bytes low (UInt16.ofNat (str.length + 1)))).items =
        frames low e.2 ++ u16Bytes low (UInt16.ofNat (str.length + 1)) := by
      rw [BoundedFifo.items_put, hs', List.take_of_length_le]
      rw [length_u16Bytes, BoundedFifo.free, hs']
      omega
    have hitems₂ : ((s'.put (u16Bytes low (UInt16.ofNat (str.length + 1)))).put
        (stored str).1).items = frames low (e.2 ++ [stored str]) := by
      have hhead : UInt16.ofNat (stored str).1.length = UInt16.ofNat (str.length + 1) := by
        rw [length_stored, UInt16.ofNat_toNat]
      rw [BoundedFifo.items_put, hitems₁, List.take_of_length_le, frames_append, List.append_assoc]
      · rw [frames, frames, List.flatMap_singleton, frame, hhead]
      · rw [BoundedFifo.free, hitems₁, List.length_append, length_u16Bytes]
        omega
    have hput : q₁.put ((str ++ [0]).take (UInt16.ofNat (str.length + 1)).toNat) = some (_, q₂) :=
      hq₂
    refine ⟨⟨q₂⟩, _, ?_, h₂, ?_⟩
    · rw [if_pos hroom, if_pos hroom, hq₁, Option.bind_some]
      dsimp only
      rw [hput]
      rfl
    · rw [if_pos hroom, hitems₂]
  · refine ⟨⟨q⟩, s', ?_, h', ?_⟩
    · rw [if_neg hroom, if_neg hroom]
    · rw [if_neg hroom]
      exact hs'

/-- The log holds the records of the strings of `t`. -/
structure Keeps (low : Bool) (B : Nat) (log : EdLog) (t : Strings) : Prop where
  ring : ∃ s : BoundedFifo UInt8 B, log.mQue.Represents s ∧ s.items = records low t.held
  suffix : t.held <:+ t.unflushed

lemma Keeps.new (low : Bool) (junk : Nat → UInt8) (h : 0 < B) :
    Keeps low B (EdLog.new B junk) ⟨[], []⟩ where
  ring := ⟨BoundedFifo.empty, ⟨0, 0, 0, EdRingQue.Holds.new junk h⟩, rfl⟩
  suffix := List.suffix_refl _

variable {log : EdLog} {t : Strings}

lemma Keeps.print (h : Keeps low B log t) (hB : B + 65535 ≤ 2 ^ 31) (slen : Nat → UInt16)
    (str : LogString) :
    ∃ ret log' t', log.print low slen str.1 = some (ret, log') ∧
      Answers low B t (.print str) (.ret ret) t' ∧ Keeps low B log' t' := by
  obtain ⟨s, hr, hs⟩ := h.ring
  obtain ⟨pre, hpre⟩ := h.suffix
  rw [records_eq_frames] at hs
  obtain ⟨k, hk, he, hleast⟩ | ⟨he, hbig⟩ : _ ∨ _ :=
    @evict_of_ne low B (frame low (stored str.1)).length _ (stored_ne_nil t.held)
  · obtain ⟨log', s', hprint, hr', hs'⟩ := print_eq hB slen str.1 hr hs he
    rw [if_pos rfl, ← List.map_drop,
      ← List.map_singleton (f := fun str : LogString => stored str.1), ← List.map_append,
      ← records_eq_frames] at hs'
    refine ⟨0, log', ⟨t.unflushed ++ [str], t.held.drop k ++ [str]⟩, hprint,
      .inl ⟨rfl, rfl, k, by simpa using hk, rfl, ?_, ?_⟩, ⟨s', hr', hs'⟩, ?_⟩
    · rw [← hs']
      exact s'.bounded
    · intro j hj
      have hj' := hleast j hj
      rw [← List.map_drop, ← records_eq_frames, ← record_eq_frame] at hj'
      rw [records_append, List.length_append]
      simpa [records] using hj'
    · refine ⟨pre ++ t.held.take k, ?_⟩
      rw [← hpre, ← List.append_assoc, List.append_assoc pre, List.take_append_drop]
  · obtain ⟨log', s', hprint, hr', hs'⟩ := print_eq hB slen str.1 hr hs he
    refine ⟨-1, log', { t with held := [] }, hprint, .inr ⟨rfl, ?_, rfl⟩, ⟨s', hr', hs'⟩,
      List.nil_suffix⟩
    rw [record_eq_frame]
    exact hbig

/-- Reading a string's length and then that many bytes takes off the first record. -/
lemma get_record (h : q.Represents s) (hB : B + 65535 ≤ 2 ^ 31)
    (hs : s.items = record low str ++ rest) (buf : Bool) :
    ∃ (q₁ q₂ : EdRingQue) (s' : BoundedFifo UInt8 B),
      q.get true 2 = some ((2, u16Bytes low (UInt16.ofNat (str.1.length + 1))), q₁) ∧
      q₁.get buf ((str.1.length + 1 : Nat) : Int) =
        some ((((str.1.length + 1 : Nat) : Int), if buf then str.1 ++ [0] else []), q₂) ∧
      q₂.Represents s' ∧ s'.items = rest := by
  rw [record_eq_frame] at hs
  have hg := get_frame h hB hs buf
  rwa [length_stored_eq, stored_eq] at hg

lemma toNat_ofNat_string (str : LogString) :
    (UInt16.ofNat (str.1.length + 1)).toNat = str.1.length + 1 := by
  rw [← length_stored, length_stored_eq]

lemma flushLoop_eq (hB : B + 65535 ≤ 2 ^ 31) (loop : Nat) (slen : UInt16) {strs : List LogString}
    {logstr : Block} {q : EdRingQue} {s : BoundedFifo UInt8 B} (h : q.Represents s)
    (hs : s.items = records low strs) (hb : logstr.size = 64 * 1024) :
    ∃ (q' : EdRingQue) (s' : BoundedFifo UInt8 B), flushLoop low loop slen logstr q =
        some ((strs.take loop).map Subtype.val, q') ∧
      q'.Represents s' ∧ s'.items = records low (strs.drop loop) := by
  induction loop generalizing slen strs logstr q s with
  | zero => exact ⟨q, s, rfl, h, hs⟩
  | succ loop ih =>
    cases strs with
    | nil =>
      obtain ⟨q', s', hq', hr', hs'⟩ :=
        get_end h (fits_u16 hB (show 2 ≤ 65535 by omega)) hs true
      exact ⟨q', s', congrArg (fun o => Option.bind o _) hq', hr', hs'⟩
    | cons str strs =>
      rw [records_cons] at hs
      obtain ⟨q₁, q₂, s₂, hq₁, hq₂, h₂, hs₂⟩ := get_record h hB hs true
      obtain ⟨t, ht, hts, hputs⟩ := puts_store hb str
      obtain ⟨q', s', hq', h', hs'⟩ :=
        ih (UInt16.ofNat (str.1.length + 1)) h₂ hs₂ hts
      refine ⟨q', s', ?_, h', hs'⟩
      rw [flushLoop, hq₁, Option.bind_some]
      dsimp only
      rw [if_neg (by decide), copyU16_u16Bytes, toNat_ofNat_string, hq₂, Option.bind_some]
      dsimp only
      rw [if_pos rfl, ht, Option.bind_some, hputs, Option.bind_some, hq']
      rfl

lemma Keeps.flush (h : Keeps low B log t) (hB : B + 65535 ≤ 2 ^ 31) (slen : UInt16)
    (junk : Nat → UInt8) (count : Int) :
    ∃ strs log' t', log.flush low slen junk count = some (strs, log') ∧
      Answers low B t (.flush count) (.lines strs) t' ∧ Keeps low B log' t' := by
  obtain ⟨s, hr, hs⟩ := h.ring
  obtain ⟨dropped, hdropped⟩ := h.suffix
  generalize hn : (if count ≤ 0 then t.held.length else min count.toNat t.held.length) = n
  generalize hloop : (if count ≤ 0 then log.mQue.getDataSize else count) = loop
  have hdata : log.mQue.getDataSize = s.items.length := hr.dataSize
  have hlen := length_le_records low t.held
  rw [← hs] at hlen
  have hmin : n = min loop.toNat t.held.length := by
    split at hn <;> rename_i hc
    · rw [if_pos hc, hdata] at hloop
      omega
    · rw [if_neg hc] at hloop
      omega
  obtain ⟨q', s', hq', hr', hs'⟩ :=
    flushLoop_eq hB loop.toNat slen hr hs
      (show (⟨64 * 1024, junk⟩ : Block).size = 64 * 1024 from rfl)
  have hdrop : t.held.drop loop.toNat = t.held.drop n := by
    rw [hmin]
    rcases Nat.le_total loop.toNat t.held.length with hle | hle
    · rw [Nat.min_eq_left hle]
    · rw [Nat.min_eq_right hle, List.drop_length, List.drop_of_length_le hle]
  rw [hdrop] at hs'
  refine ⟨(t.held.take loop.toNat).map Subtype.val, ⟨q'⟩,
    ⟨dropped ++ t.held.drop n, t.held.drop n⟩, ?_, ⟨?_, ?_, dropped, ?_, rfl⟩,
    ⟨s', hr', hs'⟩, List.suffix_append _ _⟩
  · rw [EdLog.flush]
    dsimp only
    rw [hloop, hq']
    rfl
  · rw [hn, hmin, ← List.take_eq_take_min]
  · rw [hn]
  · exact hdropped.symm

/-- Peeking on at the text of a record passes over it. -/
lemma peekNext_text (h : q.Represents s) (hB : B + 65535 ≤ 2 ^ 31) {passed left : Nat}
    (hp : s.peeked = some (passed, left)) (hs : s.items.drop passed = str.1 ++ [0] ++ rest)
    (hl : left = str.1.length + 1 + rest.length) :
    ∃ (q' : EdRingQue) (s' : BoundedFifo UInt8 B),
      q.peekNext true ((str.1.length + 1 : Nat) : Int) =
        some ((((str.1.length + 1 : Nat) : Int), str.1 ++ [0]), q') ∧
      q'.Represents s' ∧ s'.items = s.items ∧
      s'.peeked = some (passed + (str.1.length + 1), rest.length) ∧
      s'.items.drop (passed + (str.1.length + 1)) = rest := by
  rw [← stored_eq] at hs ⊢
  rw [← length_stored_eq] at hl ⊢
  exact peekNext_chunk h hB hp hs hl

/-- Peeking on at a record passes over it. -/
lemma peekNext_record (h : q.Represents s) (hB : B + 65535 ≤ 2 ^ 31) {passed left : Nat}
    (hp : s.peeked = some (passed, left)) (hs : s.items.drop passed = record low str ++ rest)
    (hl : left = str.1.length + 3 + rest.length) :
    ∃ (q₁ q₂ : EdRingQue) (s' : BoundedFifo UInt8 B) (out : Int) (passed' : Nat),
      q.peekNext true 2 = some ((out, u16Bytes low (UInt16.ofNat (str.1.length + 1))), q₁) ∧
      q₁.peekNext true ((str.1.length + 1 : Nat) : Int) =
        some ((((str.1.length + 1 : Nat) : Int), str.1 ++ [0]), q₂) ∧
      q₂.Represents s' ∧ s'.items = s.items ∧ s'.peeked = some (passed', rest.length) ∧
      s'.items.drop passed' = rest := by
  rw [record_eq_frame] at hs
  have hg := peekNext_frame h hB hp hs (by rw [length_stored_eq, hl])
  rwa [length_stored_eq, stored_eq] at hg

/-- The lines after the one in the buffer. -/
lemma dumpLoop_eq (hB : B + 65535 ≤ 2 ^ 31) (slen : UInt16) {strs : List LogString}
    {str : LogString} {fuel : Nat} (hf : strs.length + 1 < fuel) {rdcnt : Int} (hrd : rdcnt ≠ 0)
    {logstr : Block} {q : EdRingQue} {s : BoundedFifo UInt8 B} (h : q.Represents s)
    {passed : Nat} (hp : s.peeked = some (passed, (records low strs).length))
    (hs : s.items.drop passed = records low strs) (hb : logstr.size = 64 * 1024)
    (hputs : puts logstr = some str.1) :
    ∃ (q' : EdRingQue) (s' : BoundedFifo UInt8 B), dumpLoop low fuel rdcnt slen logstr q =
        some (str.1 :: strs.map Subtype.val, q') ∧
      q'.Represents s' ∧ s'.items = s.items := by
  induction strs generalizing slen str fuel rdcnt logstr q s passed with
  | nil =>
    obtain ⟨fuel, rfl⟩ : ∃ n, fuel = n + 2 := ⟨fuel - 2, by simp at hf; omega⟩
    obtain ⟨q₁, s₁, hq₁, h₁, hs₁, hp₁⟩ := peekNext_end h (fits_u16 hB (show 2 ≤ 65535 by omega)) hp
    obtain ⟨q₂, s₂, hq₂, h₂, hs₂, hp₂⟩ := peekNext_end h₁
      (fits_u16 hB (Nat.le_of_lt_succ (copyU16 low slen []).toNat_lt)) hp₁
    obtain ⟨b, hstore, -⟩ := Block.store_eq (b := logstr) (o := 0) (n := 0) (s := [])
      (by omega) (by omega) (by omega) (by simp)
    refine ⟨q₂, s₂, ?_, h₂, hs₂.trans hs₁⟩
    rw [dumpLoop, if_neg hrd, hputs, Option.bind_some,
      show q.peekNext true 2 = some ((0, []), q₁) from hq₁, Option.bind_some]
    dsimp only
    rw [hq₂, Option.bind_some]
    dsimp only
    rw [hstore, Option.bind_some, dumpLoop, if_pos rfl]
    rfl
  | cons next strs ih =>
    obtain ⟨fuel, rfl⟩ : ∃ n, fuel = n + 1 := ⟨fuel - 1, by omega⟩
    rw [List.length_cons] at hf
    rw [records_cons] at hs hp
    obtain ⟨q₁, q₂, s₂, out, passed', hq₁, hq₂, h₂, hs₂, hp₂, hrest⟩ :=
      peekNext_record h hB hp hs (by rw [List.length_append, length_record])
    obtain ⟨b, hstore, hbs, hputs'⟩ := puts_store hb next
    obtain ⟨q', s', hq', h', hs'⟩ := ih (UInt16.ofNat (next.1.length + 1))
      (show strs.length + 1 < fuel by omega) (show ((next.1.length + 1 : Nat) : Int) ≠ 0 by omega)
      h₂ hp₂ hrest hbs hputs'
    refine ⟨q', s', ?_, h', hs'.trans hs₂⟩
    rw [dumpLoop, if_neg hrd, hputs, Option.bind_some, hq₁, Option.bind_some]
    dsimp only
    rw [copyU16_u16Bytes, toNat_ofNat_string, hq₂, Option.bind_some]
    dsimp only
    rw [hstore, Option.bind_some, hq']
    rfl

lemma Keeps.dumpAll (h : Keeps low B log t) (hB : B + 65535 ≤ 2 ^ 31) (slen : UInt16)
    (junk : Nat → UInt8) :
    ∃ strs log', log.dumpAll low slen junk = some (strs, log') ∧
      Answers low B t .dumpAll (.lines strs) t ∧ Keeps low B log' t := by
  obtain ⟨s, hr, hs⟩ := h.ring
  obtain ⟨q₁, hq₁, hr₁⟩ := hr.peek (fits_u16 hB (show 2 ≤ 65535 by omega)) true
  generalize hstrs : t.held = strs at hs
  cases strs with
  | nil =>
    have hempty : s.items.length = 0 := congrArg List.length hs
    rw [hempty, Nat.min_zero] at hq₁
    have hp₁ : (s.peek 2).peeked = some (0, 0) := by
      rw [BoundedFifo.peeked_peek, hempty]
      rfl
    obtain ⟨q₂, s₂, hq₂, h₂, hs₂, hp₂⟩ :=
      peekNext_end hr₁
        (fits_u16 hB (Nat.le_of_lt_succ (copyU16 low slen (s.items.take 2)).toNat_lt)) hp₁
    obtain ⟨b, hstore, -⟩ := Block.store_eq (b := ⟨64 * 1024, junk⟩) (o := 0) (n := 0)
      (s := []) (by omega) (by omega) (by simp) (by simp)
    refine ⟨[], ⟨q₂⟩, ?_, ⟨by rw [hstrs]; rfl, rfl⟩, ⟨s₂, h₂, ?_⟩, h.suffix⟩
    · rw [EdLog.dumpAll, show log.mQue.peek true 2 = some ((0, s.items.take 2), q₁) from hq₁,
        Option.bind_some]
      dsimp only
      rw [hq₂, Option.bind_some]
      dsimp only
      rw [hstore, Option.bind_some, dumpLoop, if_pos rfl]
      rfl
    · rw [hs₂, BoundedFifo.items_peek, hs, hstrs]
  | cons str strs =>
    rw [records_cons] at hs
    have hlen : 2 ≤ s.items.length := by
      rw [hs, List.length_append, length_record]
      omega
    have htake : s.items.take 2 = u16Bytes low (UInt16.ofNat (str.1.length + 1)) := by
      rw [hs, record, List.append_assoc, List.take_left' (length_u16Bytes _)]
    have hdrop : (s.peek 2).items.drop 2 = str.1 ++ [0] ++ records low strs := by
      rw [BoundedFifo.items_peek, hs, record, List.append_assoc,
        List.drop_left' (length_u16Bytes _)]
    have hp₁ : (s.peek 2).peeked = some (2, s.items.length - 2) := by
      rw [BoundedFifo.peeked_peek, Nat.min_eq_left hlen]
    obtain ⟨q₂, s₂, hq₂, h₂, hs₂, hp₂, hrest⟩ := peekNext_text hr₁ hB hp₁ hdrop (by
      rw [hs, List.length_append, length_record]
      omega)
    obtain ⟨b, hstore, hbs, hputs⟩ := puts_store (b := ⟨64 * 1024, junk⟩) rfl str
    have hfuel : strs.length + 1 < q₂.mDataSize.toNat + 1 := by
      have hdata : q₂.mDataSize = s₂.items.length := h₂.dataSize
      have := length_le_records low strs
      rw [hdata, hs₂, BoundedFifo.items_peek, hs, Int.toNat_natCast,
        List.length_append, length_record]
      omega
    obtain ⟨q₃, s₃, hq₃, h₃, hs₃⟩ := dumpLoop_eq hB (UInt16.ofNat (str.1.length + 1)) hfuel
      (show ((str.1.length + 1 : Nat) : Int) ≠ 0 by omega) h₂ hp₂ hrest hbs hputs
    refine ⟨str.1 :: strs.map Subtype.val, ⟨q₃⟩, ?_, ⟨by rw [hstrs]; rfl, rfl⟩, ⟨s₃, h₃, ?_⟩,
      h.suffix⟩
    · rw [EdLog.dumpAll, show log.mQue.peek true 2 = some (_, q₁) from hq₁, Option.bind_some]
      dsimp only
      rw [if_pos rfl, htake, copyU16_u16Bytes, toNat_ofNat_string, hq₂, Option.bind_some]
      dsimp only
      rw [hstore, Option.bind_some, hq₃]
      rfl
    · rw [hs₃, hs₂, BoundedFifo.items_peek, hs, hstrs, records_cons]

lemma Keeps.call (h : Keeps low B log t) (hB : B + 65535 ≤ 2 ^ 31) (left : Leftover) (op : LogOp) :
    ∃ out log' t', log.call low left op = some (out, log') ∧ Answers low B t op out t' ∧
      Keeps low B log' t' := by
  cases op with
  | print str =>
    obtain ⟨ret, log', t', hp, ha, h'⟩ := h.print hB left.slen str
    exact ⟨_, log', t', by rw [EdLog.call, hp]; rfl, ha, h'⟩
  | flush count =>
    obtain ⟨strs, log', t', hf, ha, h'⟩ := h.flush hB (left.slen 0) left.logstr count
    exact ⟨_, log', t', by rw [EdLog.call, hf]; rfl, ha, h'⟩
  | dumpAll =>
    obtain ⟨strs, log', hd, ha, h'⟩ := h.dumpAll hB (left.slen 0) left.logstr
    exact ⟨_, log', t, by rw [EdLog.call, hd]; rfl, ha, h'⟩

lemma Keeps.calls (hB : B + 65535 ≤ 2 ^ 31) (ops : List (Leftover × LogOp)) {log : EdLog}
    {t : Strings} (h : Keeps low B log t) :
    ∃ outs log' t', log.calls low ops = some (outs, log') ∧ AnswersAll low B t ops outs t' ∧
      Keeps low B log' t' := by
  induction ops generalizing log t with
  | nil => exact ⟨[], log, t, rfl, .nil t, h⟩
  | cons op ops ih =>
    obtain ⟨left, op⟩ := op
    obtain ⟨out, log₁, t₁, hc, ha, h₁⟩ := h.call hB left op
    obtain ⟨outs, log₂, t₂, hcs, has, h₂⟩ := ih h₁
    refine ⟨out :: outs, log₂, t₂, ?_, .cons ha has, h₂⟩
    rw [EdLog.calls, hc, Option.bind_some]
    dsimp only
    rw [hcs]
    rfl

/-- Every sequence of calls on a new log ends, each call answers as the strings then in the
log want it, and the ring holds whole records of the newest strings. -/
theorem keeps_recent_records (hB : 1 ≤ B) (hB' : B ≤ 2 ^ 30) (low : Bool) (junk : Nat → UInt8)
    (ops : List (Leftover × LogOp)) :
    ∃ outs log t, (EdLog.new B junk).calls low ops = some (outs, log) ∧
      AnswersAll low B ⟨[], []⟩ ops outs t ∧ t.held <:+ t.unflushed ∧
      log.mQue.contents = records low t.held := by
  obtain ⟨outs, log, t, hcalls, hans, hk⟩ :=
    Keeps.calls (show B + 65535 ≤ 2 ^ 31 by omega) ops (Keeps.new low junk hB)
  obtain ⟨s, hr, hs⟩ := hk.ring
  exact ⟨outs, log, t, hcalls, hans, hk.suffix, hr.contents.trans hs⟩

theorem keeps_recent_records_evicts : ∃ outs log, ∃ t : Strings,
    (EdLog.new 8 (fun _ => 0)).calls true [(⟨fun _ => 0, fun _ => 0⟩, .print ⟨[65, 66], by decide⟩),
      (⟨fun _ => 0, fun _ => 0⟩, .print ⟨[67], by decide⟩),
      (⟨fun _ => 0, fun _ => 0⟩, .dumpAll)] = some (outs, log) ∧
    outs = [.ret 0, .ret 0, .lines [[67]]] ∧ t.held <:+ t.unflushed ∧
    log.mQue.contents = records true t.held := by
  obtain ⟨outs, log, t, hcalls, -, ht, hc⟩ := keeps_recent_records (B := 8) (by decide)
    (by decide) true (fun _ => 0) [(⟨fun _ => 0, fun _ => 0⟩, .print ⟨[65, 66], by decide⟩),
      (⟨fun _ => 0, fun _ => 0⟩, .print ⟨[67], by decide⟩),
      (⟨fun _ => 0, fun _ => 0⟩, .dumpAll)]
  have houts : ((EdLog.new 8 (fun _ => 0)).calls true
      [(⟨fun _ => 0, fun _ => 0⟩, .print ⟨[65, 66], by decide⟩),
        (⟨fun _ => 0, fun _ => 0⟩, .print ⟨[67], by decide⟩),
        (⟨fun _ => 0, fun _ => 0⟩, .dumpAll)]).map Prod.fst =
      some [.ret 0, .ret 0, .lines [[67]]] := by decide +kernel
  have hcalls' := congrArg (Option.map Prod.fst) hcalls
  exact ⟨outs, log, t, hcalls, Option.some.inj (hcalls'.symm.trans houts), ht, hc⟩

end EdLog

end EdNio.Buffer
