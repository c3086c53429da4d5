import EdNio.Buffer.BufferCalls
import EdNio.Library.History

/-!
# The data of EdByteBuffer

What was put into a buffer or taken over by it lies in its block, as long as `reserve` and
`enlarge` leave room for it.
-/

namespace EdNio.Buffer
open MachineInt Memory Transition

/-- A call with the byte order of its buffer. -/
inductive DataEvent
  | call (i : Nat) (order : Bool) (c : Call)
  | move (i j : Nat)

def dataEvent (s : Nat → EdByteBuffer) : BufferAction → Option DataEvent
  | .call i c _ => some (.call i (s i).mOrder c)
  | .move i j => some (.move i j)

def bufferHistory : System (Recorded (Nat → EdByteBuffer) DataEvent) BufferAction :=
  buffers.recorded dataEvent

/-- What a call makes of the bytes put or taken over so far. -/
def Call.data (order : Bool) (bytes : List UInt8) : Call → List UInt8
  | .takeBuffer ptr datasize _ => (List.range datasize.toNat).map ptr.byte
  | .clear | .release => []
  | c => bytes ++ c.bytes order

def DataEvent.next (x : Nat → List UInt8) : DataEvent → Nat → List UInt8
  | .call i order c => Function.update x i (c.data order (x i))
  | .move i j => if i = j then x else Function.update (Function.update x i (x j)) j []

/-- The bytes put into each buffer or taken over by it. -/
def dataOf (log : List DataEvent) : Nat → List UInt8 :=
  log.foldl DataEvent.next (fun _ => [])

lemma dataOf_concat (log : List DataEvent) (e : DataEvent) :
    dataOf (log ++ [e]) = e.next (dataOf log) := by
  simp [dataOf]

namespace EdByteBuffer

/-- The data lie in the block, and those of a further `put` will. -/
structure Stored (s : EdByteBuffer) (bytes : List UInt8) : Prop where
  size_le : s.mSize ≤ s.mCapacity
  data : s.mBuf.load 0 s.mSize = some bytes
  put : ∀ buf, s.mSize + buf.length < 2 ^ 63 → (s.put buf).isSome = true

/-- The new capacity holds the data, and so does the block, if there is one. -/
def leavesRoom (s : EdByteBuffer) (size : Nat) (ok : Bool) : Bool :=
  s.mSize ≤ size ∧ (ok = true ∨ size = 0)

/-- The data have room after a call. -/
def keepsRoom (s : EdByteBuffer) : Call → Bool
  | .takeBuffer _ datasize cap => datasize.toNat ≤ cap.toNat
  | .reserve size ok => s.leavesRoom size.toNat ok
  | .enlarge size ok => s.leavesRoom (toSize (s.mCapacity + size.toNat)) ok
  | _ => true

structure DataIn (s : EdByteBuffer) (bytes : List UInt8) : Prop where
  size_le : s.mSize ≤ s.mCapacity
  block : s.mCapacity ≤ s.mBuf.size
  data : s.mBuf.load 0 s.mSize = some bytes

variable {s t : EdByteBuffer} {c : Call} {bytes : List UInt8}

lemma load_contents (h : s.mSize ≤ s.mBuf.size) :
    s.mBuf.load 0 s.mSize = some s.contents := by
  rw [Block.load_eq (by omega) (by omega) (by omega), contents]
  simp

/-- The block is not as long as the data. -/
lemma load_short (h : s.mBuf.size < s.mSize) : s.mBuf.load 0 s.mSize = none :=
  if_neg (by omega)

namespace DataIn

lemma contents_eq (h : DataIn s bytes) : s.contents = bytes := by
  have hload := h.data
  rw [load_contents (Nat.le_trans h.size_le h.block)] at hload
  exact Option.some.inj hload

/-- Data in a block that is long enough. -/
lemma of_contents (hsize : s.mSize ≤ s.mCapacity) (hblock : s.mCapacity ≤ s.mBuf.size)
    (hc : s.contents = bytes) : DataIn s bytes :=
  ⟨hsize, hblock, hc ▸ load_contents (Nat.le_trans hsize hblock)⟩

lemma stored (h : DataIn s bytes) : Stored s bytes := by
  refine ⟨h.size_le, h.data, fun buf hb => ?_⟩
  obtain ⟨ret, t, ht, -⟩ := put_spec h.block hb
  rw [ht]
  rfl

lemma around (h : DataIn s bytes) (junk : Nat → UInt8) : DataIn (s.around junk) bytes := by
  refine ⟨h.size_le, h.block, ?_⟩
  rw [EdByteBuffer.around, Block.load_around]
  exact h.data

lemma new (junk : Nat → UInt8) : DataIn (.new junk) [] :=
  of_contents (Nat.le_refl 0) (Nat.le_refl 0) rfl

lemma same (h : DataIn s bytes) (hs : SameData s t) : DataIn t bytes := by
  refine ⟨?_, ?_, ?_⟩
  · rw [hs.mSize, hs.mCapacity]
    exact h.size_le
  · rw [hs.mCapacity, hs.mBuf]
    exact h.block
  · rw [hs.mSize, hs.mBuf]
    exact h.data

lemma puts (h : DataIn s bytes) (hc : c.puts = true)
    (hlen : s.mSize + (c.bytes s.mOrder).length < 2 ^ 63) (ht : s.call c = some t) :
    DataIn t (bytes ++ c.bytes s.mOrder) := by
  obtain ⟨ret, u, hu, -, hcap, hblock, -, hcon, -⟩ := put_spec h.block hlen
  rw [call_puts hc, hu] at ht
  cases ht
  rw [h.contents_eq] at hcon
  exact of_contents hcap hblock hcon

lemma reserveAny (h : DataIn s bytes) {size : Nat} {ok : Bool}
    (hok : s.leavesRoom size ok = true) : DataIn (s.reserveAny size ok) bytes := by
  obtain ⟨hle, hblock⟩ := of_decide_eq_true hok
  unfold EdByteBuffer.reserveAny
  split
  · exact of_contents hle (Nat.le_refl size) h.contents_eq
  · rename_i hfail
    have hzero : size = 0 := hblock.resolve_left hfail
    subst hzero
    exact of_contents hle (Nat.le_refl 0) h.contents_eq

lemma call (h : DataIn s bytes) (hcan : s.canCall c = true) (hok : s.keepsRoom c = true)
    (ht : s.call c = some t) : DataIn t (c.data s.mOrder bytes) := by
  cases c with
  | put | put8 | put16 | put32 | put64 => exact h.puts rfl (of_decide_eq_true hcan) ht
  | get | get8 | get16 | get32 | get64 | getNum | getObj =>
    show DataIn t (bytes ++ [])
    rw [List.append_nil]
    exact h.same (call_same rfl ht)
  | consume | rewind | setOrder =>
    cases ht
    show DataIn _ (bytes ++ [])
    rw [List.append_nil]
    exact h.same ⟨rfl, rfl, rfl⟩
  | clear =>
    cases ht
    exact of_contents (Nat.zero_le _) h.block rfl
  | release =>
    cases ht
    exact of_contents (Nat.le_refl 0) (Nat.le_refl 0) rfl
  | takeBuffer ptr datasize cap =>
    cases ht
    exact of_contents (of_decide_eq_true hok) (of_decide_eq_true hcan).2.1 rfl
  | reserve | enlarge =>
    cases ht
    show DataIn _ (bytes ++ [])
    rw [List.append_nil]
    exact h.reserveAny hok

/-- A capacity without room for the data, or without a block. -/
lemma not_stored_reserveAny {size : Nat} {ok : Bool} (hok : ¬ s.leavesRoom size ok = true)
    (bytes : List UInt8) : ¬ Stored (s.reserveAny size ok) bytes := by
  intro hst
  have hsize := hst.size_le
  rw [leavesRoom, decide_eq_true_iff, not_and_or, not_or] at hok
  cases ok with
  | true =>
    have hle : s.mSize ≤ size := hsize
    simp [hle] at hok
  | false =>
    have hle : s.mSize ≤ size := hsize
    have hpos : size ≠ 0 := by simpa [hle] using hok
    -- The first byte put goes to a NULL block, or the data are lost with the old one.
    by_cases hzero : s.mSize = 0
    · have hput := hst.put [0] (by simp [EdByteBuffer.reserveAny, hzero])
      have hneed : ¬ size < toSize (0 + 1) := by
        rw [toSize]
        omega
      simp [EdByteBuffer.put, EdByteBuffer.reserveAny, hzero, hneed, Block.store,
        Block.realloc] at hput
    · have hdata := hst.data
      rw [load_short (by simpa [EdByteBuffer.reserveAny, Block.realloc] using
        Nat.pos_of_ne_zero hzero)] at hdata
      cases hdata

lemma not_stored (hok : ¬ s.keepsRoom c = true) (ht : s.call c = some t) (bytes : List UInt8) :
    ¬ Stored t bytes := by
  cases c with
  | takeBuffer ptr datasize cap =>
    cases ht
    intro hst
    exact hok (decide_eq_true hst.size_le)
  | reserve | enlarge =>
    cases ht
    exact not_stored_reserveAny hok bytes
  | _ => exact absurd rfl hok

end DataIn

end EdByteBuffer

open EdByteBuffer

/-- Each call of the run leaves room for the data. -/
def keepsRooms (s : Recorded (Nat → EdByteBuffer) DataEvent) : BufferAction → Bool
  | .call i c _ => (s.state i).keepsRoom c
  | .move _ _ => true

/-- The data of all buffers. -/
def AllStored (s : Recorded (Nat → EdByteBuffer) DataEvent) : Prop :=
  ∀ i, Stored (s.state i) (dataOf s.log i)

variable {s t : Recorded (Nat → EdByteBuffer) DataEvent} {a : BufferAction}

lemma moved_dataIn {s : Nat → EdByteBuffer} {x : Nat → List UInt8} (h : ∀ i, DataIn (s i) (x i))
    (i j : Nat) : ∀ k, DataIn (moved s i j k) ((DataEvent.move i j).next x k) := by
  intro k
  by_cases hij : i = j
  · simp only [moved, DataEvent.next, hij, if_true]
    exact h k
  · simp only [moved, DataEvent.next, hij, if_false, Function.update_apply]
    by_cases hkj : k = j
    · simp only [hkj, if_true]
      exact .new _
    by_cases hki : k = i
    · subst hki
      simp only [hkj, if_false, if_true]
      exact h j
    · simp only [hkj, hki, if_false]
      exact h k

lemma step_dataIn (h : ∀ i, DataIn (s.state i) (dataOf s.log i)) (hok : keepsRooms s a = true)
    (hs : bufferHistory.step s a = some t) : ∀ i, DataIn (t.state i) (dataOf t.log i) := by
  obtain ⟨hstep, hlog⟩ := recorded_step hs
  rw [hlog]
  cases a with
  | call i c junk =>
    simp only [buffers, Option.ite_none_right_eq_some] at hstep
    obtain ⟨hcan, hstep⟩ := hstep
    obtain ⟨u, hu, ht⟩ := Option.map_eq_some_iff.mp hstep
    have hdata := ((h i).around junk).call hcan hok hu
    intro k
    simp only [dataEvent, Option.toList_some, dataOf_concat, DataEvent.next, ← ht,
      Function.update_apply]
    split
    · exact hdata
    · exact h k
  | move i j =>
    simp only [buffers, Option.some.injEq] at hstep
    simp only [dataEvent, Option.toList_some, dataOf_concat, ← hstep]
    exact moved_dataIn h i j

/-- A call that leaves no room for the data. -/
lemma not_allStored (hok : ¬ keepsRooms s a = true) (hs : bufferHistory.step s a = some t) :
    ¬ AllStored t := by
  obtain ⟨hstep, -⟩ := recorded_step hs
  cases a with
  | call i c junk =>
    simp only [buffers, Option.ite_none_right_eq_some] at hstep
    obtain ⟨u, hu, ht⟩ := Option.map_eq_some_iff.mp hstep.2
    intro hall
    have hst := hall i
    rw [← ht, Function.update_self] at hst
    exact DataIn.not_stored (s := (s.state i).around junk) hok hu _ hst
  | move i j => exact absurd rfl hok

/-- A run whose calls all leave room for the data, and the first that does not. -/
theorem data_stored (h : bufferHistory.Reaches (fun s a => keepsRooms s a = true) s) :
    AllStored s ∧ ∀ a t, bufferHistory.step s a = some t →
      (AllStored t ↔ keepsRooms s a = true) := by
  apply h.exact (I := fun s => ∀ i, DataIn (s.state i) (dataOf s.log i))
  · rintro ⟨s, log⟩ ⟨h0, hlog⟩ i
    obtain ⟨junk, hnew⟩ := h0 i
    dsimp only at hnew hlog ⊢
    rw [hnew, hlog]
    exact .new junk
  · intro s a t hI hok hs
    exact step_dataIn hI hok hs
  · intro s hI i
    exact (hI i).stored
  · intro s a t _ hok hs
    exact not_allStored hok hs

/-- A block that is taken over and written to, shrunk to the data, and moved. -/
theorem data_stored_movedRun : ∃ s,
    bufferHistory.Reaches (fun s a => keepsRooms s a = true) s ∧
      (dataOf s.log 0, dataOf s.log 1) = ([], [7, 7, 1, 2, 3]) ∧ AllStored s := by
  obtain ⟨s, hr, hs⟩ := System.exists_of_exec_restrict (M := bufferHistory) (T := keepsRooms)
    (s := ⟨fun _ => .new (fun _ => 0), []⟩)
    (f := fun s => (dataOf s.log 0, dataOf s.log 1)) (b := ([], [7, 7, 1, 2, 3]))
    ⟨fun _ => ⟨_, rfl⟩, rfl⟩
    (l := [.call 0 (.takeBuffer ⟨4, fun _ => 7⟩ 2 4) (fun _ => 0),
      .call 0 (.put [1, 2, 3]) (fun _ => 0), .call 0 (.reserve 5 true) (fun _ => 0), .move 1 0])
    (by decide +kernel)
  exact ⟨s, hr, hs, (data_stored hr).1⟩

/-- Four bytes in a buffer that is then given a capacity of one. -/
theorem not_data_stored : ¬ ∀ s, bufferHistory.Reachable s → AllStored s := by
  intro h
  obtain ⟨s, hr, hs⟩ := System.exists_of_exec (M := bufferHistory)
    (s := ⟨fun _ => .new (fun _ => 0), []⟩)
    (f := fun s => ((s.state 0).mSize, (s.state 0).mCapacity)) (b := (4, 1))
    ⟨fun _ => ⟨_, rfl⟩, rfl⟩
    (l := [.call 0 (.put [1, 2, 3, 4]) (fun _ => 0), .call 0 (.reserve 1 true) (fun _ => 0)])
    (by decide +kernel)
  have hle := (h s hr 0).size_le
  rw [Prod.mk.injEq] at hs
  rw [hs.1, hs.2] at hle
  exact absurd hle (by decide)

end EdNio.Buffer
