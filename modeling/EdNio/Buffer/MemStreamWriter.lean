import EdNio.Library.Block
import EdNio.Library.MachineInt
import EdNio.Library.Transition

/-!
# EdMemStreamWriter

A writer into the memory that a `std::vector` has reserved. The vector has no elements, so
only its capacity and its memory matter. What memory a `reserve` gets, if any, is an argument
of the call.
-/

namespace EdNio.Buffer
open MachineInt Memory Transition

/-- `mVecBuf` is the memory behind `data()`, its size the capacity. -/
structure EdMemStreamWriter where
  mVecBuf : Block
  mWritePos : Nat

namespace EdMemStreamWriter

variable (s : EdMemStreamWriter)

def new : EdMemStreamWriter where
  mVecBuf := ⟨0, fun _ => 0⟩
  mWritePos := 0

/-- The difference of two `size_t`. -/
def remain : Nat :=
  (toU64 (s.mVecBuf.size - s.mWritePos)).toNat

/-- The returned count. -/
def write (buf : List UInt8) : Option (Nat × EdMemStreamWriter) :=
  let wcnt := min buf.length s.remain
  (s.mVecBuf.store s.mWritePos wcnt buf).map (fun mVecBuf => (wcnt, { s with mVecBuf := mVecBuf }))

/-- A vector that grows moves its elements, of which it has none; one that cannot grow throws
and stays as it is. -/
def reserve (size : Nat) (mem : Option Block) : Option EdMemStreamWriter :=
  if size ≤ s.mVecBuf.size then some s
  else
    match mem with
    | none => some s
    | some b => if size ≤ b.size ∧ b.size < 2 ^ 63 then some { s with mVecBuf := b } else none

end EdMemStreamWriter

inductive WriterCall
  | reserve (size : Nat) (mem : Option Block)
  | write (buf : List UInt8)

/-- The writer with the bytes it has accepted. -/
structure WrittenStream where
  writer : EdMemStreamWriter
  accepted : List UInt8

namespace WrittenStream

variable (t : WrittenStream)

def step : WriterCall → Option WrittenStream
  | .reserve size mem => (t.writer.reserve size mem).map (fun w => { t with writer := w })
  | .write buf => (t.writer.write buf).map (fun (n, w) => ⟨w, t.accepted ++ buf.take n⟩)

/-- The accepted bytes are stored one after the other, and the capacity that they leave is
what remains. -/
structure Appended : Prop where
  stored : t.writer.mVecBuf.load 0 t.accepted.length = some t.accepted
  remain : t.writer.remain + t.accepted.length = t.writer.mVecBuf.size

/-- A `write` finds no room, or has no byte to write. -/
def AcceptsNothing : WriterCall → Prop
  | .reserve _ _ => True
  | .write buf => buf = [] ∨ t.writer.remain = 0

end WrittenStream

def memStream : System WrittenStream WriterCall where
  init t := t = ⟨.new, []⟩
  step := WrittenStream.step

namespace WrittenStream

variable {t u : WrittenStream} {c : WriterCall}

/-- The position is never moved, and all of the capacity always remains. -/
structure StreamInv (t : WrittenStream) : Prop where
  writePos : t.writer.mWritePos = 0
  size : t.writer.mVecBuf.size < 2 ^ 63

lemma StreamInv.remain (h : StreamInv t) : t.writer.remain = t.writer.mVecBuf.size := by
  have hsize := h.size
  rw [EdMemStreamWriter.remain, h.writePos, toU64]
  omega

lemma StreamInv.reserve (h : StreamInv t) {size : Nat} {mem : Option Block}
    (hs : t.step (.reserve size mem) = some u) : StreamInv u ∧ u.accepted = t.accepted := by
  obtain ⟨w, hw, rfl⟩ := Option.map_eq_some_iff.mp hs
  refine ⟨?_, rfl⟩
  unfold EdMemStreamWriter.reserve at hw
  split at hw
  · obtain rfl := Option.some.inj hw
    exact ⟨h.writePos, h.size⟩
  · cases mem with
    | none =>
      obtain rfl := Option.some.inj hw
      exact ⟨h.writePos, h.size⟩
    | some b =>
      rw [Option.ite_none_right_eq_some] at hw
      obtain ⟨hb, hw⟩ := hw
      obtain rfl := Option.some.inj hw
      exact ⟨h.writePos, hb.2⟩

lemma StreamInv.write (h : StreamInv t) {buf : List UInt8} (hs : t.step (.write buf) = some u) :
    StreamInv u ∧ u.writer.mVecBuf.size = t.writer.mVecBuf.size ∧
      u.accepted = t.accepted ++ buf.take (min buf.length t.writer.remain) := by
  obtain ⟨⟨n, w⟩, hw, rfl⟩ := Option.map_eq_some_iff.mp hs
  obtain ⟨b, hb, heq⟩ := Option.map_eq_some_iff.mp hw
  obtain ⟨rfl, rfl⟩ := Prod.mk.inj heq
  have hsize : b.size = t.writer.mVecBuf.size := by
    rw [Block.store, Option.ite_none_right_eq_some] at hb
    rw [← Option.some.inj hb.2]
  exact ⟨⟨h.writePos, hsize ▸ h.size⟩, hsize, rfl⟩

lemma StreamInv.accepts_nil (h : StreamInv t) (hnil : t.accepted = []) : t.Appended := by
  constructor
  · rw [hnil]
    exact Block.load_eq (by decide) (by decide) (by simp)
  · rw [hnil, h.remain]
    rfl

/-- Once a byte has been accepted, what remains should be less than the capacity. -/
lemma StreamInv.breaks (h : StreamInv t) (hne : t.accepted ≠ []) : ¬ t.Appended := by
  intro ha
  have hremain := ha.remain
  rw [h.remain] at hremain
  have := List.length_pos_iff.mpr hne
  omega

lemma StreamInv.keeps (h : StreamInv t ∧ t.accepted = []) (hok : t.AcceptsNothing c)
    (hs : t.step c = some u) : StreamInv u ∧ u.accepted = [] := by
  obtain ⟨hinv, hnil⟩ := h
  cases c with
  | reserve size mem =>
    obtain ⟨hu, hacc⟩ := hinv.reserve hs
    exact ⟨hu, hacc.trans hnil⟩
  | write buf =>
    obtain ⟨hu, -, hacc⟩ := hinv.write hs
    refine ⟨hu, ?_⟩
    rw [hacc, hnil, List.nil_append]
    rcases hok with rfl | hzero
    · exact List.take_nil
    · rw [hzero, Nat.min_zero, List.take_zero]

lemma StreamInv.loses (h : StreamInv t) (hok : ¬ t.AcceptsNothing c) (hs : t.step c = some u) :
    ¬ u.Appended := by
  cases c with
  | reserve size mem => exact absurd trivial hok
  | write buf =>
    obtain ⟨hbuf, hroom⟩ := not_or.mp hok
    obtain ⟨hu, -, hacc⟩ := h.write hs
    apply hu.breaks
    rw [hacc]
    apply List.append_ne_nil_of_right_ne_nil
    rw [Ne, List.take_eq_nil_iff, not_or]
    have := List.length_pos_iff.mpr hbuf
    exact ⟨by omega, hbuf⟩

/-- The writer appends as long as nothing is accepted: in every run whose writes all find no
room or have no bytes the law holds, and the first write that does accept a byte breaks it. -/
theorem appended_exact (h : memStream.Reaches AcceptsNothing t) :
    t.Appended ∧ ∀ c u, memStream.step t c = some u → (u.Appended ↔ t.AcceptsNothing c) := by
  refine h.exact (I := fun t => StreamInv t ∧ t.accepted = []) ?_ ?_ ?_ ?_
  · rintro t rfl
    exact ⟨⟨rfl, by decide⟩, rfl⟩
  · intro t c u hI hok hs
    exact StreamInv.keeps hI hok hs
  · intro t hI
    exact hI.1.accepts_nil hI.2
  · intro t c u hI hok hs
    exact hI.1.loses hok hs

/-- Four bytes are reserved. -/
theorem appended_exact_reserved : ∃ t, t.writer.mVecBuf.size = 4 ∧ t.Appended ∧
    ∀ c u, memStream.step t c = some u → (u.Appended ↔ t.AcceptsNothing c) := by
  have hs : memStream.step ⟨.new, []⟩ (.reserve 4 (some ⟨4, fun _ => 0⟩)) =
      some ⟨⟨⟨4, fun _ => 0⟩, 0⟩, []⟩ := rfl
  have hok : (⟨.new, []⟩ : WrittenStream).AcceptsNothing (.reserve 4 (some ⟨4, fun _ => 0⟩)) :=
    trivial
  exact ⟨_, rfl, appended_exact (.step (.init rfl) hok hs)⟩

/-- The second byte is written over the first. -/
theorem not_appended : ¬ ∀ t, memStream.Reachable t → t.Appended := by
  intro h
  obtain ⟨t, hr, hobs⟩ := System.exists_of_exec (M := memStream) rfl
    (l := [.reserve 4 (some ⟨4, fun _ => 0⟩), .write [1], .write [2]])
    (f := fun t => (t.writer.mVecBuf.load 0 2, t.accepted)) (b := (some [2, 0], [1, 2]))
    (by decide +kernel)
  obtain ⟨hload, hacc⟩ := Prod.mk.inj hobs
  have hstored := (h t hr).stored
  rw [hacc] at hstored
  exact absurd (hload.symm.trans hstored) (by decide)

end WrittenStream

end EdNio.Buffer
