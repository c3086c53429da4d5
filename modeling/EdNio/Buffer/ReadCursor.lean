import EdNio.Buffer.BufferCalls

/-!
# The read position of EdByteBuffer

It stays within the data as long as `consume` does not go past their end.
-/

namespace EdNio.Buffer
open MachineInt Transition

namespace EdByteBuffer

variable {s t : EdByteBuffer} {c : Call}

/-- `remain()` is the number of unread bytes, and no get ends after the data. -/
structure CursorInside (s : EdByteBuffer) : Prop where
  mReadPos : s.mReadPos ≤ s.mSize
  remain : s.remain = s.unread.length
  gets : ∀ c t, c.gets = true → s.call c = some t → t.mReadPos ≤ s.mSize

/-- `consume` takes no more than is left, or starts at the first byte. -/
def consumesRest (s : EdByteBuffer) : Call → Bool
  | .consume len => len.toNat ≤ s.mSize - s.mReadPos ∨ s.mReadPos = 0
  | _ => true

/-- The read position of a buffer of any size. -/
structure Cursor (s : EdByteBuffer) : Prop where
  le : s.mReadPos ≤ s.mSize
  lt : s.mSize < 2 ^ 63

namespace Cursor

lemma inside (h : Cursor s) : CursorInside s := by
  refine ⟨h.le, ?_, fun c t hc ht => ?_⟩
  · rw [remain_eq h.le h.lt, length_unread]
  · exact call_inside hc h.le h.lt ht

lemma gets (h : Cursor s) (hc : c.gets = true) (ht : s.call c = some t) : Cursor t := by
  have hpos := call_inside hc h.le h.lt ht
  have hsize := (call_same hc ht).mSize
  rw [← hsize] at hpos
  exact ⟨hpos, hsize ▸ h.lt⟩

lemma around (h : Cursor s) (junk : Nat → UInt8) : Cursor (s.around junk) := ⟨h.le, h.lt⟩

lemma new (junk : Nat → UInt8) : Cursor (.new junk) :=
  ⟨Nat.le_refl 0, Nat.two_pow_pos 63⟩

lemma puts (h : Cursor s) (hc : c.puts = true)
    (hlen : s.mSize + (c.bytes s.mOrder).length < 2 ^ 63) (ht : s.call c = some t) :
    Cursor t := by
  rw [call_puts hc] at ht
  obtain ⟨⟨ret, u⟩, hu, rfl⟩ := Option.map_eq_some_iff.mp ht
  obtain ⟨hsize, hpos⟩ := put_eq_some hu
  have hle := h.le
  rw [toSize] at hsize
  exact ⟨show u.mReadPos ≤ u.mSize by omega, show u.mSize < 2 ^ 63 by omega⟩

lemma reserveAny (h : Cursor s) (size : Nat) (ok : Bool) : Cursor (s.reserveAny size ok) := by
  unfold EdByteBuffer.reserveAny
  split
  · exact ⟨h.le, h.lt⟩
  · exact ⟨h.le, h.lt⟩

/-- `consume` is the only call that can leave the data. -/
lemma consume_iff (h : Cursor s) (len : UInt64) :
    (s.consume len).mReadPos ≤ (s.consume len).mSize ↔
      s.consumesRest (.consume len) = true := by
  have hle := h.le
  have hlt := h.lt
  have hmin : min len.toNat s.mSize ≤ s.mSize := Nat.min_le_right _ _
  have hpos : (s.consume len).mReadPos = s.mReadPos + min len.toNat s.mSize := by
    show toSize (s.mReadPos + min len.toNat s.mSize) = _
    rw [toSize]
    omega
  have hsize : (s.consume len).mSize = s.mSize := rfl
  rw [hpos, hsize, consumesRest, decide_eq_true_iff]
  omega

lemma call (h : Cursor s) (hcan : s.canCall c = true) (hok : s.consumesRest c = true)
    (ht : s.call c = some t) : Cursor t := by
  cases c with
  | put | put8 | put16 | put32 | put64 => exact h.puts rfl (of_decide_eq_true hcan) ht
  | get | get8 | get16 | get32 | get64 | getNum | getObj =>
    exact h.gets rfl ht
  | consume len =>
    cases ht
    exact ⟨(h.consume_iff len).mpr hok, h.lt⟩
  | rewind =>
    cases ht
    exact ⟨Nat.zero_le _, h.lt⟩
  | clear | release =>
    cases ht
    exact ⟨Nat.le_refl 0, Nat.two_pow_pos 63⟩
  | takeBuffer ptr datasize cap =>
    cases ht
    obtain ⟨hdata, -, hlt⟩ := of_decide_eq_true hcan
    exact ⟨Nat.zero_le _, Nat.lt_of_le_of_lt hdata hlt⟩
  | reserve size ok =>
    cases ht
    exact h.reserveAny size.toNat ok
  | enlarge size ok =>
    cases ht
    exact h.reserveAny _ ok
  | setOrder order =>
    cases ht
    exact ⟨h.le, h.lt⟩

lemma not_inside (h : Cursor s) (hok : ¬ s.consumesRest c = true) (ht : s.call c = some t) :
    ¬ CursorInside t := by
  cases c with
  | consume len =>
    cases ht
    intro hin
    exact hok ((h.consume_iff len).mp hin.mReadPos)
  | _ => exact absurd rfl hok

end Cursor

end EdByteBuffer

open EdByteBuffer

/-- Each `consume` of the run meets the condition. -/
def consumesInside (s : Nat → EdByteBuffer) : BufferAction → Bool
  | .call i c _ => (s i).consumesRest c
  | .move _ _ => true

variable {s t : Nat → EdByteBuffer} {a : BufferAction}

lemma moved_all {P : EdByteBuffer → Prop} (h : ∀ i, P (s i)) (hnew : ∀ junk, P (.new junk))
    (i j : Nat) : ∀ k, P (moved s i j k) := by
  intro k
  unfold moved
  split
  · exact h k
  · rw [Function.update_apply, Function.update_apply]
    split
    · exact hnew _
    split
    · exact h j
    · exact h k

lemma step_cursor (h : ∀ i, Cursor (s i)) (hok : consumesInside s a = true)
    (hs : buffers.step s a = some t) : ∀ i, Cursor (t i) := by
  cases a with
  | call i c junk =>
    simp only [buffers, Option.ite_none_right_eq_some] at hs
    obtain ⟨hcan, hs⟩ := hs
    obtain ⟨u, hu, rfl⟩ := Option.map_eq_some_iff.mp hs
    have hcur : Cursor u := ((h i).around junk).call hcan hok hu
    intro k
    rw [Function.update_apply]
    split
    · exact hcur
    · exact h k
  | move i j =>
    cases hs
    exact moved_all h Cursor.new i j

lemma not_cursorInside (h : ∀ i, Cursor (s i)) (hok : ¬ consumesInside s a = true)
    (hs : buffers.step s a = some t) : ¬ ∀ i, CursorInside (t i) := by
  cases a with
  | call i c junk =>
    simp only [buffers, Option.ite_none_right_eq_some] at hs
    obtain ⟨-, hs⟩ := hs
    obtain ⟨u, hu, rfl⟩ := Option.map_eq_some_iff.mp hs
    intro hin
    have hcur := hin i
    rw [Function.update_self] at hcur
    exact ((h i).around junk).not_inside hok hu hcur
  | move i j => exact absurd rfl hok

/-- A run in which each `consume` meets the condition, and the first that does not. -/
theorem cursor_inside (h : buffers.Reaches (fun s a => consumesInside s a = true) s) :
    (∀ i, CursorInside (s i)) ∧ ∀ a t, buffers.step s a = some t →
      ((∀ i, CursorInside (t i)) ↔ consumesInside s a = true) := by
  apply h.exact (I := fun s => ∀ i, Cursor (s i)) (P := fun s => ∀ i, CursorInside (s i))
  · intro s h0 i
    obtain ⟨junk, hnew⟩ := h0 i
    rw [hnew]
    exact .new junk
  · intro s a t hI hok hs
    exact step_cursor hI hok hs
  · intro s hI i
    exact (hI i).inside
  · intro s a t hI hok hs
    exact not_cursorInside hI hok hs

/-- Puts, gets and a move, and `consume` of more than is left in a buffer that was not read. -/
theorem cursor_inside_movedRun : ∃ s,
    buffers.Reaches (fun s a => consumesInside s a = true) s ∧
      ((s 0).mReadPos, (s 0).mSize, (s 1).mReadPos, (s 1).mSize) = (0, 0, 6, 6) ∧
      ∀ i, CursorInside (s i) := by
  obtain ⟨s, hr, hs⟩ := System.exists_of_exec_restrict (M := buffers) (T := consumesInside)
    (s := fun _ => .new (fun _ => 0))
    (f := fun s => ((s 0).mReadPos, (s 0).mSize, (s 1).mReadPos, (s 1).mSize)) (b := (0, 0, 6, 6))
    (fun _ => ⟨_, rfl⟩)
    (l := [.call 0 (.put [1, 2, 3, 4]) (fun _ => 7), .call 0 .get16 (fun _ => 7),
      .call 0 (.consume 2) (fun _ => 7), .call 0 (.put16 5) (fun _ => 7), .move 1 0,
      .call 1 .rewind (fun _ => 7), .call 1 (.consume 100) (fun _ => 7)])
    (by decide +kernel)
  exact ⟨s, hr, hs, (cursor_inside hr).1⟩

/-- Four bytes and two calls of `consume` with three. -/
theorem not_cursor_inside : ¬ ∀ s, buffers.Reachable s → ∀ i, CursorInside (s i) := by
  intro h
  obtain ⟨s, hr, hs⟩ := System.exists_of_exec (M := buffers) (s := fun _ => .new (fun _ => 0))
    (f := fun s => ((s 0).mReadPos, (s 0).mSize)) (b := (6, 4)) (fun _ => ⟨_, rfl⟩)
    (l := [.call 0 (.put [1, 2, 3, 4]) (fun _ => 7), .call 0 (.consume 3) (fun _ => 7),
      .call 0 (.consume 3) (fun _ => 7)])
    (by decide +kernel)
  have hle := (h s hr 0).mReadPos
  rw [Prod.mk.injEq] at hs
  rw [hs.1, hs.2] at hle
  exact absurd hle (by decide)

end EdNio.Buffer
