import EdNio.Net.SmartSocket

/-!
# What a failed `sendPacket` leaves behind

`sendPacket` writes before it allocates the buffer for the rest. When `malloc` fails after a
short write, it returns `SEND_FAIL` although the kernel has the first bytes of the packet and
`mPendingSize` and `mPendingWriteCnt` are those of the tail it could not copy.
-/

namespace EdNio.Net

namespace EdSmartSocket

/-- No byte more is with the kernel; the pending packet and the interest set are the same. -/
structure Unsent (s t : EdSmartSocket) : Prop where
  wire : t.wire = s.wire
  pending : t.mPendingBuf = s.mPendingBuf
  size : t.mPendingSize = s.mPendingSize
  written : t.mPendingWriteCnt = s.mPendingWriteCnt
  interest : t.interest = s.interest

lemma Unsent.refl (s : EdSmartSocket) : Unsent s s :=
  ⟨rfl, rfl, rfl, rfl, rfl⟩

/-- What `SEND_FAIL` promises for a packet that is copied. -/
def FailsClean (s : EdSmartSocket) (buf : List UInt8) (mem : Bool) (r : WriteResult) : Prop :=
  (s.sendPacket buf false mem r).1 = .SEND_FAIL → Unsent s (s.sendPacket buf false mem r).2

/-- The first write is short, so that `malloc` is called, and `malloc` fails. -/
def TailLost (s : EdSmartSocket) (buf : List UInt8) (mem : Bool) (r : WriteResult) : Prop :=
  s.mPendingBuf = none ∧ r ≠ .error ∧ (write buf r).1 ≠ buf.length ∧ mem = false

/-- `mPendingSize` and `mPendingWriteCnt` are those of the whole packet already, and the kernel
takes nothing of it. -/
def NothingToUndo (s : EdSmartSocket) (buf : List UInt8) (r : WriteResult) : Prop :=
  r = .again ∧ s.mPendingSize = buf.length ∧ s.mPendingWriteCnt = 0

variable {s : EdSmartSocket} {buf : List UInt8} {mem : Bool} {r : WriteResult}

lemma sendPacket_pending (hs : s.mPendingBuf ≠ none) (takebuffer mem : Bool) :
    s.sendPacket buf takebuffer mem r = (.SEND_FAIL, s) := by
  rw [sendPacket, if_pos (Option.isSome_iff_ne_none.mpr hs)]

/-- Only an error other than `EAGAIN` is taken for a failure of the write. -/
lemma sendPacket_error (hs : s.mPendingBuf = none) (takebuffer mem : Bool) :
    s.sendPacket buf takebuffer mem .error = (.SEND_FAIL, s) := by
  have hne : (-1 : Int) ≠ buf.length := by omega
  have hsame : { s with wire := s.wire ++ [] } = s := by rw [List.append_nil]
  simp only [sendPacket, hs, Option.isSome_none, Bool.false_eq_true, if_false, write, hne,
    gt_iff_lt, Int.reduceNeg, Int.reduceLT, reduceCtorEq, or_self]
  rw [← hs, hsame]

/-- A packet whose tail could be copied, or need not be, fails only with nothing sent. -/
lemma failsClean_of_not_tailLost (h : ¬ TailLost s buf mem r) : FailsClean s buf mem r := by
  intro hfail
  by_cases hs : s.mPendingBuf = none
  · by_cases hr : r = .error
    · subst hr
      rw [sendPacket_error hs]
      exact Unsent.refl s
    · by_cases hw : (write buf r).1 = buf.length
      · rw [sendPacket_full hs hw] at hfail
        cases hfail
      · have hmem : mem = true := by
          by_cases hmem : mem = false
          · exact absurd ⟨hs, hr, hw, hmem⟩ h
          · simpa using hmem
        rw [sendPacket_short hs hr hw, if_pos rfl, if_pos hmem] at hfail
        cases hfail
  · rw [sendPacket_pending hs]
    exact Unsent.refl s

lemma sendPacket_tailLost (h : TailLost s buf mem r) :
    s.sendPacket buf false mem r = (.SEND_FAIL, { s with
      wire := s.wire ++ buf.take (firstTaken buf r)
      mPendingSize := buf.length - firstTaken buf r
      mPendingWriteCnt := 0 }) := by
  obtain ⟨hs, hr, hw, hmem⟩ := h
  rw [sendPacket_short hs hr hw, if_pos rfl, if_neg (by simp [hmem])]

lemma TailLost.failsClean_iff (h : TailLost s buf mem r) :
    FailsClean s buf mem r ↔ NothingToUndo s buf r := by
  have htaken : 0 < firstTaken buf r ↔ r ≠ .again :=
    (short_write h.2.1 h.2.2.1).2.2.2.2.2
  have hempty : buf = [] → firstTaken buf r = 0 := (short_write h.2.1 h.2.2.1).2.2.2.2.1
  rw [FailsClean, sendPacket_tailLost h]
  constructor
  · intro hc
    have hu := hc rfl
    have htake : buf.take (firstTaken buf r) = [] := by simpa using hu.wire
    have hzero : firstTaken buf r = 0 := by
      rcases List.take_eq_nil_iff.mp htake with hnil | hnil
      · exact hnil
      · exact hempty hnil
    refine ⟨?_, ?_, ?_⟩
    · by_cases hr : r = .again
      · exact hr
      · exact absurd hzero (Nat.ne_of_gt (htaken.mpr hr))
    · rw [← hu.size, hzero, Nat.sub_zero]
    · exact hu.written.symm
  · intro hn _
    have hzero : firstTaken buf r = 0 := Nat.eq_zero_of_not_pos fun hpos =>
      htaken.mp hpos hn.1
    constructor
    · simp [hzero]
    · rfl
    · simp [hzero, hn.2.1]
    · exact hn.2.2.symm
    · rfl

/-- `SEND_FAIL` means that nothing was sent, in every state and for every packet, unless the
tail of a short write is lost; then it does so only where there was nothing to undo. -/
theorem sendPacket_fails_clean_iff (s : EdSmartSocket) (buf : List UInt8) (mem : Bool)
    (r : WriteResult) :
    FailsClean s buf mem r ↔ ¬ TailLost s buf mem r ∨ NothingToUndo s buf r := by
  by_cases h : TailLost s buf mem r
  · rw [h.failsClean_iff]
    exact ⟨.inr, fun hn => hn.resolve_left (not_not_intro h)⟩
  · exact ⟨fun _ => .inl h, fun _ => failsClean_of_not_tailLost h⟩

/-- Two bytes of three are sent and `malloc` fails: the caller is told that the packet failed. -/
theorem not_sendPacket_fails_clean :
    ¬ ∀ (s : EdSmartSocket) (buf : List UInt8) (mem : Bool) (r : WriteResult),
      FailsClean s buf mem r := by
  intro h
  have hu := h idleSocket [1, 2, 3] false (.took 1) rfl
  exact absurd hu.wire (by decide)

end EdSmartSocket

end EdNio.Net
