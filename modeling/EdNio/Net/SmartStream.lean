import EdNio.Net.SmartSocket
import Mathlib.Data.List.Induction

/-!
# The byte stream of a smart socket

A connected `EdSmartSocket` in normal mode, used without `takebuffer`. The listener of
`NETEV_WRITABLE` is called last in `procNormalOnWrite`, so what it sends comes next.
-/

namespace EdNio.Net

namespace EdSmartSocket

variable (s : EdSmartSocket)

def isWritable : Bool := s.mPendingBuf.isNone

/-- The unsent tail. -/
def tail : List UInt8 :=
  match s.mPendingBuf with
  | none => []
  | some b => (b.drop s.mPendingWriteCnt).take (s.mPendingSize - s.mPendingWriteCnt)

end EdSmartSocket

inductive StreamOp
  | sendPacket (buf : List UInt8) (r : WriteResult)
  | procNormalOnWrite (r : WriteResult)
deriving DecidableEq, Repr

/-- The socket, and the bytes of the packets answered with `SEND_OK` or `SEND_PENDING`. -/
structure Stream where
  sock : EdSmartSocket
  accepted : List UInt8
deriving DecidableEq, Repr

namespace Stream

variable (x : Stream)

def step : StreamOp → Stream
  | .sendPacket buf r =>
    let (ret, t) := x.sock.sendPacket buf false true r
    ⟨t, if ret = .SEND_FAIL then x.accepted else x.accepted ++ buf⟩
  | .procNormalOnWrite r => ⟨x.sock.procNormalOnWrite r, x.accepted⟩

def run (ops : List StreamOp) : Stream := ops.foldl step x

def connected : Stream := ⟨idleSocket, []⟩

/-- The bytes taken by the kernel and the tail are the accepted packets, and the socket is not
writable exactly while there is a tail. -/
structure Holds : Prop where
  bytes : x.sock.wire ++ x.sock.tail = x.accepted
  writable : x.sock.isWritable = false ↔ x.sock.tail ≠ []

end Stream

/-- With nothing pending, no `write` of an empty packet ends with `EAGAIN`. -/
def NoEmptyAgain (ops : List StreamOp) : Prop :=
  ∀ before after, ops = before ++ .sendPacket [] .again :: after →
    (Stream.connected.run before).sock.mPendingBuf ≠ none

namespace EdSmartSocket

variable {s : EdSmartSocket}

/-- A write of the tail takes it up to `j`; the buffer is released when that is its end. -/
lemma procNormalOnWrite_spec {b : List UInt8} (hb : s.mPendingBuf = some b)
    (hsize : s.mPendingSize = b.length) (hcnt : s.mPendingWriteCnt ≤ b.length) (r : WriteResult) :
    ∃ j, s.mPendingWriteCnt ≤ j ∧ j ≤ b.length ∧
      (s.procNormalOnWrite r).wire = s.wire ++ (b.drop s.mPendingWriteCnt).take
        (j - s.mPendingWriteCnt) ∧
      ((j = b.length ∧ (s.procNormalOnWrite r).mPendingBuf = none) ∨
        ((s.procNormalOnWrite r).mPendingBuf = some b ∧
          (s.procNormalOnWrite r).mPendingSize = b.length ∧
          (s.procNormalOnWrite r).mPendingWriteCnt = j ∧
          (j = b.length → s.mPendingWriteCnt = b.length))) := by
  have hslice : (b.drop s.mPendingWriteCnt).take (s.mPendingSize - s.mPendingWriteCnt) =
      b.drop s.mPendingWriteCnt :=
    List.take_of_length_le (Nat.le_of_eq (by rw [List.length_drop, hsize]))
  have hnone : ∀ r : WriteResult, write (b.drop s.mPendingWriteCnt) r = (-1, []) →
      s.procNormalOnWrite r = { s with wire := s.wire ++ [] } := by
    intro r hr
    simp only [procNormalOnWrite, hb, hslice, hr]
    rfl
  cases r with
  | again | error =>
    refine ⟨s.mPendingWriteCnt, Nat.le_refl _, hcnt, ?_, .inr ?_⟩
    · rw [hnone _ rfl, Nat.sub_self, List.take_zero]
    · rw [hnone _ rfl]
      exact ⟨hb, hsize, rfl, id⟩
  | took k =>
    generalize hn : ((b.drop s.mPendingWriteCnt).take (k + 1)).length = n
    have hle : s.mPendingWriteCnt + n ≤ b.length ∧
        (n = 0 → s.mPendingWriteCnt = b.length) := by
      rw [List.length_take, List.length_drop] at hn
      omega
    have htake : (b.drop s.mPendingWriteCnt).take (k + 1) = (b.drop s.mPendingWriteCnt).take n := by
      rw [← hn, List.length_take, ← List.take_eq_take_min]
    refine ⟨s.mPendingWriteCnt + n, Nat.le_add_right _ _, hle.1, ?_, ?_⟩
    · rw [Nat.add_sub_cancel_left, ← htake]
      simp only [procNormalOnWrite, hb, hslice, write]
      split
      · split <;> rfl
      · rfl
    · simp only [procNormalOnWrite, hb, hslice, write, hn, gt_iff_lt, Int.natCast_pos,
        Int.toNat_natCast]
      by_cases hpos : 0 < n
      · rw [if_pos hpos]
        by_cases hend : s.mPendingWriteCnt + n = s.mPendingSize
        · rw [if_pos hend]
          exact .inl ⟨hend.trans hsize, rfl⟩
        · rw [if_neg hend]
          exact .inr ⟨rfl, hsize, rfl, fun hj => absurd (hj.trans hsize.symm) hend⟩
      · rw [if_neg hpos]
        have hzero := Nat.eq_zero_of_not_pos hpos
        exact .inr ⟨rfl, hsize, by rw [hzero]; rfl, fun _ => hle.2 hzero⟩

lemma procNormalOnWrite_idle (hb : s.mPendingBuf = none) (r : WriteResult) :
    s.procNormalOnWrite r = { s.changeEvent false with
      raised := s.raised ++ [.NETEV_WRITABLE] } := by
  simp [procNormalOnWrite, hb, changeEvent]

end EdSmartSocket

namespace Stream

variable {x : Stream}

lemma run_concat (ops : List StreamOp) (op : StreamOp) :
    x.run (ops ++ [op]) = (x.run ops).step op := by
  simp [run]

/-- A pending buffer ends at `mPendingSize`. -/
structure Inv (x : Stream) : Prop where
  bytes : x.sock.wire ++ x.sock.tail = x.accepted
  size : ∀ b, x.sock.mPendingBuf = some b →
    x.sock.mPendingSize = b.length ∧ x.sock.mPendingWriteCnt ≤ b.length

/-- The packet is empty, its write ends with `EAGAIN`, and nothing is pending. -/
def KeepsEmpty (x : Stream) (op : StreamOp) : Prop :=
  op = .sendPacket [] .again ∧ x.sock.mPendingBuf = none

lemma tail_of_none (hp : x.sock.mPendingBuf = none) : x.sock.tail = [] := by
  rw [EdSmartSocket.tail, hp]

lemma tail_of_some {b : List UInt8} (hb : x.sock.mPendingBuf = some b)
    (hsize : x.sock.mPendingSize = b.length) :
    x.sock.tail = b.drop x.sock.mPendingWriteCnt := by
  rw [EdSmartSocket.tail, hb, hsize]
  exact List.take_of_length_le (Nat.le_of_eq List.length_drop)

lemma Inv.holds_iff (h : x.Inv) : x.Holds ↔ x.sock.mPendingBuf.isSome → x.sock.tail ≠ [] := by
  have hw : x.sock.isWritable = false ↔ x.sock.mPendingBuf.isSome := by
    cases hp : x.sock.mPendingBuf <;> simp [EdSmartSocket.isWritable, hp]
  constructor
  · intro hx hp
    exact hx.writable.mp (hw.mpr hp)
  · intro hx
    refine ⟨h.bytes, fun hf => hx (hw.mp hf), fun hne => hw.mpr ?_⟩
    cases hp : x.sock.mPendingBuf with
    | none => exact absurd (tail_of_none hp) hne
    | some b => rfl

lemma of_pending {b : List UInt8} (hb : x.sock.mPendingBuf = some b)
    (hsize : x.sock.mPendingSize = b.length) (hcnt : x.sock.mPendingWriteCnt ≤ b.length)
    (hbytes : x.sock.wire ++ b.drop x.sock.mPendingWriteCnt = x.accepted) :
    x.Inv ∧ (x.Holds ↔ x.sock.mPendingWriteCnt < b.length) := by
  have hinv : x.Inv := by
    refine ⟨by rw [tail_of_some hb hsize]; exact hbytes, fun c hc => ?_⟩
    rw [hb] at hc
    cases hc
    exact ⟨hsize, hcnt⟩
  refine ⟨hinv, hinv.holds_iff.trans ?_⟩
  rw [hb, tail_of_some hb hsize, ne_eq, List.drop_eq_nil_iff, Nat.not_le]
  simp

lemma of_idle (hp : x.sock.mPendingBuf = none) (hbytes : x.sock.wire = x.accepted) :
    x.Inv ∧ x.Holds := by
  have hinv : x.Inv := by
    refine ⟨by rw [tail_of_none hp, List.append_nil]; exact hbytes, fun c hc => ?_⟩
    rw [hp] at hc
    cases hc
  refine ⟨hinv, hinv.holds_iff.mpr (fun hs => ?_)⟩
  rw [hp] at hs
  cases hs

lemma Inv.sendPacket (h : x.Inv) (buf : List UInt8) (r : WriteResult) :
    (x.step (.sendPacket buf r)).Inv ∧ (x.Holds →
      ((x.step (.sendPacket buf r)).Holds ↔ ¬ x.KeepsEmpty (.sendPacket buf r))) := by
  cases hp : x.sock.mPendingBuf with
  | some b =>
    have hstep : x.step (.sendPacket buf r) = x := by
      simp [step, EdSmartSocket.sendPacket, hp]
    rw [hstep]
    exact ⟨h, fun hx => ⟨fun _ hk => by simp [KeepsEmpty, hp] at hk, fun _ => hx⟩⟩
  | none =>
    have hwire : x.sock.wire = x.accepted := by
      rw [← h.bytes, tail_of_none hp, List.append_nil]
    by_cases hr : r = .error
    · have hne : (-1 : Int) ≠ buf.length := by omega
      have hstep : x.step (.sendPacket buf r) =
          ⟨{ x.sock with wire := x.sock.wire ++ [] }, x.accepted⟩ := by
        simp [step, EdSmartSocket.sendPacket, hp, hr, write, hne]
      rw [hstep, List.append_nil]
      obtain ⟨hi, hh⟩ := of_idle (x := ⟨x.sock, x.accepted⟩) hp hwire
      exact ⟨hi, fun _ => ⟨fun _ hk => by simp [KeepsEmpty, hr] at hk, fun _ => hh⟩⟩
    · by_cases hw : (write buf r).1 = buf.length
      · rw [step, EdSmartSocket.sendPacket_full hp hw]
        obtain ⟨hi, hh⟩ := of_idle (x := ⟨{ x.sock with wire := x.sock.wire ++ buf },
          x.accepted ++ buf⟩) hp (by rw [hwire])
        refine ⟨hi, fun _ => ⟨fun _ hk => ?_, fun _ => hh⟩⟩
        obtain ⟨hop, -⟩ := hk
        cases hop
        simp [write] at hw
      · rw [step, EdSmartSocket.sendPacket_short hp hr hw]
        obtain ⟨-, -, -, hlt, hzero, -⟩ := EdSmartSocket.short_write hr hw
        obtain ⟨hi, hh⟩ := of_pending (x := ⟨{ x.sock with
            wire := x.sock.wire ++ buf.take (firstTaken buf r)
            mPendingSize := buf.length - firstTaken buf r
            mPendingWriteCnt := 0
            mPendingBuf := some (buf.drop (firstTaken buf r)) }.changeEvent true,
          x.accepted ++ buf⟩) rfl (List.length_drop).symm (Nat.zero_le _) (by
            simp [EdSmartSocket.changeEvent, hwire])
        refine ⟨hi, fun _ => hh.trans ?_⟩
        rw [List.length_drop]
        constructor
        · rintro hpos ⟨hop, -⟩
          cases hop
          simp at hpos
        · intro hk
          by_cases hnil : buf = []
          · subst hnil
            cases r with
            | error => exact absurd rfl hr
            | again => exact absurd ⟨rfl, hp⟩ hk
            | took k => simp [write] at hw
          · exact Nat.sub_pos_of_lt (hlt hnil)

lemma Inv.procNormalOnWrite (h : x.Inv) (r : WriteResult) :
    (x.step (.procNormalOnWrite r)).Inv ∧
      (x.Holds → (x.step (.procNormalOnWrite r)).Holds) := by
  cases hb : x.sock.mPendingBuf with
  | none =>
    have hwire : x.sock.wire = x.accepted := by
      rw [← h.bytes, tail_of_none hb, List.append_nil]
    rw [step, EdSmartSocket.procNormalOnWrite_idle hb]
    obtain ⟨hi, hh⟩ := of_idle (x := ⟨{ x.sock.changeEvent false with
      raised := x.sock.raised ++ [.NETEV_WRITABLE] }, x.accepted⟩) hb hwire
    exact ⟨hi, fun _ => hh⟩
  | some b =>
    obtain ⟨hsize, hcnt⟩ := h.size b hb
    have hbytes : x.sock.wire ++ b.drop x.sock.mPendingWriteCnt = x.accepted := by
      rw [← tail_of_some hb hsize]
      exact h.bytes
    obtain ⟨j, hle, hj, hwire, hend⟩ := EdSmartSocket.procNormalOnWrite_spec hb hsize hcnt r
    have hbytes' : (x.sock.procNormalOnWrite r).wire ++ b.drop j = x.accepted := by
      have hdrop : b.drop j = (b.drop x.sock.mPendingWriteCnt).drop
          (j - x.sock.mPendingWriteCnt) := by
        rw [List.drop_drop, Nat.add_sub_cancel' hle]
      rw [hwire, hdrop, List.append_assoc, List.take_append_drop]
      exact hbytes
    rcases hend with ⟨rfl, hnone⟩ | ⟨hsome, hsize', hcnt', hlast⟩
    · rw [List.drop_length, List.append_nil] at hbytes'
      obtain ⟨hi, hh⟩ := of_idle (x := x.step (.procNormalOnWrite r)) hnone hbytes'
      exact ⟨hi, fun _ => hh⟩
    · obtain ⟨hi, hh⟩ := of_pending (x := x.step (.procNormalOnWrite r)) hsome hsize'
        (Nat.le_trans (Nat.le_of_eq hcnt') hj) (by
          show (x.sock.procNormalOnWrite r).wire ++
            b.drop (x.sock.procNormalOnWrite r).mPendingWriteCnt = x.accepted
          rw [hcnt']
          exact hbytes')
      refine ⟨hi, fun hx => hh.mpr ?_⟩
      have hlt := (of_pending hb hsize hcnt hbytes).2.mp hx
      show (x.sock.procNormalOnWrite r).mPendingWriteCnt < b.length
      rw [hcnt']
      exact Nat.lt_of_le_of_ne hj (fun heq => Nat.ne_of_lt hlt (hlast heq))

/-- Exactly the steps that keep an empty packet end the property. -/
lemma Inv.step (h : x.Inv) (op : StreamOp) :
    (x.step op).Inv ∧ (x.Holds → ((x.step op).Holds ↔ ¬ x.KeepsEmpty op)) := by
  cases op with
  | sendPacket buf r => exact h.sendPacket buf r
  | procNormalOnWrite r =>
    obtain ⟨hi, hh⟩ := h.procNormalOnWrite r
    exact ⟨hi, fun hx => ⟨fun _ hk => by simp [KeepsEmpty] at hk, fun _ => hh hx⟩⟩

lemma connected_holds : connected.Inv ∧ connected.Holds := of_idle rfl rfl

lemma run_inv (ops : List StreamOp) : (connected.run ops).Inv := by
  induction ops using List.reverseRecOn with
  | nil => exact connected_holds.1
  | append_singleton ops op ih =>
    rw [run_concat]
    exact (ih.step op).1

end Stream

/-- The property holds all through a run if and only if no empty packet is kept for `EAGAIN`. -/
theorem stream_holds_iff (ops : List StreamOp) :
    (∀ before after, ops = before ++ after → (Stream.connected.run before).Holds) ↔
      NoEmptyAgain ops := by
  constructor
  · rintro h before after rfl hp
    have hx := h before _ rfl
    have hy := h (before ++ [.sendPacket [] .again]) after (by simp)
    rw [Stream.run_concat] at hy
    exact ((Stream.run_inv before).step _).2 hx |>.mp hy ⟨rfl, hp⟩
  · intro h before after heq
    induction before using List.reverseRecOn generalizing after with
    | nil => exact Stream.connected_holds.2
    | append_singleton before op ih =>
      rw [List.append_assoc] at heq
      rw [Stream.run_concat]
      refine (((Stream.run_inv before).step op).2 (ih _ heq)).mpr ?_
      rintro ⟨rfl, hp⟩
      exact h before after heq hp

/-- A packet of no bytes whose write ends with `EAGAIN` is pending for ever. -/
theorem not_stream_holds : ¬ ∀ ops, (Stream.connected.run ops).Holds := by
  intro h
  have hw := (h [.sendPacket [] .again, .procNormalOnWrite (.took 0)]).writable.mp rfl
  exact hw rfl

end EdNio.Net
