import EdNio.Net.EdSocket

/-!
# Sending a packet in normal mode

`EdSmartSocket` on a connected socket in `SOCKET_NORMAL` mode: `sendPacket` writes what
the kernel takes and keeps the rest for `procNormalOnWrite`, which runs when the socket
is writable and watched for it. `wire` and `raised` record what the kernel took and the
events given to `mOnLis`.
-/

namespace EdNio.Net

inductive NetEvent
  | NETEV_DISCONNECTED
  | NETEV_CONNECTED
  | NETEV_READABLE
  | NETEV_WRITABLE
deriving DecidableEq, Repr

inductive SendResult
  | SEND_FAIL
  | SEND_OK
  | SEND_PENDING
deriving DecidableEq, Repr

structure EdSmartSocket where
  mPendingBuf : Option (List UInt8)
  mPendingSize : Nat
  mPendingWriteCnt : Nat
  interest : Interest
  wire : List UInt8
  raised : List NetEvent
deriving DecidableEq, Repr

namespace EdSmartSocket

variable (s : EdSmartSocket)

def changeEvent (evtWrite : Bool) : EdSmartSocket :=
  { s with interest := ⟨true, evtWrite, true⟩ }

/-- `mem` is false when `malloc` fails. -/
def sendPacket (buf : List UInt8) (takebuffer mem : Bool) (r : WriteResult) :
    SendResult × EdSmartSocket :=
  if s.mPendingBuf.isSome then (.SEND_FAIL, s)
  else
    let (wret, taken) := write buf r
    let s := { s with wire := s.wire ++ taken }
    if wret = buf.length then (.SEND_OK, s)
    else if wret > 0 ∨ r = .again then
      let wret := wret.toNat
      if takebuffer = false then
        let s := { s with mPendingSize := buf.length - wret, mPendingWriteCnt := 0 }
        if mem then
          (.SEND_PENDING, { s with mPendingBuf := some (buf.drop wret) }.changeEvent true)
        else (.SEND_FAIL, s)
      else
        let s := { s with
          mPendingSize := buf.length
          mPendingBuf := some buf
          mPendingWriteCnt := buf.length - wret }
        (.SEND_PENDING, s.changeEvent true)
    else (.SEND_FAIL, s)

def procNormalOnWrite (r : WriteResult) : EdSmartSocket :=
  match s.mPendingBuf with
  | some b =>
    let (wret, taken) :=
      write ((b.drop s.mPendingWriteCnt).take (s.mPendingSize - s.mPendingWriteCnt)) r
    let s := { s with wire := s.wire ++ taken }
    if wret > 0 then
      let s := { s with mPendingWriteCnt := s.mPendingWriteCnt + wret.toNat }
      if s.mPendingWriteCnt = s.mPendingSize then
        let s := s.changeEvent false
        { s with
          mPendingSize := 0
          mPendingWriteCnt := 0
          mPendingBuf := none
          raised := s.raised ++ [.NETEV_WRITABLE] }
      else s
    else s
  | none =>
    let s := s.changeEvent false
    { s with raised := s.raised ++ [.NETEV_WRITABLE] }

/-- The socket is writable; epoll reports it only while it watches for it. -/
def OnEventWrite (r : WriteResult) : EdSmartSocket :=
  if s.interest.evtWrite then s.procNormalOnWrite r else s

/-- A sequence of writable events with the results of their writes. -/
def pump (rs : List WriteResult) : EdSmartSocket :=
  rs.foldl OnEventWrite s

end EdSmartSocket

/-- Writable events in which the kernel has room. -/
def room (rs : List WriteResult) : Nat :=
  rs.countP (fun r => r ≠ .again)

/-- What a packet sent on an idle socket should lead to, whatever the later writes. -/
def Delivers (buf : List UInt8) (takebuffer mem : Bool) (r : WriteResult) : Prop :=
  ∀ (s : EdSmartSocket) (rs : List WriteResult), s.mPendingBuf = none → .error ∉ rs →
    let t := (s.sendPacket buf takebuffer mem r).2.pump rs
    (∃ k, t.wire = s.wire ++ buf.take k) ∧
    (buf.length ≤ room rs → t.mPendingBuf = none ∧ t.wire = s.wire ++ buf ∧
      ((s.sendPacket buf takebuffer mem r).1 = .SEND_OK ∨
        t.raised = s.raised ++ [.NETEV_WRITABLE]))

/-- Bytes the kernel takes in the first write. -/
def firstTaken (buf : List UInt8) (r : WriteResult) : Nat :=
  (write buf r).2.length

/-- The first write takes the packet, or its tail is copied, or `mPendingWriteCnt` happens
to point to it. -/
def TailFound (buf : List UInt8) (takebuffer mem : Bool) (r : WriteResult) : Prop :=
  (write buf r).1 = buf.length ∨
  buf ≠ [] ∧ (takebuffer = false ∧ mem = true ∨
    takebuffer = true ∧ 2 * firstTaken buf r = buf.length)

namespace EdSmartSocket

variable {s t : EdSmartSocket}

@[simp] lemma pump_nil : s.pump [] = s := rfl

@[simp] lemma pump_cons (r : WriteResult) (rs : List WriteResult) :
    s.pump (r :: rs) = (s.OnEventWrite r).pump rs := rfl

/-- The first `j` bytes of the packet are on the wire, the others are pending. -/
structure Sent (w : List UInt8) (e : List NetEvent) (buf : List UInt8) (j : Nat)
    (t : EdSmartSocket) : Prop where
  wire : t.wire = w ++ buf.take j
  rest : (j = buf.length ∧ t.mPendingBuf = none ∧ t.interest.evtWrite = false ∧
      t.raised = e ++ [.NETEV_WRITABLE]) ∨
    (j < buf.length ∧ t.interest.evtWrite = true ∧ t.raised = e ∧
      ∃ b, t.mPendingBuf = some b ∧ t.mPendingSize = b.length ∧
        b.drop t.mPendingWriteCnt = buf.drop j)

lemma Sent.step {w : List UInt8} {e : List NetEvent} {buf : List UInt8} {j : Nat}
    (h : Sent w e buf j t) {r : WriteResult} (hr : r ≠ .error) :
    ∃ i, Sent w e buf i (t.OnEventWrite r) ∧ j ≤ i ∧
      (r ≠ .again → j = buf.length ∨ j < i) := by
  rcases h.rest with ⟨hj, hp, hi, he⟩ | ⟨hj, hi, he, b, hb, hsize, hdrop⟩
  · have hsame : t.OnEventWrite r = t := by simp [OnEventWrite, hi]
    exact ⟨j, by rw [hsame]; exact h, Nat.le_refl j, fun _ => .inl hj⟩
  · have hlen : b.length - t.mPendingWriteCnt = buf.length - j := by
      have := congrArg List.length hdrop
      simpa using this
    have hslice : (b.drop t.mPendingWriteCnt).take (t.mPendingSize - t.mPendingWriteCnt) =
        buf.drop j := by
      rw [hsize, hdrop, hlen, ← List.length_drop, List.take_length]
    have hwrite : t.OnEventWrite r = t.procNormalOnWrite r := by simp [OnEventWrite, hi]
    rw [hwrite]
    cases r with
    | error => exact absurd rfl hr
    | again =>
      refine ⟨j, ?_, Nat.le_refl j, by simp⟩
      have hsame : t.procNormalOnWrite .again = t := by
        simp only [procNormalOnWrite, hb, write, List.append_nil]
        rw [← hb]
        rfl
      rw [hsame]
      exact h
    | took k =>
      let n := min (k + 1) (buf.length - j)
      have hn : 0 < n := by omega
      have htaken : ((buf.drop j).take (k + 1)).length = n := by
        rw [List.length_take, List.length_drop]
      have hwire : t.wire ++ (buf.drop j).take (k + 1) = w ++ buf.take (j + n) := by
        rw [h.wire, List.append_assoc, ← List.take_add, List.append_cancel_left_eq]
        by_cases hk : k + 1 ≤ buf.length - j
        · rw [show n = k + 1 by omega]
        · rw [List.take_of_length_le (by omega), List.take_of_length_le (by omega)]
      refine ⟨j + n, ?_, Nat.le_add_right j n, fun _ => .inr (by omega)⟩
      have hpos : (0 : Int) < n := Int.natCast_pos.mpr hn
      simp only [procNormalOnWrite, hb, write, hslice, htaken, gt_iff_lt, hpos, if_true,
        Int.toNat_natCast, hwire]
      by_cases hend : t.mPendingWriteCnt + n = t.mPendingSize
      · rw [if_pos hend]
        exact ⟨rfl, .inl ⟨by omega, rfl, rfl, by simp [changeEvent, he]⟩⟩
      · rw [if_neg hend]
        refine ⟨rfl, .inr ⟨by omega, hi, he, b, rfl, hsize, ?_⟩⟩
        simp only
        rw [← List.drop_drop, hdrop, List.drop_drop]

lemma Sent.le {w : List UInt8} {e : List NetEvent} {buf : List UInt8} {j : Nat}
    (h : Sent w e buf j t) : j ≤ buf.length := by
  rcases h.rest with ⟨hj, -⟩ | ⟨hj, -⟩ <;> omega

/-- Each write with room for a byte brings the packet closer to its end. -/
lemma Sent.pump {w : List UInt8} {e : List NetEvent} {buf : List UInt8} {j : Nat}
    (h : Sent w e buf j t) {rs : List WriteResult} (hrs : .error ∉ rs) :
    ∃ i, Sent w e buf i (t.pump rs) ∧ (i = buf.length ∨ j + room rs ≤ i) := by
  induction rs generalizing t j with
  | nil => exact ⟨j, h, .inr (by simp [room])⟩
  | cons r rs ih =>
    rw [List.mem_cons, not_or] at hrs
    obtain ⟨i, hi, hle, hroom⟩ := h.step (Ne.symm hrs.1)
    obtain ⟨i', hi', hd⟩ := ih hi hrs.2
    refine ⟨i', hi', ?_⟩
    rcases hd with hd | hd
    · exact .inl hd
    · have hle' := hi'.le
      by_cases hr : r = .again
      · right
        have hcount : room (r :: rs) = room rs := by simp [room, hr]
        omega
      · have hcount : room (r :: rs) = room rs + 1 := by simp [room, hr]
        rcases hroom hr with hj | hj
        · left
          omega
        · right
          omega

/-- After `sendPacket` with nothing pending, writable events send nothing. -/
lemma pump_idle (hs : s.mPendingBuf = none) (rs : List WriteResult) :
    (s.pump rs).mPendingBuf = none ∧ (s.pump rs).wire = s.wire := by
  induction rs generalizing s with
  | nil => exact ⟨hs, rfl⟩
  | cons r rs ih =>
    by_cases hi : s.interest.evtWrite = true
    · have hstep : s.OnEventWrite r =
          { s.changeEvent false with raised := s.raised ++ [.NETEV_WRITABLE] } := by
        simp [OnEventWrite, hi, procNormalOnWrite, hs, changeEvent]
      rw [pump_cons, hstep]
      exact ih hs
    · have hstep : s.OnEventWrite r = s := by simp [OnEventWrite, hi]
      rw [pump_cons, hstep]
      exact ih hs

lemma sendPacket_full {buf : List UInt8} {takebuffer mem : Bool} {r : WriteResult}
    (hs : s.mPendingBuf = none) (hw : (write buf r).1 = buf.length) :
    s.sendPacket buf takebuffer mem r = (.SEND_OK, { s with wire := s.wire ++ buf }) := by
  simp [sendPacket, hs, hw, write_fst buf r hw]

lemma short_write {buf : List UInt8} {r : WriteResult} (hr : r ≠ .error)
    (hw : (write buf r).1 ≠ buf.length) :
    (write buf r).2 = buf.take (firstTaken buf r) ∧ (write buf r).1.toNat = firstTaken buf r ∧
      ((write buf r).1 > 0 ∨ r = .again) ∧ (buf ≠ [] → firstTaken buf r < buf.length) ∧
      (buf = [] → firstTaken buf r = 0) ∧ (0 < firstTaken buf r ↔ r ≠ .again) := by
  cases r with
  | error => exact absurd rfl hr
  | again =>
    refine ⟨by simp [firstTaken, write], by simp [firstTaken, write], .inr rfl, fun hne => ?_,
      by simp [firstTaken, write], by simp [firstTaken, write]⟩
    simpa [firstTaken, write] using List.length_pos_iff.mpr hne
  | took k =>
    simp only [write, List.length_take, ne_eq, Int.natCast_inj] at hw
    have hk : firstTaken buf (.took k) = k + 1 := by
      simp only [firstTaken, write, List.length_take]
      omega
    refine ⟨?_, ?_, .inl ?_, fun _ => ?_, fun hnil => ?_, ?_⟩
    · rw [hk]
      rfl
    · exact Int.toNat_natCast _
    · simp only [write, List.length_take, gt_iff_lt]
      omega
    · omega
    · simp [hnil] at hw
    · simp [hk]

lemma sendPacket_short {buf : List UInt8} {r : WriteResult} (hs : s.mPendingBuf = none)
    (hr : r ≠ .error) (hw : (write buf r).1 ≠ buf.length) (takebuffer mem : Bool) :
    s.sendPacket buf takebuffer mem r =
      let f := firstTaken buf r
      let u := { s with wire := s.wire ++ buf.take f }
      if takebuffer = false then
        let u := { u with mPendingSize := buf.length - f, mPendingWriteCnt := 0 }
        if mem then
          (.SEND_PENDING, { u with mPendingBuf := some (buf.drop f) }.changeEvent true)
        else (.SEND_FAIL, u)
      else
        (.SEND_PENDING, { u with
          mPendingSize := buf.length
          mPendingBuf := some buf
          mPendingWriteCnt := buf.length - f }.changeEvent true) := by
  obtain ⟨htaken, hnat, hgo, -⟩ := short_write hr hw
  simp only [sendPacket, hs, Option.isSome_none, Bool.false_eq_true, if_false, hw, hgo, if_true,
    htaken, hnat]

end EdSmartSocket

/-- The tail of the packet is pending where `procNormalOnWrite` looks for it. -/
lemma TailFound.sent {buf : List UInt8} {takebuffer mem : Bool} {r : WriteResult}
    (h : TailFound buf takebuffer mem r) (hr : r ≠ .error)
    (hw : (write buf r).1 ≠ buf.length) {s : EdSmartSocket} (hs : s.mPendingBuf = none) :
    (s.sendPacket buf takebuffer mem r).1 = .SEND_PENDING ∧
      (s.sendPacket buf takebuffer mem r).2.Sent s.wire s.raised buf (firstTaken buf r) := by
  rw [EdSmartSocket.sendPacket_short hs hr hw]
  obtain ⟨-, -, -, hlt, -⟩ := EdSmartSocket.short_write hr hw
  rcases h with h | ⟨hne, ⟨htb, hmem⟩ | ⟨htb, hhalf⟩⟩
  · exact absurd h hw
  · simp only [htb, if_true, hmem]
    refine ⟨trivial, rfl, .inr ⟨hlt hne, rfl, rfl, _, rfl, ?_, ?_⟩⟩
    · simp [EdSmartSocket.changeEvent]
    · simp [EdSmartSocket.changeEvent]
  · simp only [htb, Bool.true_eq_false, if_false]
    refine ⟨trivial, rfl, .inr ⟨hlt hne, rfl, rfl, _, rfl, rfl, ?_⟩⟩
    simp only [EdSmartSocket.changeEvent]
    rw [← hhalf, Nat.two_mul, Nat.add_sub_cancel]

lemma TailFound.delivers {buf : List UInt8} {takebuffer mem : Bool} {r : WriteResult}
    (h : TailFound buf takebuffer mem r) (hr : r ≠ .error) : Delivers buf takebuffer mem r := by
  intro s rs hs hrs
  by_cases hw : (write buf r).1 = buf.length
  · rw [EdSmartSocket.sendPacket_full hs hw]
    obtain ⟨hp, hwire⟩ := EdSmartSocket.pump_idle (s := { s with wire := s.wire ++ buf }) hs rs
    exact ⟨⟨buf.length, by rw [List.take_length]; exact hwire⟩, fun _ => ⟨hp, hwire, .inl rfl⟩⟩
  · obtain ⟨-, hsent⟩ := h.sent hr hw hs
    obtain ⟨i, hi, hend⟩ := hsent.pump hrs
    refine ⟨⟨i, hi.wire⟩, fun hroom => ?_⟩
    have hlen : i = buf.length := by
      have := hi.le
      omega
    subst hlen
    rcases hi.rest with ⟨-, hp, -, he⟩ | ⟨hlt, -⟩
    · exact ⟨hp, by rw [hi.wire, List.take_length], .inr he⟩
    · exact absurd hlt (Nat.lt_irrefl _)

/-- An idle socket. -/
def idleSocket : EdSmartSocket where
  mPendingBuf := none
  mPendingSize := 0
  mPendingWriteCnt := 0
  interest := ⟨true, false, true⟩
  wire := []
  raised := []

/-- Writable events in which the kernel takes all it is given. -/
def fullWrites (buf : List UInt8) : List WriteResult :=
  List.replicate buf.length (.took buf.length)

lemma room_fullWrites (buf : List UInt8) : room (fullWrites buf) = buf.length := by
  simp [room, fullWrites, List.countP_replicate]

lemma error_fullWrites (buf : List UInt8) : .error ∉ fullWrites buf := by
  simp [fullWrites]

lemma pump_fixed {t : EdSmartSocket} {r : WriteResult} (h : t.OnEventWrite r = t) (n : Nat) :
    t.pump (List.replicate n r) = t := by
  induction n with
  | zero => rfl
  | succ n ih => rw [List.replicate_succ, EdSmartSocket.pump_cons, h, ih]

/-- The socket after a short first write of a packet it took over. -/
def takenOver (buf : List UInt8) (f : Nat) : EdSmartSocket where
  mPendingBuf := some buf
  mPendingSize := buf.length
  mPendingWriteCnt := buf.length - f
  interest := ⟨true, true, true⟩
  wire := buf.take f
  raised := []

/-- `procNormalOnWrite` begins `f` bytes before the end, not after the first `f` bytes. -/
lemma takenOver_step {buf : List UInt8} {f : Nat} (hlt : f < buf.length) :
    (takenOver buf f).OnEventWrite (.took buf.length) =
      if f = 0 then takenOver buf f
      else { idleSocket with
        wire := buf.take f ++ buf.drop (buf.length - f), raised := [.NETEV_WRITABLE] } := by
  have hslice : (buf.drop (buf.length - f)).take (buf.length - (buf.length - f)) =
      buf.drop (buf.length - f) :=
    List.take_of_length_le (Nat.le_of_eq List.length_drop)
  have htake : (buf.drop (buf.length - f)).take (buf.length + 1) = buf.drop (buf.length - f) :=
    List.take_of_length_le (by rw [List.length_drop]; omega)
  have hlen : (buf.drop (buf.length - f)).length = f := by
    rw [List.length_drop]
    omega
  simp only [EdSmartSocket.OnEventWrite, takenOver, if_true, EdSmartSocket.procNormalOnWrite, write,
    hslice, htake, hlen]
  by_cases hf : f = 0
  · simp [hf]
  · have hend : buf.length - f + f = buf.length := Nat.sub_add_cancel (Nat.le_of_lt hlt)
    simp [hf, hend, EdSmartSocket.changeEvent, idleSocket]

lemma Delivers.tailFound {buf : List UInt8} {takebuffer mem : Bool} {r : WriteResult}
    (h : Delivers buf takebuffer mem r) (hr : r ≠ .error) : TailFound buf takebuffer mem r := by
  by_cases hw : (write buf r).1 = buf.length
  · exact .inl hw
  obtain ⟨-, -, -, hlt, hzero, -⟩ := EdSmartSocket.short_write hr hw
  have hd := (h idleSocket (fullWrites buf) rfl (error_fullWrites buf)).2
    (Nat.le_of_eq (room_fullWrites buf).symm)
  rw [EdSmartSocket.sendPacket_short rfl hr hw] at hd
  right
  have hne : buf ≠ [] := by
    rintro rfl
    have hf := hzero rfl
    cases takebuffer <;> cases mem <;>
      simp [hf, fullWrites, idleSocket, EdSmartSocket.changeEvent] at hd
  refine ⟨hne, ?_⟩
  have hlt := hlt hne
  generalize firstTaken buf r = f at hd hlt ⊢
  cases takebuffer with
  | false =>
    cases mem with
    | true => exact .inl ⟨rfl, rfl⟩
    | false =>
      -- the tail is lost when it cannot be copied
      have hd := hd.2.1
      simp only [if_true, Bool.false_eq_true, if_false, fullWrites] at hd
      rw [pump_fixed (by simp [EdSmartSocket.OnEventWrite, idleSocket])] at hd
      have hl := congrArg List.length hd
      simp [idleSocket] at hl
      omega
  | true =>
    right
    refine ⟨rfl, ?_⟩
    obtain ⟨hp, hwire, -⟩ := hd
    have hstart : { ({ idleSocket with wire := idleSocket.wire ++ buf.take f }) with
        mPendingSize := buf.length
        mPendingBuf := some buf
        mPendingWriteCnt := buf.length - f : EdSmartSocket }.changeEvent true =
        takenOver buf f := by
      simp [idleSocket, takenOver, EdSmartSocket.changeEvent]
    simp only [Bool.true_eq_false, if_false, hstart] at hp hwire
    have hstep := takenOver_step hlt
    by_cases hf : f = 0
    · rw [if_pos hf] at hstep
      rw [fullWrites, pump_fixed hstep] at hp
      simp [takenOver] at hp
    · rw [if_neg hf] at hstep
      obtain ⟨n, hn⟩ : ∃ n, buf.length = n + 1 := ⟨buf.length - 1, by omega⟩
      rw [fullWrites, hn, List.replicate_succ, ← hn, EdSmartSocket.pump_cons, hstep,
        pump_fixed (by simp [EdSmartSocket.OnEventWrite, idleSocket])] at hwire
      have hl := congrArg List.length hwire
      simp [idleSocket] at hl
      omega

/-- A packet is delivered under all later writes if and only if its first write takes it
whole, or it is not empty and its tail is copied or starts where it happens to be looked
for. -/
theorem sendPacket_delivers_iff (buf : List UInt8) (takebuffer mem : Bool) (r : WriteResult)
    (hr : r ≠ .error) : Delivers buf takebuffer mem r ↔ TailFound buf takebuffer mem r :=
  ⟨fun h => h.tailFound hr, fun h => h.delivers hr⟩

theorem sendPacket_delivers_copied : Delivers [1, 2, 3] false true (.took 0) :=
  (sendPacket_delivers_iff [1, 2, 3] false true (.took 0) (by decide)).mpr
    (.inr ⟨by decide, .inl ⟨rfl, rfl⟩⟩)

/-- One byte of a packet that is taken over is written first: the byte in the middle is never
sent. -/
theorem not_sendPacket_delivers : ¬ ∀ (buf : List UInt8) (takebuffer : Bool) (r : WriteResult),
    r ≠ .error → Delivers buf takebuffer true r := by
  intro h
  have hd := (h [1, 2, 3] true (.took 0) (by decide) idleSocket [.took 2, .took 2, .took 2] rfl
    (by decide)).2 (by decide)
  exact absurd hd.2.1 (by decide)

end EdNio.Net
