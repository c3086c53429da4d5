import EdNio.Library.History
import EdNio.Net.SocketChannel

/-!
# The history of a channel

What a channel has accepted, written and completed, and the accounts of the packets that are
outstanding.
-/

namespace EdNio.Net
open Transition

/-- A call of `sendPacket`, a write in `OnWrite`, and a call of `OnTxComplete`. -/
inductive ChannelEvent
  | sent (buf : List UInt8) (user : Nat) (ret : SendRet) (taken : List UInt8)
  | wrote (taken : List UInt8)
  | completed (user : Nat)
deriving DecidableEq, Repr

def ChannelTask.record (s : ChannelTask) : ChannelAction → Option ChannelEvent
  | .sendPacket buf user takebuf r pevt =>
    (s.chan.sendPacket buf user takebuf r pevt).map (fun (ret, taken, _) =>
      .sent buf user ret taken)
  | .tx r pevt => (s.txRound r pevt).map (fun (taken, _) => .wrote taken)
  | .OnTxComplete =>
    match s.pc with
    | .completing _ user _ => some (.completed user)
    | _ => none
  | _ => none

/-- A connected channel after `init(n)`. -/
def connectedChannel (n : Nat) : System ChannelTask ChannelAction where
  init s := s.pc = .elsewhere ∧ s.chan.sock.mFd.isSome = true ∧
    s.chan.sock.mStatus = .SOCK_STATUS_CONNECTED ∧
    s.chan = { EdSocketChannel.new.init n with sock := s.chan.sock }
  step := ChannelTask.step

def channelHistory (n : Nat) : System (Recorded ChannelTask ChannelEvent) ChannelAction :=
  (connectedChannel n).recorded ChannelTask.record

/-- The user sends and receives, and closes nothing. -/
def streaming : ChannelAction → Bool
  | .sendPacket _ _ _ _ _ => true
  | .OnEventRead => true
  | .readReturn error => !error
  | .OnEventWrite _ _ => true
  | .tx _ _ => true
  | .loopEnd => true
  | .OnTxComplete => true
  | .callbackReturn => true
  | _ => false

namespace ChannelEvent

def taken : ChannelEvent → List UInt8
  | .sent _ _ _ taken => taken
  | .wrote taken => taken
  | .completed _ => []

/-- The bytes of a packet not answered with `SR_BUFFULL`. -/
def packet : ChannelEvent → List UInt8
  | .sent buf _ ret _ => if ret = .SR_BUFFULL then [] else buf
  | _ => []

def completion : ChannelEvent → List Nat
  | .completed user => [user]
  | _ => []

/-- The user of a packet answered with `SR_CONTINUE`, and where it ends when `n` bytes have
been accepted before it. -/
def continuedAt (n : Nat) : ChannelEvent → List (Nat × Nat)
  | .sent buf user ret _ => if ret = .SR_CONTINUE then [(user, n + buf.length)] else []
  | _ => []

end ChannelEvent

/-- The bytes taken by the kernel. -/
def kernel (log : List ChannelEvent) : List UInt8 := log.flatMap ChannelEvent.taken

/-- The packets accepted, one after the other. -/
def accepted (log : List ChannelEvent) : List UInt8 := log.flatMap ChannelEvent.packet

/-- The users given to `OnTxComplete`. -/
def completions (log : List ChannelEvent) : List Nat := log.flatMap ChannelEvent.completion

def continuedFrom (n : Nat) : List ChannelEvent → List (Nat × Nat)
  | [] => []
  | e :: log => e.continuedAt n ++ continuedFrom (n + e.packet.length) log

/-- The users of the packets answered with `SR_CONTINUE`, with the ends of these in the bytes
accepted. -/
def continued (log : List ChannelEvent) : List (Nat × Nat) := continuedFrom 0 log

/-- The user is that of the first packet answered with `SR_CONTINUE` and not completed, and the
packet has been taken to its end. -/
def Completes (log : List ChannelEvent) : ChannelEvent → Prop
  | .completed user => ∃ stop, (continued log)[(completions log).length]? = some (user, stop) ∧
      stop ≤ (kernel log).length
  | _ => True

/-- What the kernel has not taken of a chunk. -/
def ChunkInfo.unsent (c : ChunkInfo) : List UInt8 :=
  (c.data.drop c.curCnt).take (c.size - c.curCnt)

namespace EdSocketChannel

variable (s : EdSocketChannel)

/-- The unsent bytes and the users of the packets in `mCurChk` and `mChks`. -/
def outstanding : List (List UInt8 × Nat) :=
  (s.mCurChk.toList ++ s.mChks).map (fun a => ((s.mem a).unsent, (s.mem a).user))

end EdSocketChannel

/-- The user of the call of `OnTxComplete` that comes next. -/
def ChannelPc.calling : ChannelPc → List Nat
  | .completing _ user _ => [user]
  | _ => []

/-- What should hold of the stream, the completions and the chunks of a channel. -/
structure Streams (n : Nat) (x : Recorded ChannelTask ChannelEvent) : Prop where
  bytes : kernel x.log ++ (x.state.chan.outstanding.map Prod.fst).flatten = accepted x.log
  completes : Always Completes x.log
  users : (continued x.log).map Prod.fst =
    completions x.log ++ x.state.pc.calling ++ x.state.chan.outstanding.map Prod.snd
  unsent : ∀ a ∈ x.state.chan.mCurChk.toList ++ x.state.chan.mChks,
    (x.state.chan.mem a).unsent = [] → (x.state.chan.mem a).size = 0
  chunks : x.state.chan.mFreeChks.length + x.state.chan.mChks.length +
    (if x.state.chan.mCurChk.isSome then 1 else 0) = n
  queue : x.state.chan.mCurChk = none → x.state.chan.mChks = []

/-- The users of outstanding packets and their ends, `n` bytes being taken. -/
def ends (n : Nat) : List (List UInt8 × Nat) → List (Nat × Nat)
  | [] => []
  | (b, user) :: out => (user, n + b.length) :: ends (n + b.length) out

/-- The accounts of a channel with `out` outstanding and `calling` about to be called. -/
structure Accounts (out : List (List UInt8 × Nat)) (calling : List Nat)
    (log : List ChannelEvent) : Prop where
  stream : kernel log ++ (out.map Prod.fst).flatten = accepted log
  order : ∃ done, done.map Prod.fst = completions log ++ calling ∧
    (∀ d ∈ done, d.2 ≤ (kernel log).length) ∧
    continued log = done ++ ends (kernel log).length out

lemma kernel_concat (log : List ChannelEvent) (e : ChannelEvent) :
    kernel (log ++ [e]) = kernel log ++ e.taken := by
  simp [kernel]

lemma accepted_concat (log : List ChannelEvent) (e : ChannelEvent) :
    accepted (log ++ [e]) = accepted log ++ e.packet := by
  simp [accepted]

lemma completions_concat (log : List ChannelEvent) (e : ChannelEvent) :
    completions (log ++ [e]) = completions log ++ e.completion := by
  simp [completions]

lemma continued_concat (log : List ChannelEvent) (e : ChannelEvent) :
    continued (log ++ [e]) = continued log ++ e.continuedAt (accepted log).length := by
  have hfrom : ∀ n, continuedFrom n (log ++ [e]) =
      continuedFrom n log ++ e.continuedAt (n + (accepted log).length) := by
    induction log with
    | nil =>
      intro n
      simp [continuedFrom, accepted]
    | cons f log ih =>
      intro n
      have hlen : (accepted (f :: log)).length = f.packet.length + (accepted log).length := by
        simp [accepted]
      rw [List.cons_append, continuedFrom, continuedFrom, ih, hlen, List.append_assoc,
        Nat.add_assoc]
  have h0 := hfrom 0
  rw [Nat.zero_add] at h0
  exact h0

lemma ends_append (n : Nat) (out out' : List (List UInt8 × Nat)) :
    ends n (out ++ out') = ends n out ++ ends (n + (out.map Prod.fst).flatten.length) out' := by
  induction out generalizing n with
  | nil => simp [ends]
  | cons p out ih =>
    obtain ⟨b, user⟩ := p
    simp only [List.cons_append, ends, ih, List.map_cons, List.flatten_cons, List.length_append,
      Nat.add_assoc]

lemma ends_users (n : Nat) (out : List (List UInt8 × Nat)) :
    (ends n out).map Prod.fst = out.map Prod.snd := by
  induction out generalizing n with
  | nil => rfl
  | cons p out ih =>
    obtain ⟨b, user⟩ := p
    simp [ends, ih]

namespace Accounts

variable {out : List (List UInt8 × Nat)} {calling : List Nat} {log : List ChannelEvent}

lemma nil : Accounts [] [] [] := ⟨rfl, [], rfl, by simp, rfl⟩

lemma length_accepted (h : Accounts out calling log) :
    (accepted log).length = (kernel log).length + (out.map Prod.fst).flatten.length := by
  rw [← h.stream, List.length_append]

lemma full (h : Accounts out calling log) (buf : List UInt8) (user : Nat) :
    Accounts out calling (log ++ [.sent buf user .SR_BUFFULL []]) := by
  obtain ⟨done, hdone, hle, hcont⟩ := h.order
  have hk : kernel (log ++ [.sent buf user .SR_BUFFULL []]) = kernel log := by
    rw [kernel_concat]
    exact List.append_nil _
  refine ⟨?_, done, ?_, hk ▸ hle, ?_⟩
  · rw [hk, accepted_concat, h.stream]
    exact (List.append_nil _).symm
  · rw [completions_concat, hdone]
    simp [ChannelEvent.completion]
  · rw [hk, continued_concat, hcont]
    simp [ChannelEvent.continuedAt]

lemma complete (h : Accounts [] calling log) (buf : List UInt8) (user : Nat) :
    Accounts [] calling (log ++ [.sent buf user .SR_COMPLETE buf]) := by
  obtain ⟨done, hdone, hle, hcont⟩ := h.order
  have hs := h.stream
  have hk : kernel (log ++ [.sent buf user .SR_COMPLETE buf]) = kernel log ++ buf :=
    kernel_concat _ _
  refine ⟨?_, done, ?_, fun d hd => ?_, ?_⟩
  · rw [hk, accepted_concat, ← hs]
    simp [ChannelEvent.packet]
  · rw [completions_concat, hdone]
    simp [ChannelEvent.completion]
  · rw [hk, List.length_append]
    exact Nat.le_add_right_of_le (hle d hd)
  · rw [continued_concat, hcont]
    simp [ChannelEvent.continuedAt, ends]

/-- A packet that stays outstanding, whole or after a first write on an idle channel. -/
lemma continue_ (h : Accounts out calling log) {buf taken rest : List UInt8} (user : Nat)
    (hbuf : taken ++ rest = buf) (hidle : taken = [] ∨ out = []) :
    Accounts (out ++ [(rest, user)]) calling
      (log ++ [.sent buf user .SR_CONTINUE taken]) := by
  obtain ⟨done, hdone, hle, hcont⟩ := h.order
  have hs := h.stream
  have hlen := h.length_accepted
  have hk : kernel (log ++ [.sent buf user .SR_CONTINUE taken]) = kernel log ++ taken :=
    kernel_concat _ _
  refine ⟨?_, done, ?_, fun d hd => ?_, ?_⟩
  · rw [hk, accepted_concat, ← hs, ← hbuf]
    rcases hidle with rfl | rfl <;> simp [ChannelEvent.packet]
  · rw [completions_concat, hdone]
    simp [ChannelEvent.completion]
  · rw [hk, List.length_append]
    exact Nat.le_add_right_of_le (hle d hd)
  · rw [continued_concat, hcont, hk, hlen, ends_append, ← hbuf, List.append_assoc]
    rcases hidle with rfl | rfl
    · simp [ChannelEvent.continuedAt, ends]
    · simp [ChannelEvent.continuedAt, ends, Nat.add_assoc]

lemma wrote {b taken rest : List UInt8} {user : Nat}
    (h : Accounts ((b, user) :: out) calling log) (hb : taken ++ rest = b) :
    Accounts ((rest, user) :: out) calling (log ++ [.wrote taken]) := by
  obtain ⟨done, hdone, hle, hcont⟩ := h.order
  have hs := h.stream
  have hk : kernel (log ++ [.wrote taken]) = kernel log ++ taken := kernel_concat _ _
  refine ⟨?_, done, ?_, fun d hd => ?_, ?_⟩
  · rw [hk, accepted_concat, ← hs, ← hb]
    simp [ChannelEvent.packet]
  · rw [completions_concat, hdone]
    simp [ChannelEvent.completion]
  · rw [hk, List.length_append]
    exact Nat.le_add_right_of_le (hle d hd)
  · rw [continued_concat, hcont, hk, ← hb]
    simp [ChannelEvent.continuedAt, ends, Nat.add_assoc]

lemma finish {user : Nat} (h : Accounts (([], user) :: out) [] log) :
    Accounts out [user] log := by
  obtain ⟨done, hdone, hle, hcont⟩ := h.order
  refine ⟨h.stream, done ++ [(user, (kernel log).length)], ?_, fun d hd => ?_, ?_⟩
  · rw [List.map_append, hdone, List.append_nil]
    rfl
  · rcases List.mem_append.mp hd with hd | hd
    · exact hle d hd
    · cases List.mem_singleton.mp hd
      exact Nat.le_refl _
  · rw [hcont, List.append_assoc]
    rfl

lemma completed {user : Nat} (h : Accounts out [user] log) :
    Completes log (.completed user) ∧ Accounts out [] (log ++ [.completed user]) := by
  obtain ⟨done, hdone, hle, hcont⟩ := h.order
  have hk : kernel (log ++ [.completed user]) = kernel log := by
    rw [kernel_concat]
    exact List.append_nil _
  constructor
  · obtain ⟨before, d, rfl, hbefore, hd⟩ : ∃ before d, done = before ++ [d] ∧
        before.map Prod.fst = completions log ∧ d.1 = user := by
      rcases List.eq_nil_or_concat done with rfl | ⟨before, d, rfl⟩
      · simp at hdone
      · rw [List.concat_eq_append, List.map_append] at hdone
        obtain ⟨h1, h2⟩ := List.append_inj' hdone rfl
        exact ⟨before, d, List.concat_eq_append, h1, by simpa using h2⟩
    refine ⟨d.2, ?_, hle d (by simp)⟩
    have hlen : (completions log).length = before.length := by
      rw [← hbefore, List.length_map]
    rw [hcont, hlen, List.append_assoc, List.getElem?_append_right (Nat.le_refl _), Nat.sub_self,
      ← hd]
    rfl
  · refine ⟨?_, done, ?_, hk ▸ hle, ?_⟩
    · rw [hk, accepted_concat, h.stream]
      exact (List.append_nil _).symm
    · rw [completions_concat, hdone]
      exact (List.append_nil _).symm
    · rw [hk, continued_concat, hcont]
      exact List.append_nil _

end Accounts

end EdNio.Net
