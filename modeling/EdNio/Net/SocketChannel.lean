import EdNio.Library.Transition
import EdNio.Net.EdSocket
import Mathlib.Logic.Function.Basic

/-!
# EdSocketChannel

The channel with its chunks and the base socket. `OnWrite` is cut at its calls of `tx` and of
`OnTxComplete`, in which the user may call the channel.
-/

namespace EdNio.Net
open Transition

/-- `data` is what the pointer leads to, nothing for NULL. -/
structure ChunkInfo where
  data : List UInt8
  size : Nat
  user : Nat
  curCnt : Nat
  allocated : Bool
deriving DecidableEq, Repr

def ChunkInfo.zero : ChunkInfo := ⟨[], 0, 0, 0, false⟩

inductive SendRet
  | SR_FAIL
  | SR_BUFFULL
  | SR_COMPLETE
  | SR_CONTINUE
deriving DecidableEq, Repr

/-- `mem` holds the chunks, and `chunks` is how many have been allocated. -/
structure EdSocketChannel where
  sock : EdSocket
  mem : Nat → ChunkInfo
  chunks : Nat
  mChks : List Nat
  mFreeChks : List Nat
  mCurChk : Option Nat

namespace EdSocketChannel

variable (s : EdSocketChannel)

def new : EdSocketChannel where
  sock := .new
  mem _ := .zero
  chunks := 0
  mChks := []
  mFreeChks := []
  mCurChk := none

def init (maxchk : Nat) : EdSocketChannel :=
  { s with
    mem := fun a => if s.chunks ≤ a ∧ a < s.chunks + maxchk then .zero else s.mem a
    chunks := s.chunks + maxchk
    mFreeChks := s.mFreeChks ++ (List.range maxchk).map (s.chunks + ·) }

/-- The return value, and the bytes the kernel took. `mCurChk` is used without a look at it. -/
def tx (r : WriteResult) : Option (SendRet × List UInt8 × EdSocketChannel) :=
  s.mCurChk.map (fun cur =>
    let c := s.mem cur
    let remain := c.size - c.curCnt
    let (wcnt, taken) := write ((c.data.drop c.curCnt).take remain) r
    if wcnt = remain then
      let c := { c with curCnt := c.curCnt + remain }
      let c := if c.allocated then { c with data := [], allocated := false } else c
      (.SR_COMPLETE, taken, { s with mem := Function.update s.mem cur c })
    else if wcnt > 0 then
      let c := { c with curCnt := c.curCnt + wcnt.toNat }
      (.SR_CONTINUE, taken, { s with mem := Function.update s.mem cur c })
    else (.SR_CONTINUE, taken, s))

def sendPacket (buf : List UInt8) (user : Nat) (takebuf : Bool) (r : WriteResult)
    (pevt : Option Nat) : Option (SendRet × List UInt8 × EdSocketChannel) :=
  match s.mFreeChks with
  | [] => some (.SR_BUFFULL, [], s)
  | chk :: free =>
    let s := { s with
      mFreeChks := free
      mem := Function.update s.mem chk ⟨buf, buf.length, user, 0, !takebuf⟩ }
    if s.mCurChk.isSome then some (.SR_CONTINUE, [], { s with mChks := s.mChks ++ [chk] })
    else
      (tx { s with mCurChk := some chk } r).bind (fun (ret, taken, s) =>
        if ret = .SR_COMPLETE then
          some (ret, taken, { s with mFreeChks := s.mFreeChks ++ [chk], mCurChk := none })
        else
          (s.sock.changeEvent ⟨true, true, false⟩ pevt).map (fun k =>
            (ret, taken, { s with sock := k })))

/-- What `OnWrite` does with a completed chunk before it calls `OnTxComplete`, and the chunk it
goes on with. -/
def recycle (chk : Nat) (pevt : Option Nat) : Option (Option Nat × EdSocketChannel) :=
  if s.sock.mFd.isSome then
    let s := { s with mFreeChks := s.mFreeChks ++ [chk] }
    match s.mChks with
    | c :: chks => some (some c, { s with mCurChk := some c, mChks := chks })
    | [] =>
      (s.sock.changeEvent ⟨true, false, false⟩ pevt).map (fun k =>
        (none, { s with mCurChk := none, sock := k }))
  else some (some chk, s)

def closeChannel : EdSocketChannel :=
  { s with sock := s.sock.close, mCurChk := none, mChks := [], mFreeChks := [] }

variable {s : EdSocketChannel} {t : EdSocketChannel} {r : WriteResult} {ret : SendRet}
variable {taken : List UInt8}

lemma tx_sock (h : s.tx r = some (ret, taken, t)) :
    s.mCurChk.isSome = true ∧ t.sock = s.sock := by
  unfold tx at h
  obtain ⟨cur, hcur, h⟩ := Option.map_eq_some_iff.mp h
  dsimp only at h
  rw [hcur]
  split at h
  · cases h
    exact ⟨rfl, rfl⟩
  · split at h
    · cases h
      exact ⟨rfl, rfl⟩
    · cases h
      exact ⟨rfl, rfl⟩

lemma tx_isSome (s : EdSocketChannel) (r : WriteResult) :
    (s.tx r).isSome = s.mCurChk.isSome := by
  rw [tx, Option.isSome_map]

end EdSocketChannel

/-- The task is elsewhere, in a listener that `OnEventRead` calls, or in `OnWrite`: at the
loop with `chk`, about to call `OnTxComplete`, or in it. -/
inductive ChannelPc
  | elsewhere
  | reading
  | disconnecting
  | writing (chk : Option Nat)
  | completing (data : List UInt8) (user : Nat) (chk : Option Nat)
  | callback (chk : Option Nat)
deriving DecidableEq, Repr

structure ChannelTask where
  chan : EdSocketChannel
  pc : ChannelPc

/-- `error` says that `lastSockErrorNo` is not 0 when the listener returns. -/
inductive ChannelAction
  | init (maxchk : Nat)
  | openSock (type : SockType) (fd : Option Nat)
  | openChildSock (fd : Nat) (pevt : Option Nat)
  | bindSock (fd : Option Nat) (bound : Bool) (pevt : Option Nat)
  | listenSock (fd : Option Nat) (bound listened : Bool) (pevt : Option Nat)
  | connectIp (fd : Option Nat) (pevt : Option Nat)
  | connectAddr (fd : Option Nat) (cnn : CnnResult) (pevt : Option Nat)
  | close
  | closeChannel
  | sendPacket (buf : List UInt8) (user : Nat) (takebuf : Bool) (r : WriteResult)
      (pevt : Option Nat)
  | OnEventRead
  | readReturn (error : Bool)
  | disconnectReturn (error : Bool)
  | OnEventWrite (sockerr : Int) (pevt : Option Nat)
  | tx (r : WriteResult) (pevt : Option Nat)
  | loopEnd
  | OnTxComplete
  | callbackReturn
  | OnEventHangup
deriving DecidableEq, Repr

namespace ChannelTask

variable (s : ChannelTask)

def new : ChannelTask := ⟨.new, .elsewhere⟩

def withSock (k : EdSocket) : ChannelTask :=
  { s with chan := { s.chan with sock := k } }

/-- The user calls the channel outside the library and in its listeners. -/
def userRuns : Bool :=
  match s.pc with
  | .writing _ => false
  | .completing _ _ _ => false
  | _ => true

/-- The result of `socket`, or a descriptor from `accept`: not one that is in use. -/
def fresh (fd : Option Nat) : Bool :=
  fd.all (fun fd => s.chan.sock.mFd ≠ some fd && s.chan.sock.mEvt.all (fun e => e.fd ≠ fd))

/-- A write on a descriptor of -1 fails. -/
def writes (r : WriteResult) : Bool :=
  s.chan.sock.mFd.isSome || r = .error

/-- The task can call a handler. -/
def watched : Bool :=
  s.pc = .elsewhere && s.chan.sock.mEvt.isSome

/-- One round of the loop of `OnWrite`. -/
def txRound (r : WriteResult) (pevt : Option Nat) : Option (List UInt8 × ChannelTask) :=
  match s.pc with
  | .writing (some chk) =>
    (s.chan.tx r).bind (fun (ret, taken, t) =>
      if ret = .SR_COMPLETE then
        let c := t.mem chk
        (t.recycle chk pevt).map (fun (next, t) =>
          (taken, ⟨t, .completing c.data c.user next⟩))
      else some (taken, ⟨t, .elsewhere⟩))
  | _ => none

def step : ChannelAction → Option ChannelTask
  | .init maxchk => if s.userRuns then some { s with chan := s.chan.init maxchk } else none
  | .openSock type fd =>
    if s.userRuns ∧ s.fresh fd then some (s.withSock (s.chan.sock.openSock type fd)) else none
  | .openChildSock fd pevt =>
    if s.userRuns ∧ s.fresh (some fd) then (s.chan.sock.openChildSock fd pevt).map s.withSock
    else none
  | .bindSock fd bound pevt =>
    if s.userRuns ∧ s.fresh fd then (s.chan.sock.bindSock fd bound pevt).map s.withSock else none
  | .listenSock fd bound listened pevt =>
    if s.userRuns ∧ s.fresh fd then
      (s.chan.sock.listenSock fd bound listened pevt).map s.withSock
    else none
  | .connectIp fd pevt =>
    if s.userRuns ∧ s.fresh fd then (s.chan.sock.connectIp fd pevt).map s.withSock else none
  | .connectAddr fd cnn pevt =>
    if s.userRuns ∧ s.fresh fd then (s.chan.sock.connectAddr fd cnn pevt).map s.withSock
    else none
  | .close => if s.userRuns then some (s.withSock s.chan.sock.close) else none
  | .closeChannel => if s.userRuns then some { s with chan := s.chan.closeChannel } else none
  | .sendPacket buf user takebuf r pevt =>
    if s.userRuns ∧ s.writes r then
      (s.chan.sendPacket buf user takebuf r pevt).map (fun (_, _, t) => { s with chan := t })
    else none
  | .OnEventRead =>
    if s.watched then some (if s.chan.sock.mIsListen then s else { s with pc := .reading })
    else none
  | .readReturn error =>
    if s.pc = .reading then
      some { s with pc := if error then .disconnecting else .elsewhere }
    else none
  | .disconnectReturn error =>
    if s.pc = .disconnecting then
      some { (if error then s.withSock s.chan.sock.close else s) with pc := .elsewhere }
    else none
  | .OnEventWrite sockerr pevt =>
    if s.watched then
      if s.chan.sock.mStatus = .SOCK_STATUS_CONNECTING then
        if sockerr ≠ 0 then some (s.withSock s.chan.sock.close)
        else (s.chan.sock.completeConnection pevt).map s.withSock
      else some { s with pc := .writing s.chan.mCurChk }
    else none
  | .tx r pevt => if s.writes r then (s.txRound r pevt).map Prod.snd else none
  | .loopEnd => if s.pc = .writing none then some { s with pc := .elsewhere } else none
  | .OnTxComplete =>
    match s.pc with
    | .completing _ _ chk => some { s with pc := .callback chk }
    | _ => none
  | .callbackReturn =>
    match s.pc with
    | .callback chk => some { s with pc := .writing chk }
    | _ => none
  | .OnEventHangup => if s.watched then some (s.withSock s.chan.sock.close) else none

end ChannelTask

/-- A channel from its construction on. -/
def channelTask : System ChannelTask ChannelAction where
  init s := s = .new
  step := ChannelTask.step

end EdNio.Net
