import EdNio.Library.History
import EdNio.Net.SmartSocket

/-!
# A smart socket over its connections

`EdSmartSocket` in `SOCKET_NORMAL` mode with its `mSock`, from one connection to the next.
The task calls the handlers of the base socket between callbacks; its user may call the
socket at any time. `OnEventRead` is cut at the returns of the listener.
-/

namespace EdNio.Net
open Transition

/-- The task is elsewhere, in the listener for `NETEV_READABLE`, or in the one for
`NETEV_DISCONNECTED` of `OnEventRead`. -/
inductive SessionPc
  | elsewhere
  | reading
  | disconnecting
deriving DecidableEq, Repr

/-- `conn` counts the descriptors opened, and `packetConn` is the one that the pending packet
was accepted on. -/
structure SmartSession where
  mSock : EdSocket
  smart : EdSmartSocket
  pc : SessionPc
  conn : Nat
  packetConn : Nat
deriving DecidableEq, Repr

namespace SmartSession

variable (s : SmartSession)

def new : SmartSession where
  mSock := .new
  smart := idleSocket
  pc := .elsewhere
  conn := 0
  packetConn := 0

def pending : Bool := s.smart.mPendingBuf.isSome

/-- The base socket has become `t`. -/
def withSock (t : EdSocket) : SmartSession :=
  { s with
    mSock := t
    conn := if t.mFd.isSome ∧ t.mFd ≠ s.mSock.mFd then s.conn + 1 else s.conn }

def raise (e : NetEvent) : SmartSession :=
  { s with smart := { s.smart with raised := s.smart.raised ++ [e] } }

def openClient (fd : Option Nat) : SmartSession :=
  s.withSock (s.mSock.openSock .SOCK_TYPE_TCP fd)

def openChild (fd : Nat) (pevt : Option Nat) : Option SmartSession :=
  (s.mSock.openChildSock fd pevt).map s.withSock

def openUnixSocket (type : SockType) (fd : Option Nat) (bound : Bool) (pevt : Option Nat) :
    Option SmartSession :=
  if type = .SOCK_TYPE_UNIXDGRAM ∨ type = .SOCK_TYPE_UNIXSTREAM then
    let t := s.withSock (s.mSock.openSock type fd)
    if fd.isSome then
      (t.mSock.bindSock none bound pevt).map (fun k =>
        t.withSock (if bound then k else k.close))
    else some t
  else some s

def connectIp (fd : Option Nat) (pevt : Option Nat) : Option SmartSession :=
  (s.mSock.connectIp fd pevt).map s.withSock

def connectAddr (fd : Option Nat) (cnn : CnnResult) (pevt : Option Nat) :
    Option SmartSession :=
  (s.mSock.connectAddr fd cnn pevt).map s.withSock

def sendPacket (buf : List UInt8) (takebuffer mem : Bool) (r : WriteResult)
    (pevt : Option Nat) : Option (SendResult × SmartSession) :=
  let (ret, t) := s.smart.sendPacket buf takebuffer mem r
  if ret = .SEND_PENDING then
    (s.mSock.changeEvent t.interest pevt).map (fun k =>
      (ret, { s.withSock k with smart := t, packetConn := s.conn }))
  else some (ret, { s with smart := t })

def reserveWrite (pevt : Option Nat) : Option SmartSession :=
  (s.mSock.changeEvent ⟨true, true, true⟩ pevt).map s.withSock

def close : SmartSession :=
  { s.withSock s.mSock.close with smart := { s.smart with mPendingBuf := none } }

/-- `changeEvent` is called when nothing is pending any more. -/
def procNormalOnWrite (r : WriteResult) (pevt : Option Nat) : Option SmartSession :=
  let t := s.smart.procNormalOnWrite r
  if t.mPendingBuf = none then
    (s.mSock.changeEvent t.interest pevt).map (fun k => { s.withSock k with smart := t })
  else some { s with smart := t }

/-- `sockerr` is what `getsockopt` gives. -/
def OnEventWrite (sockerr : Int) (r : WriteResult) (pevt : Option Nat) : Option SmartSession :=
  if s.mSock.mStatus = .SOCK_STATUS_CONNECTING then
    if sockerr ≠ 0 then some ((s.withSock s.mSock.close).raise .NETEV_DISCONNECTED)
    else (s.mSock.completeConnection pevt).map (fun k => (s.withSock k).raise .NETEV_CONNECTED)
  else s.procNormalOnWrite r pevt

def OnEventHangup : SmartSession :=
  (s.withSock s.mSock.close).raise .NETEV_DISCONNECTED

end SmartSession

/-- `error` says that `lastSockErrorNo` is not 0 when the listener returns. -/
inductive SessionAction
  | openClient (fd : Option Nat)
  | openChild (fd : Nat) (pevt : Option Nat)
  | openUnixSocket (type : SockType) (fd : Option Nat) (bound : Bool) (pevt : Option Nat)
  | connectIp (fd : Option Nat) (pevt : Option Nat)
  | connectAddr (fd : Option Nat) (cnn : CnnResult) (pevt : Option Nat)
  | sendPacket (buf : List UInt8) (takebuffer mem : Bool) (r : WriteResult) (pevt : Option Nat)
  | reserveWrite (pevt : Option Nat)
  | close
  | OnEventRead
  | readReturn (error : Bool)
  | disconnectReturn (error : Bool)
  | OnEventWrite (sockerr : Int) (r : WriteResult) (pevt : Option Nat)
  | OnEventHangup
deriving DecidableEq, Repr

namespace SmartSession

variable (s : SmartSession)

/-- The result of `socket`, or a descriptor from `accept`: not one that is in use. -/
def fresh (fd : Option Nat) : Bool :=
  fd.all (fun fd => s.mSock.mFd ≠ some fd && s.mSock.mEvt.all (fun e => e.fd ≠ fd))

/-- A write on a descriptor of -1 fails. -/
def writes (r : WriteResult) : Bool :=
  s.mSock.mFd.isSome || r = .error

/-- The task can call a handler. -/
def watched : Bool :=
  s.pc = .elsewhere && s.mSock.mEvt.isSome

def step : SessionAction → Option SmartSession
  | .openClient fd => if s.fresh fd then some (s.openClient fd) else none
  | .openChild fd pevt => if s.fresh (some fd) then s.openChild fd pevt else none
  | .openUnixSocket type fd bound pevt =>
    if s.fresh fd then s.openUnixSocket type fd bound pevt else none
  | .connectIp fd pevt => if s.fresh fd then s.connectIp fd pevt else none
  | .connectAddr fd cnn pevt => if s.fresh fd then s.connectAddr fd cnn pevt else none
  | .sendPacket buf takebuffer mem r pevt =>
    if s.writes r then (s.sendPacket buf takebuffer mem r pevt).map Prod.snd else none
  | .reserveWrite pevt => s.reserveWrite pevt
  | .close => some s.close
  | .OnEventRead =>
    if s.watched then some { s.raise .NETEV_READABLE with pc := .reading } else none
  | .readReturn error =>
    if s.pc = .reading then
      some (if error then { s.raise .NETEV_DISCONNECTED with pc := .disconnecting }
        else { s with pc := .elsewhere })
    else none
  | .disconnectReturn error =>
    if s.pc = .disconnecting then
      some { (if error then s.withSock s.mSock.close else s) with pc := .elsewhere }
    else none
  | .OnEventWrite sockerr r pevt =>
    if s.watched ∧ s.writes r then s.OnEventWrite sockerr r pevt else none
  | .OnEventHangup => if s.watched then some s.OnEventHangup else none

end SmartSession

namespace SmartSession

/-- What a step does. The handlers of `handler` leave the packets alone, and the base socket but
for its `close`. -/
inductive Effect (s : SmartSession) : SessionAction → SmartSession → Prop
  | openClient {fd} (fresh : s.fresh fd = true) : s.Effect (.openClient fd) (s.openClient fd)
  | openChild {fd pevt k} (fresh : s.fresh (some fd) = true)
    (sock : s.mSock.openChildSock fd pevt = some k) : s.Effect (.openChild fd pevt) (s.withSock k)
  | openUnixSocket {type fd bound pevt t} (fresh : s.fresh fd = true)
    (unix : s.openUnixSocket type fd bound pevt = some t) :
    s.Effect (.openUnixSocket type fd bound pevt) t
  | connectIp {fd pevt k} (fresh : s.fresh fd = true)
    (sock : s.mSock.connectIp fd pevt = some k) : s.Effect (.connectIp fd pevt) (s.withSock k)
  | connectAddr {fd cnn pevt k} (fresh : s.fresh fd = true)
    (sock : s.mSock.connectAddr fd cnn pevt = some k) :
    s.Effect (.connectAddr fd cnn pevt) (s.withSock k)
  | sendPacket {buf takebuffer mem r pevt ret t}
    (sent : s.sendPacket buf takebuffer mem r pevt = some (ret, t)) :
    s.Effect (.sendPacket buf takebuffer mem r pevt) t
  | reserveWrite {pevt k} (sock : s.mSock.changeEvent ⟨true, true, true⟩ pevt = some k) :
    s.Effect (.reserveWrite pevt) (s.withSock k)
  | close : s.Effect .close s.close
  | handler {a t} (sock : t.mSock = s.mSock ∨ t.mSock = s.mSock.close)
    (pending : t.pending = s.pending) (conn : t.conn = s.conn)
    (packetConn : t.packetConn = s.packetConn) : s.Effect a t
  | OnEventWrite {sockerr r pevt t} (wrote : s.OnEventWrite sockerr r pevt = some t) :
    s.Effect (.OnEventWrite sockerr r pevt) t

variable {s t : SmartSession} {a : SessionAction}

lemma withSock_conn {k : EdSocket} (h : k.mFd = s.mSock.mFd ∨ k.mFd = none) :
    (s.withSock k).conn = s.conn := by
  refine if_neg (fun hc => ?_)
  rcases h with h | h
  · exact hc.2 h
  · rw [h] at hc
    cases hc.1

lemma step_effect (hs : s.step a = some t) : s.Effect a t := by
  have hclose : (s.withSock s.mSock.close).conn = s.conn :=
    withSock_conn (.inr (EdSocket.close_mFd _))
  cases a with
  | openClient fd =>
    simp only [step, Option.ite_none_right_eq_some, Option.some.injEq] at hs
    obtain ⟨hfresh, rfl⟩ := hs
    exact .openClient hfresh
  | openChild fd pevt =>
    simp only [step, Option.ite_none_right_eq_some] at hs
    obtain ⟨k, hk, rfl⟩ := Option.map_eq_some_iff.mp hs.2
    exact .openChild hs.1 hk
  | openUnixSocket type fd bound pevt =>
    simp only [step, Option.ite_none_right_eq_some] at hs
    exact .openUnixSocket hs.1 hs.2
  | connectIp fd pevt =>
    simp only [step, Option.ite_none_right_eq_some] at hs
    obtain ⟨k, hk, rfl⟩ := Option.map_eq_some_iff.mp hs.2
    exact .connectIp hs.1 hk
  | connectAddr fd cnn pevt =>
    simp only [step, Option.ite_none_right_eq_some] at hs
    obtain ⟨k, hk, rfl⟩ := Option.map_eq_some_iff.mp hs.2
    exact .connectAddr hs.1 hk
  | sendPacket buf takebuffer mem r pevt =>
    simp only [step, Option.ite_none_right_eq_some] at hs
    obtain ⟨⟨ret, u⟩, hu, rfl⟩ := Option.map_eq_some_iff.mp hs.2
    exact .sendPacket hu
  | reserveWrite pevt =>
    obtain ⟨k, hk, rfl⟩ := Option.map_eq_some_iff.mp hs
    exact .reserveWrite hk
  | close =>
    cases hs
    exact .close
  | OnEventRead =>
    simp only [step, Option.ite_none_right_eq_some, Option.some.injEq] at hs
    obtain ⟨-, rfl⟩ := hs
    exact .handler (.inl rfl) rfl rfl rfl
  | readReturn error =>
    simp only [step, Option.ite_none_right_eq_some, Option.some.injEq] at hs
    obtain ⟨-, rfl⟩ := hs
    cases error <;> exact .handler (.inl rfl) rfl rfl rfl
  | disconnectReturn error =>
    simp only [step, Option.ite_none_right_eq_some, Option.some.injEq] at hs
    obtain ⟨-, rfl⟩ := hs
    cases error with
    | false => exact .handler (.inl rfl) rfl rfl rfl
    | true => exact .handler (.inr rfl) rfl hclose rfl
  | OnEventWrite sockerr r pevt =>
    simp only [step, Option.ite_none_right_eq_some] at hs
    exact .OnEventWrite hs.2
  | OnEventHangup =>
    simp only [step, Option.ite_none_right_eq_some, Option.some.injEq] at hs
    obtain ⟨-, rfl⟩ := hs
    exact .handler (.inr rfl) rfl hclose rfl

end SmartSession

namespace EdSmartSocket

variable (s : EdSmartSocket)

/-- A packet that becomes pending is watched for, and other answers leave what is pending. -/
lemma sendPacket_spec (buf : List UInt8) (takebuffer mem : Bool) (r : WriteResult) :
    let (ret, t) := s.sendPacket buf takebuffer mem r
    (ret = .SEND_PENDING → t.interest = ⟨true, true, true⟩) ∧
      (ret ≠ .SEND_PENDING → t.mPendingBuf = s.mPendingBuf) := by
  unfold sendPacket
  dsimp only
  split
  · simp
  · split
    · simp
    · split
      · cases takebuffer <;> cases mem <;> simp [changeEvent]
      · simp

/-- What was pending stays or is gone. -/
lemma procNormalOnWrite_pending (r : WriteResult) :
    (s.procNormalOnWrite r).mPendingBuf = none ∨
      (s.procNormalOnWrite r).mPendingBuf = s.mPendingBuf := by
  unfold procNormalOnWrite
  split
  · rename_i b hb
    dsimp only
    split
    · split
      · exact .inl rfl
      · exact .inr rfl
    · exact .inr rfl
  · rename_i hb
    exact .inr rfl

end EdSmartSocket

def smartSession : System SmartSession SessionAction where
  init s := s = .new
  step := SmartSession.step

end EdNio.Net
