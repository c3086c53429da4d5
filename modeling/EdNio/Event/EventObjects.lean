import EdNio.Library.Transition
import Mathlib.Logic.Function.Basic

/-!
# Event objects on their task

The classes over `EdEvent` in `MODE_EDEV`, with the members that tell what an object watches, and
the interest list of the task. A failed assertion or a call through NULL ends the process.
-/

namespace EdNio.Event.Objects
open Transition

def EVT_READ : UInt32 := 0x1
def EVT_WRITE : UInt32 := 0x4
def EVT_HANGUP : UInt32 := 0x2000

/-- `user` is the object that `esevent_cb` calls. -/
structure Edevt where
  fd : Int
  user : Nat
deriving DecidableEq, Repr

/-- An entry of the interest list of epoll. -/
structure Watch where
  ptr : Edevt
  events : UInt32
deriving DecidableEq, Repr

/-- `mTask` and `mContext` say that the pointers are not NULL; they lead to the task of the
object then, and to its context. -/
structure EdEvent where
  mFd : Int
  mIsReg : Bool
  mEvt : Option Edevt
  mTask : Bool
  mContext : Bool
deriving DecidableEq, Repr

/-- The classes over `EdEvent`, with the descriptors they have besides `mFd`. -/
inductive Subclass
  | EdSocket
  | EdTimer
  | EdEventFd
  | EdSignalFd
  | EdPipe (mRecvFd mSendFd : Int)
  | EdMq (mMqd : Int)
deriving DecidableEq, Repr

structure Object extends EdEvent where
  cls : Subclass
deriving DecidableEq, Repr

/-- The constructor; `mContext` is the context of the thread that runs it. -/
def Object.new (mContext : Bool) (cls : Subclass) : Object where
  mFd := -1
  mIsReg := false
  mEvt := none
  mTask := false
  mContext := mContext
  cls := cls

/-- The constructors set the descriptors to -1. -/
def Subclass.IsNew : Subclass → Prop
  | .EdPipe mRecvFd mSendFd => mRecvFd = -1 ∧ mSendFd = -1
  | .EdMq mMqd => mMqd = -1
  | _ => True

/-- What `close` and `kill` look at. -/
def Object.isOpen (x : Object) : Bool :=
  match x.cls with
  | .EdPipe mRecvFd _ => mRecvFd ≠ -1
  | .EdMq mMqd => 0 < mMqd
  | _ => 0 ≤ x.mFd

/-- A task with its objects, the open descriptors of the process and what epoll watches. -/
structure OwnTask where
  objs : Nat → Object
  opened : Int → Bool
  interest : Int → Option Watch

namespace OwnTask

variable (s : OwnTask)

def setObj (o : Nat) (x : Object) : OwnTask :=
  { s with objs := Function.update s.objs o x }

/-- A new descriptor, none for -1. -/
def sysOpen (fd : Int) : OwnTask :=
  if 0 ≤ fd then { s with opened := Function.update s.opened fd true } else s

def sysClose (fd : Int) : OwnTask :=
  { s with
    opened := Function.update s.opened fd false
    interest := Function.update s.interest fd none }

/-- `EPOLL_CTL_ADD` takes an open descriptor that is not watched. -/
def canAdd (fd : Int) : Bool :=
  s.opened fd && (s.interest fd).isNone

/-- `room` says that the kernel has room for one more. -/
def regEdEvent (fd : Int) (events : UInt32) (user : Nat) (room : Bool) :
    Option Edevt × OwnTask :=
  let pevt := ⟨fd, user⟩
  if s.canAdd fd ∧ room then
    (some pevt, { s with interest := Function.update s.interest fd (some ⟨pevt, events⟩) })
  else (none, s)

/-- `EPOLL_CTL_DEL` is asserted to succeed. -/
def deregEdEvent (pevt : Edevt) : Option OwnTask :=
  if (s.interest pevt.fd).isSome then
    some { s with interest := Function.update s.interest pevt.fd none }
  else none

def changeEdEvent (pevt : Edevt) (events : UInt32) : OwnTask :=
  if (s.interest pevt.fd).isSome then
    { s with interest := Function.update s.interest pevt.fd (some ⟨pevt, events⟩) }
  else s

def registerEvent (o : Nat) (flag : UInt32) (room : Bool) : Option OwnTask :=
  let x := s.objs o
  if x.mIsReg then some s
  else if x.mContext = false then none
  else if x.mEvt = none then
    if x.mTask then
      let (pevt, s) := s.regEdEvent x.mFd flag o room
      some (s.setObj o { x with mEvt := pevt, mIsReg := true })
    else none
  else some s

/-- The assertion on `mTask` is the first thing that it does. -/
def deregisterEvent (o : Nat) : Option OwnTask :=
  let x := s.objs o
  if x.mTask = false then none
  else if x.mIsReg = false then some s
  else if x.mContext = false then none
  else
    let dereg := match x.mEvt with
      | some pevt => s.deregEdEvent pevt
      | none => some s
    dereg.map (fun s => s.setObj o { x with mEvt := none, mIsReg := false, mTask := false })

def changeEvent (o : Nat) (flags : UInt32) (room : Bool) : Option OwnTask :=
  let x := s.objs o
  if x.mContext = false then none
  else
    match x.mEvt with
    | some pevt => if x.mTask then some (s.changeEdEvent pevt flags) else none
    | none => s.registerEvent o flags room

def setContext (o : Nat) (ctx : Bool) : OwnTask :=
  s.setObj o { s.objs o with mContext := ctx }

def setDefaultContext (o : Nat) : OwnTask := s.setContext o true

def setFd (o : Nat) (fd : Int) : OwnTask :=
  s.setObj o { s.objs o with mFd := fd, mContext := true, mTask := true }

def setClass (o : Nat) (cls : Subclass) : OwnTask :=
  s.setObj o { s.objs o with cls := cls }

/-- The new descriptor `fd` of an object is watched. -/
def openFd (o : Nat) (fd : Int) (flag : UInt32) (room : Bool) : Option OwnTask :=
  ((s.sysOpen fd).setFd o fd).registerEvent o flag room

/-- The descriptor of an object is watched no more, and closed. -/
def closeFd (o : Nat) : Option OwnTask :=
  let x := s.objs o
  if 0 ≤ x.mFd then
    (s.deregisterEvent o).map (fun t =>
      (t.sysClose x.mFd).setObj o { t.objs o with mFd := -1 })
  else some s

end OwnTask

variable (s : OwnTask) (o : Nat)

def EdSocket.openSock (fd : Int) : OwnTask :=
  ((s.sysOpen fd).setDefaultContext o).setFd o fd

def EdSocket.openChildSock (fd : Int) (room : Bool) : Option OwnTask :=
  (s.setDefaultContext o).openFd o fd (EVT_READ ||| EVT_HANGUP) room

def EdSocket.close : Option OwnTask := s.closeFd o

/-- A timer opens its descriptor when it is set for the first time; `fd` is -1 when that fails. -/
def EdTimer.setUsec (fd : Int) (room : Bool) : Option OwnTask :=
  if (s.objs o).mFd < 0 then s.openFd o fd EVT_READ room else some s

def EdTimer.kill : Option OwnTask := s.closeFd o

def EdEventFd.open (fd : Int) (room : Bool) : Option OwnTask :=
  if 0 ≤ fd then s.openFd o fd EVT_READ room else some s

def EdEventFd.close : Option OwnTask := s.closeFd o

def EdSignalFd.setSignal (fd : Int) (room : Bool) : Option OwnTask :=
  if fd < 0 then some s else s.openFd o fd EVT_READ room

def EdSignalFd.close : Option OwnTask := s.closeFd o

/-- `fds` is what `pipe` gives. -/
def EdPipe.open (fds : Option (Int × Int)) (room : Bool) : Option OwnTask :=
  match fds with
  | some (mRecvFd, mSendFd) =>
    let t := (s.sysOpen mSendFd).setClass o (.EdPipe mRecvFd mSendFd)
    let t := if (t.objs o).mContext = false then t.setDefaultContext o else t
    t.openFd o mRecvFd EVT_READ room
  | none => some s

/-- `mFd` keeps its value. -/
def EdPipe.close (mRecvFd mSendFd : Int) : Option OwnTask :=
  if mRecvFd ≠ -1 then
    (s.deregisterEvent o).map (fun t =>
      ((t.sysClose mRecvFd).sysClose mSendFd).setClass o (.EdPipe (-1) (-1)))
  else some s

/-- A queue that is open is closed first, and not deregistered. -/
def EdMq.mqClose (mMqd : Int) : OwnTask := if 0 < mMqd then s.sysClose mMqd else s

def EdMq.open (mMqd fd : Int) (creat room : Bool) : Option OwnTask :=
  let t := (EdMq.mqClose s mMqd).setClass o (.EdMq fd)
  if fd < 0 then some t else t.openFd o fd (if creat then EVT_READ else 0) room

/-- `mFd` keeps its value. -/
def EdMq.close (mMqd : Int) : Option OwnTask :=
  if 0 < mMqd then
    (s.deregisterEvent o).map (fun t => (t.sysClose mMqd).setClass o (.EdMq 0))
  else some s

/-- The `close` or `kill` of the class. -/
def OwnTask.close : Option OwnTask :=
  match (s.objs o).cls with
  | .EdSocket => EdSocket.close s o
  | .EdTimer => EdTimer.kill s o
  | .EdEventFd => EdEventFd.close s o
  | .EdSignalFd => EdSignalFd.close s o
  | .EdPipe mRecvFd mSendFd => EdPipe.close s o mRecvFd mSendFd
  | .EdMq mMqd => EdMq.close s o mMqd

/-- The public calls that set one of the members. `fd` and `fds` are new descriptors, and the
other calls of `EdSocket` are made of those here. -/
inductive Call
  | setFd (fd : Int)
  | setContext (ctx : Bool)
  | registerEvent (flag : UInt32) (room : Bool)
  | deregisterEvent
  | changeEvent (flags : UInt32) (room : Bool)
  | openSock (fd : Int)
  | openChildSock (fd : Int) (room : Bool)
  | setUsec (fd : Int) (room : Bool)
  | openEventFd (fd : Int) (room : Bool)
  | setSignal (fd : Int) (room : Bool)
  | openPipe (fds : Option (Int × Int)) (room : Bool)
  | openMq (fd : Int) (creat room : Bool)
  | close
deriving DecidableEq, Repr

/-- A call on an object, or a descriptor that the program opens or closes itself. -/
inductive Action
  | call (o : Nat) (c : Call)
  | sysOpen (fd : Int)
  | sysClose (fd : Int)
deriving DecidableEq, Repr

namespace OwnTask

/-- The result of a system call: -1 or a descriptor that is not open. -/
def newFd (s : OwnTask) (fd : Int) : Bool := fd = -1 || 0 ≤ fd && !s.opened fd

/-- None when the class does not have the call, or the process ends in it. -/
def call : Call → Option OwnTask
  | .setFd fd => some (s.setFd o fd)
  | .setContext ctx => some (s.setContext o ctx)
  | .registerEvent flag room => s.registerEvent o flag room
  | .deregisterEvent => s.deregisterEvent o
  | .changeEvent flags room => s.changeEvent o flags room
  | .openSock fd =>
    if (s.objs o).cls = .EdSocket ∧ s.newFd fd then some (EdSocket.openSock s o fd) else none
  | .openChildSock fd room =>
    if (s.objs o).cls = .EdSocket ∧ s.newFd fd ∧ 0 ≤ fd then EdSocket.openChildSock s o fd room
    else none
  | .setUsec fd room =>
    if (s.objs o).cls = .EdTimer ∧ s.newFd fd then EdTimer.setUsec s o fd room else none
  | .openEventFd fd room =>
    if (s.objs o).cls = .EdEventFd ∧ s.newFd fd then EdEventFd.open s o fd room else none
  | .setSignal fd room =>
    if (s.objs o).cls = .EdSignalFd ∧ s.newFd fd then EdSignalFd.setSignal s o fd room else none
  | .openPipe fds room =>
    match (s.objs o).cls with
    | .EdPipe _ _ =>
      if fds.all (fun (r, w) => s.newFd r && s.newFd w && 0 ≤ r && 0 ≤ w && r ≠ w) then
        EdPipe.open s o fds room
      else none
    | _ => none
  | .openMq fd creat room =>
    match (s.objs o).cls with
    | .EdMq mMqd =>
      if (EdMq.mqClose s mMqd).newFd fd then EdMq.open s o mMqd fd creat room else none
    | _ => none
  | .close => s.close o

def step : Action → Option OwnTask
  | .call o c => s.call o c
  | .sysOpen fd => if s.newFd fd then some (s.sysOpen fd) else none
  | .sysClose fd => some (s.sysClose fd)

end OwnTask

/-- A task whose objects are new. -/
def ownTask : System OwnTask Action where
  init s := (∀ o, ∃ mContext cls, cls.IsNew ∧ s.objs o = .new mContext cls) ∧
    (∀ fd < 0, s.opened fd = false) ∧ s.interest = fun _ => none
  step := OwnTask.step

end EdNio.Event.Objects
