import EdNio.Event.MainLoop
import EdNio.Library.MachineInt

/-!
# `taskProc` and the task timers

The main loop, the handler of `EDM_CLOSE` and what `edEventLoop` and `taskProc` do with the
events of the task after it. A task timer is an `EdEvent` object that the task owns.
-/

namespace EdNio.Event
open MachineInt Transition

inductive ProcPc
  | esMain
  | callMsgClose
  | closed
deriving DecidableEq, Repr

structure TaskProc where
  loop : State
  mEdMsgEvt : Option Addr
  mTimerMap : List (UInt32 × ObjId)
  exit_flag : Bool
  pc : ProcPc

def TaskProc.init : TaskProc := ⟨State.init, none, [], false, .esMain⟩

namespace State

variable (L : Layout) (s : State)

/-- The operations on `EdEvent` objects, in a callback or in the handler of `EDM_CLOSE`. -/
def op : Action → Option State
  | .setFd o fd => if fd ≠ 0 then some (s.setFd o fd) else none
  | .registerEvent o a added =>
    if (s.objs o).mTask ∧ s.canRegister a (s.objs o).mFd added then s.registerEvent L o a added
    else none
  | .changeEvent o a added =>
    if (s.objs o).mTask ∧ s.canRegister a (s.objs o).mFd added then s.changeEvent L o a added
    else none
  | .deregisterEvent o => s.deregisterEvent L o
  | .close o => s.close L o
  | .destroy o => s.destroy L o
  | .sysClose fd => some { s with reg := s.reg.sysClose fd }
  | _ => none

/-- `EdTimer::setUsec` with the descriptor of `timerfd_create`. -/
def setUsec (o : ObjId) (fd : Int) (a : Addr) (added : Bool) : Option State :=
  if (s.objs o).mFd < 0 then
    if s.canRegister a fd added then (s.setFd o fd).registerEvent L o a added else none
  else some s

/-- `EdTimer::kill`. -/
def kill (o : ObjId) : Option State := s.close L o

/-- `delete` of an `EdTimer`. -/
def delete (o : ObjId) : Option State :=
  (s.kill L o).bind (fun s => s.destroy L o)

end State

/-- The object an operation of the user is about. -/
def Action.target : Action → Option ObjId
  | .setFd o _ | .registerEvent o _ _ | .changeEvent o _ _ | .deregisterEvent o | .close o
  | .destroy o => some o
  | _ => none

inductive ProcAction
  | start (a : Addr) (fd : Int) (added : Bool)
  | epoll_wait (fds : List (Int × Events))
  | esMain
  | evtcbReturn
  | exitMsg
  | leaveLoop
  | user (a : Action)
  | setTimer (id : UInt32) (t : ObjId) (fd : Int) (a : Addr) (added : Bool)
  | killTimer (id : UInt32)
  | handlerReturn
deriving DecidableEq, Repr

namespace TaskProc

variable (L : Layout) (x : TaskProc)

/-- The `TaskTimer` objects. -/
def timers : List ObjId := x.mTimerMap.map Prod.snd

def inHandler : Bool :=
  match x.pc, x.loop.pc with
  | .esMain, .evtcb _ _ _ => true
  | .callMsgClose, _ => true
  | _, _ => false

/-- A new `TaskTimer` is constructed in memory that no object is in. -/
def setTimer (id : UInt32) (t : ObjId) (fd : Int) (a : Addr) (added : Bool) : Option TaskProc :=
  match x.mTimerMap.lookup id with
  | some pt => (x.loop.setUsec L pt fd a added).map (fun s => { x with loop := s })
  | none =>
    if x.loop.objs t = .initMembers ∧ t ∉ x.timers then
      (x.loop.setUsec L t fd a added).map (fun s =>
        { x with loop := s, mTimerMap := x.mTimerMap ++ [(id, t)] })
    else none

def killTimer (id : UInt32) : Option TaskProc :=
  match x.mTimerMap.lookup id with
  | some p =>
    ((x.loop.kill L p).bind (fun s => s.delete L p)).map (fun s =>
      { x with loop := s, mTimerMap := x.mTimerMap.filter (fun entry => entry.1 != id) })
  | none => some x

def step : ProcAction → Option TaskProc
  | .start a fd added =>
    if x.pc = .esMain ∧ x.loop.pc = .start ∧ x.loop.canRegister a fd added then
      (x.loop.reg.regEdEvent L a fd .task added).map (fun (pevt, r) =>
        { x with loop := { x.loop with reg := r, pc := .epoll_wait }, mEdMsgEvt := pevt })
    else none
  | .epoll_wait fds =>
    if x.pc = .esMain ∧ x.exit_flag = false then
      (x.loop.step L (.epoll_wait fds)).map (fun s => { x with loop := s })
    else none
  | .esMain =>
    if x.pc = .esMain then (x.loop.step L .esMain).map (fun s => { x with loop := s }) else none
  | .evtcbReturn =>
    if x.pc = .esMain then (x.loop.step L .evtcbReturn).map (fun s => { x with loop := s })
    else none
  -- `EDM_EXIT` is dispatched in the callback of `mEdMsgEvt`
  | .exitMsg =>
    match x.loop.pc with
    | .evtcb _ e _ => if x.mEdMsgEvt = some e.ptr then some { x with exit_flag := true } else none
    | _ => none
  | .leaveLoop =>
    if x.pc = .esMain ∧ x.loop.pc = .epoll_wait ∧ x.exit_flag = true then
      some { x with pc := .callMsgClose }
    else none
  | .user a =>
    if x.inHandler = true ∧ ∀ o ∈ a.target, o ∉ x.timers then
      (x.loop.op L a).map (fun s => { x with loop := s })
    else none
  | .setTimer id t fd a added => if x.inHandler then x.setTimer L id t fd a added else none
  | .killTimer id => if x.inHandler then x.killTimer L id else none
  | .handlerReturn => if x.pc = .callMsgClose then some { x with pc := .closed } else none

/-- The end of `edEventLoop`, after `callMsgClose`; none for its `assert(0)`. -/
def edEventLoop : Option TaskProc :=
  x.mEdMsgEvt.bind (fun pevt =>
    (x.loop.reg.deregEdEvent L pevt).bind (fun r =>
      (r.cleanUpEventResource L ((r.lists .mDummyEvtList).length + 1)).bind (fun r =>
        if 0 < toI32 (r.lists .mEvtList).length then none
        else some { x with loop := { x.loop with reg := r } })))

/-- The loop of `cleanupAllTimer` over `mTimerMap`, in the order of its iterator. -/
def killAll : List ObjId → State → Option State
  | [], s => some s
  | pt :: rest, s => ((s.kill L pt).bind (fun s => s.delete L pt)).bind (killAll rest)

def cleanupAllTimer (order : List ObjId) : Option TaskProc :=
  (killAll L order x.loop).map (fun s => { x with loop := s, mTimerMap := [] })

/-- `close` of the epoll descriptor. -/
def esClose : TaskProc :=
  { x with loop := { x.loop with reg := { x.loop.reg with interest := fun _ => none } } }

/-- `taskProc` after `callMsgClose`; `closeMsg` leaves the events alone. -/
def taskProcEnd (order : List ObjId) : Option TaskProc :=
  ((x.edEventLoop L).bind (fun x => x.cleanupAllTimer L order)).map esClose

end TaskProc

def taskProc (L : Layout) : System TaskProc ProcAction where
  init x := x = TaskProc.init
  step x := x.step L

/-- No `EdEvent` object of the user has an event. -/
def UserClosed (x : TaskProc) : Prop :=
  ∀ o, o ∉ x.timers → (x.loop.objs o).mEvt = none

/-- All events have been deregistered and freed. -/
def Released (r : Registry) : Prop :=
  r.evt_alloc_cnt = 0 ∧ ∀ a, r.heap a = none

end EdNio.Event
