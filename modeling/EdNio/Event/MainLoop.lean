import EdNio.Event.Registry
import EdNio.Library.Transition

/-!
# The main loop of a task

`esMain` in `MODE_EDEV` with the `EdEvent` objects of the task. A callback may use any
object in any way, so it is any sequence of the operations of `EdEvent`, and ends when
it wants. The loop runs after `edEventLoop` has registered `mMsgFd`.
-/

namespace EdNio.Event
open Transition

abbrev ObjId := Nat

/-- `mTask` says that the pointer to the task is not NULL. -/
structure EdEvent where
  mFd : Int
  mIsReg : Bool
  mEvt : Option Addr
  mTask : Bool
deriving DecidableEq, Repr

def EdEvent.initMembers : EdEvent := ⟨-1, false, none, false⟩

/-- The events of an epoll entry. -/
structure Events where
  EPOLLIN : Bool
  EPOLLRDHUP : Bool
  EPOLLHUP : Bool
  EPOLLERR : Bool
  EPOLLOUT : Bool
deriving DecidableEq, Repr

/-- The parts of the body of `esMain`, which all begin by a look at `isReg`. -/
inductive Stage
  | EVT_READ
  | EVT_HANGUP
  | EVT_WRITE
  | release
deriving DecidableEq, Repr

def Stage.next : Stage → Option Stage
  | .EVT_READ => some .EVT_HANGUP
  | .EVT_HANGUP => some .EVT_WRITE
  | .EVT_WRITE => some .release
  | .release => none

def Events.calls (ev : Events) : Stage → Bool
  | .EVT_READ => ev.EPOLLIN
  | .EVT_HANGUP => ev.EPOLLRDHUP || ev.EPOLLHUP || ev.EPOLLERR
  | .EVT_WRITE => ev.EPOLLOUT
  | .release => false

/-- An entry of the array given by `epoll_wait`; `birth` is that of the event it points to
then. -/
structure Entry where
  ptr : Addr
  birth : Nat
  events : Events
deriving DecidableEq, Repr

/-- `fault` stands for an access to freed memory, the `assert(0)` on a descriptor 0 and a
`cleanUpEventResource` that does not end. -/
inductive Pc
  | start
  | epoll_wait
  | entry (e : Entry) (rest : List Entry)
  | check (st : Stage) (e : Entry) (rest : List Entry)
  | evtcb (st : Stage) (e : Entry) (rest : List Entry)
  | cleanUp
  | fault
deriving DecidableEq, Repr

/-- A call of `evtcb`, and whether its event had been deregistered. -/
structure Call where
  birth : Nat
  stage : Stage
  deregistered : Bool
deriving DecidableEq, Repr

structure State where
  reg : Registry
  objs : ObjId → EdEvent
  pc : Pc
  calls : List Call

namespace State

variable (L : Layout) (s : State)

def init : State where
  reg := .empty
  objs _ := .initMembers
  pc := .start
  calls := []

def setObj (o : ObjId) (x : EdEvent) : State :=
  { s with objs := Function.update s.objs o x }

/-- `a` is the address of a new event. -/
def registerEvent (o : ObjId) (a : Addr) (added : Bool) : Option State :=
  let x := s.objs o
  if x.mIsReg then some s
  else if x.mEvt = none then
    (s.reg.regEdEvent L a x.mFd (.obj o) added).map (fun (pevt, r) =>
      { s with reg := r }.setObj o { x with mEvt := pevt, mIsReg := true })
  else some s

/-- The assertion on `mTask` is left out, so that calls that it ends are runs here too. -/
def deregisterEvent (o : ObjId) : Option State :=
  let x := s.objs o
  if x.mIsReg = false then some s
  else
    match x.mEvt with
    | some a => (s.reg.deregEdEvent L a).map (fun r =>
        { s with reg := r }.setObj o { x with mEvt := none, mIsReg := false, mTask := false })
    | none => some (s.setObj o { x with mIsReg := false, mTask := false })

def changeEvent (o : ObjId) (a : Addr) (added : Bool) : Option State :=
  match (s.objs o).mEvt with
  | some pevt => (s.reg.changeEdEvent pevt).map (fun r => { s with reg := r })
  | none => s.registerEvent L o a added

def setFd (o : ObjId) (fd : Int) : State :=
  s.setObj o { s.objs o with mFd := fd, mTask := true }

/-- The `close` of the event objects that own a descriptor. -/
def close (o : ObjId) : Option State :=
  let x := s.objs o
  if 0 ≤ x.mFd then
    (s.deregisterEvent L o).map (fun s =>
      { s with reg := s.reg.sysClose x.mFd }.setObj o { s.objs o with mFd := -1 })
  else some s

/-- The destructor; the object may be constructed again. -/
def destroy (o : ObjId) : Option State :=
  let s? := if (s.objs o).mEvt.isSome then s.deregisterEvent L o else some s
  s?.map (fun s => s.setObj o .initMembers)

def nextEntry : List Entry → Pc
  | [] => .cleanUp
  | e :: rest => .entry e rest

def nextStage (st : Stage) (e : Entry) (rest : List Entry) : Pc :=
  match st.next with
  | some st => .check st e rest
  | none => nextEntry rest

def esMain : Option State :=
  match s.pc with
  | .entry e rest =>
    match s.reg.heap e.ptr with
    | none => some { s with pc := .fault }
    | some p => some { s with pc := if p.fd = 0 then .fault else .check .EVT_READ e rest }
  | .check st e rest =>
    match s.reg.heap e.ptr with
    | none => some { s with pc := .fault }
    | some p =>
      if p.isReg = false then some { s with pc := nextEntry rest }
      else if e.events.calls st then
        some { s with
          pc := .evtcb st e rest
          calls := s.calls ++
            [⟨p.birth, st, s.reg.deregistered.any (fun x => x.1 = p.birth)⟩] }
      else some { s with pc := nextStage st e rest }
  | .cleanUp =>
    match s.reg.cleanUpEventResource L ((s.reg.lists .mDummyEvtList).length + 1) with
    | none => some { s with pc := .fault }
    | some r => some { s with reg := r, pc := .epoll_wait }
  | _ => none

/-- The array entry of a watched descriptor. -/
def report (fd : Int × Events) : Option Entry :=
  (s.reg.interest fd.1).map (fun a =>
    ⟨a, ((s.reg.heap a).map Edevt.birth).getD 0, fd.2⟩)

end State

inductive Action
  | start (a : Addr) (fd : Int) (added : Bool)
  | epoll_wait (fds : List (Int × Events))
  | esMain
  | evtcbReturn
  | setFd (o : ObjId) (fd : Int)
  | registerEvent (o : ObjId) (a : Addr) (added : Bool)
  | changeEvent (o : ObjId) (a : Addr) (added : Bool)
  | deregisterEvent (o : ObjId)
  | close (o : ObjId)
  | destroy (o : ObjId)
  | sysClose (fd : Int)
deriving DecidableEq, Repr

namespace State

variable (L : Layout) (s : State)

/-- An operation of a callback. -/
def user (s' : Option State) : Option State :=
  match s.pc with
  | .evtcb _ _ _ => some (s'.getD { s with pc := .fault })
  | _ => none

/-- The allocator gives an address that is not in use, and epoll adds only a valid descriptor
that it does not watch yet. -/
def canRegister (a : Addr) (fd : Int) (added : Bool) : Prop :=
  s.reg.heap a = none ∧ (added = true → 0 < fd ∧ s.reg.interest fd = none)

instance (a : Addr) (fd : Int) (added : Bool) : Decidable (s.canRegister a fd added) :=
  inferInstanceAs (Decidable (_ ∧ _))

/-- Registering an object that has no task is a call through NULL; the process ends there. A
descriptor 0 ends it in `esMain`. -/
def step : Action → Option State
  | .start a fd added =>
    if s.pc = .start ∧ s.canRegister a fd added then
      (s.reg.regEdEvent L a fd .task added).map (fun (_, r) =>
        { s with reg := r, pc := .epoll_wait })
    else none
  | .epoll_wait fds =>
    if s.pc = .epoll_wait then
      (fds.mapM s.report).map (fun es =>
        { s with reg := { s.reg with batch := s.reg.batch + 1 }, pc := nextEntry es })
    else none
  | .esMain => s.esMain L
  | .evtcbReturn =>
    match s.pc with
    | .evtcb st e rest => some { s with pc := nextStage st e rest }
    | _ => none
  | .setFd o fd => if fd ≠ 0 then s.user (some (s.setFd o fd)) else none
  | .registerEvent o a added =>
    if (s.objs o).mTask ∧ s.canRegister a (s.objs o).mFd added then
      s.user (s.registerEvent L o a added)
    else none
  | .changeEvent o a added =>
    if (s.objs o).mTask ∧ s.canRegister a (s.objs o).mFd added then
      s.user (s.changeEvent L o a added)
    else none
  | .deregisterEvent o => s.user (s.deregisterEvent L o)
  | .close o => s.user (s.close L o)
  | .destroy o => s.user (s.destroy L o)
  | .sysClose fd => s.user (some { s with reg := s.reg.sysClose fd })

end State

def mainLoop (L : Layout) : System State Action where
  init s := s = State.init
  step := State.step L

end EdNio.Event
