import EdNio.Library.MachineInt
import EdNio.Library.Transition
import EdNio.Task.Message
import Mathlib.Logic.Function.Basic

/-!
# The message queue of a task

The threads that call `postEdMsg` and `sendEdMsg`, and the task thread in
`msgevent_cb`/`dispatchMsgs` and `closeMsg`, as one transition system. A step is the
work between two points where another thread can interfere: a section under
`mMsgMutex` is one step that needs the mutex free, except in `closeMsg`, which keeps
the mutex while it waits for the mutexes of its senders. The eventfd is a counter.

The fields after `seed_handle` record the history of the run and are read by no step.
-/

namespace EdNio.Task
open MachineInt Transition

inductive Outcome
  | refused
  | queueFull
  | posted (ret : Int)
  | replied (result : Int)
  | sendError
deriving DecidableEq, Repr

def Outcome.ret : Outcome → Int
  | .refused => -1
  | .queueFull => -1
  | .posted ret => ret
  | .replied result => result
  | .sendError => -1

/-- Where a call stands. `pushed` is between `mMsgMutex.unlock()` and the eventfd write
of `sendEdMsg`, `written` is before `cv.wait`. -/
inductive CallPc
  | called
  | pushed
  | written
  | waiting
  | woken
  | returned (o : Outcome)
deriving DecidableEq, Repr

inductive Holder
  | caller
  | task
deriving DecidableEq, Repr

/-- An activation of `postEdMsg`/`sendEdMsg`; `result` and `mtx` are the locals of
`sendEdMsg` that its message points to. -/
structure Call where
  args : CallArgs
  pc : CallPc
  result : Int
  mtx : Option Holder
deriving DecidableEq, Repr

def Call.leave (o : Outcome) (k : Call) : Call :=
  { k with pc := .returned o }

/-- `sendEdMsg` has locked its `mtx` and appended its message. -/
def Call.push (k : Call) : Call :=
  { k with pc := .pushed, result := 0, mtx := some .caller }

/-- Effect of `notify_one` on the call that owns the condition variable. -/
def Call.wake (k : Call) : Call :=
  if k.pc = .waiting then { k with pc := .woken } else k

inductive Target
  | onEventProc
  | listener (handle : UInt32)
deriving DecidableEq, Repr

inductive HandStage
  | popped
  | found (pinfo : Option UInt32)
  | running (t : Target)
  | handled
  | locking
  | locked
  | notified
  | recycling
deriving DecidableEq, Repr

inductive DrainStage
  | locking
  | locked
  | notified
deriving DecidableEq, Repr

/-- Where the task thread stands. `loop n` is the head of the loop of `dispatchMsgs` with
`n` iterations left. -/
inductive TaskPc
  | created
  | idle
  | loop (left : Nat)
  | hand (slot : Slot) (left : Nat) (stage : HandStage)
  | exited
  | draining
  | drain (slot : Slot) (stage : DrainStage)
  | closed
deriving DecidableEq, Repr

structure ViewInfo where
  handle : UInt32
  pTask : Nat
  lis : Nat
deriving DecidableEq, Repr

/-- A handler started on the message posted by `call`, and saw `view`. -/
structure Delivery where
  call : CallId
  target : Target
  view : View
deriving DecidableEq, Repr

structure State where
  mMsgFd : Int
  eventfd : Nat
  mMsgMutex : Bool
  mQuedMsgs : List Slot
  mEmptyMsgs : List Slot
  msg : Slot → EdMsg
  fresh : Slot
  exit_flag : Bool
  pc : TaskPc
  calls : List Call
  gViewMap : UInt32 → Option ViewInfo
  seed_handle : UInt32
  /-- the call that filled a slot last -/
  owner : Slot → CallId
  /-- calls in the order of their `push_back` -/
  accepted : List CallId
  /-- messages popped by `dispatchMsgs`, in order -/
  dispatched : List CallId
  /-- messages popped by `closeMsg`, in order -/
  drained : List CallId
  /-- messages whose handling by `dispatchMsgs` is over -/
  finished : List CallId
  delivered : List Delivery
  /-- calls of `setSendMsgResult` made by handlers, latest first -/
  stored : List (CallId × Int)
  /-- the branch `unexpected msg que error` was taken -/
  queError : Bool

def State.init : State where
  mMsgFd := -1
  eventfd := 0
  mMsgMutex := false
  mQuedMsgs := []
  mEmptyMsgs := []
  msg := fun _ => EdMsg.zero
  fresh := 0
  exit_flag := false
  pc := .created
  calls := []
  gViewMap := fun _ => none
  seed_handle := 0
  owner := fun _ => 0
  accepted := []
  dispatched := []
  drained := []
  finished := []
  delivered := []
  stored := []
  queError := false

namespace State

variable (s : State)

/-- `EdObjList::size` of a list: the `u32` count returned as an `int`. -/
def size (l : List Slot) : Int := toI32 l.length

def allocMsgObj (mMaxMsqQueSize : Int) : Option (Slot × State) :=
  match s.mEmptyMsgs with
  | slot :: rest => some (slot, { s with mEmptyMsgs := rest })
  | [] =>
    if toI32 (size s.mEmptyMsgs + size s.mQuedMsgs) < mMaxMsqQueSize then
      some (s.fresh,
        { s with fresh := s.fresh + 1, msg := Function.update s.msg s.fresh EdMsg.zero })
    else none

def enqueue (c : CallId) (slot : Slot) (m : EdMsg) : State :=
  { s with
    msg := Function.update s.msg slot m
    mQuedMsgs := s.mQuedMsgs ++ [slot]
    owner := Function.update s.owner slot c
    accepted := s.accepted ++ [c] }

/-- `write(mMsgFd, &t, 8)` with `t` 1. -/
def writeEventfd : Int × State :=
  if 0 ≤ s.mMsgFd then (8, { s with eventfd := s.eventfd + 1 }) else (-1, s)

def updCall (c : CallId) (f : Call → Call) : State :=
  { s with calls := s.calls.modify c f }

def callPc (c : CallId) : Option CallPc := s.calls[c]?.map Call.pc

def callMtx (c : CallId) : Option (Option Holder) := s.calls[c]?.map Call.mtx

def postEdMsg (mMaxMsqQueSize : Int) (c : CallId) (a : CallArgs) : State :=
  if s.mMsgFd < 0 then s.updCall c (Call.leave .refused)
  else
    match s.allocMsgObj mMaxMsqQueSize with
    | some (slot, t) =>
      let (ret, t) := (t.enqueue c slot ((t.msg slot).fillPost a)).writeEventfd
      t.updCall c (Call.leave (.posted (if ret = 8 then 0 else -2)))
    | none => s.updCall c (Call.leave .queueFull)

/-- `sendEdMsg` up to `mMsgMutex.unlock()`; its own `mtx` stays locked. -/
def sendEdMsg (mMaxMsqQueSize : Int) (c : CallId) (a : CallArgs) : State :=
  if s.mMsgFd < 0 then s.updCall c (Call.leave .refused)
  else
    match s.allocMsgObj mMaxMsqQueSize with
    | some (slot, t) =>
      (t.enqueue c slot ((t.msg slot).fillSend c a)).updCall c Call.push
    | none => s.updCall c (Call.leave .queueFull)

/-- The eventfd write of `sendEdMsg` and the test of its result. -/
def sendWrite (c : CallId) : State :=
  let (ret, t) := s.writeEventfd
  if ret = 8 then t.updCall c (fun k => { k with pc := .written })
  else t.updCall c (fun k => { k with pc := .returned .sendError, mtx := none })

/-- `mQuedMsgs.pop_front()` in `dispatchMsgs`, with `left` iterations after this one. -/
def popMsg (left : Nat) : State :=
  match s.mQuedMsgs with
  | slot :: rest =>
    { s with
      mQuedMsgs := rest
      pc := .hand slot left .popped
      dispatched := s.dispatched ++ [s.owner slot] }
  | [] => { s with pc := .idle, queError := true }

def deliver (slot : Slot) (left : Nat) (t : Target) : State :=
  { s with
    pc := .hand slot left (.running t)
    delivered := s.delivered ++ [⟨s.owner slot, t, (s.msg slot).view⟩] }

/-- The handler has returned, or there was none. -/
def finish (slot : Slot) (left : Nat) : State :=
  { s with pc := .hand slot left .handled, finished := s.finished ++ [s.owner slot] }

/-- The choice of a handler in `dispatchMsgs`. -/
def branch (slot : Slot) (left : Nat) : State :=
  if (s.msg slot).msgid = EDM_EXIT then { s with exit_flag := true }.finish slot left
  else if (s.msg slot).taskque_handle = 0 then s.deliver slot left .onEventProc
  else
    let h := (s.msg slot).taskque_handle
    { s with pc := .hand slot left (.found (if (s.gViewMap h).isSome then some h else none)) }

/-- `*msg.psend_result = code` if `msg.sync`. -/
def setSendMsgResult (slot : Slot) (code : Int) : State :=
  { s with
    calls :=
      if (s.msg slot).sync ≠ 0 then
        match (s.msg slot).psend_result with
        | some c => s.calls.modify c (fun k => { k with result := code })
        | none => s.calls
      else s.calls }

def closeFd : State :=
  { s with mMsgMutex := true, mMsgFd := if 0 ≤ s.mMsgFd then -1 else s.mMsgFd, pc := .draining }

/-- The loop on `mEmptyMsgs` in `closeMsg`, and `mMsgMutex.unlock()`. -/
def freeEmpty : State :=
  { s with mEmptyMsgs := [], mMsgMutex := false, pc := .closed }

/-- `closeMsg` up to the loop on `mQuedMsgs`, or to its end if that loop is skipped. -/
def closeMsg : State :=
  if 0 < size s.mQuedMsgs then s.closeFd else s.closeFd.freeEmpty

/-- `mQuedMsgs.pop_front()` in `closeMsg`. -/
def drainPop (slot : Slot) (rest : List Slot) : State :=
  let t := { s with mQuedMsgs := rest, drained := s.drained ++ [s.owner slot] }
  if (s.msg slot).sync ≠ 0 then { t with pc := .drain slot .locking }
  else { t with mEmptyMsgs := s.mEmptyMsgs ++ [slot] }

def nextHandle : UInt32 :=
  if s.seed_handle + 1 = 0 then s.seed_handle + 2 else s.seed_handle + 1

def createTaskMsgQue (pTask lis : Nat) : State :=
  let h := s.nextHandle
  { s with seed_handle := h, gViewMap := Function.update s.gViewMap h (some ⟨h, pTask, lis⟩) }

def destroyTaskMsgQue (handle : UInt32) : State :=
  { s with gViewMap := Function.update s.gViewMap handle none }

end State

/-- The steps. Those with a `CallId` are made by the thread of that call, those on queue
handles by any thread, the others by the task thread. -/
inductive Action
  | initMsg (fd : Int)
  | call (a : CallArgs)
  | enter (c : CallId)
  | write (c : CallId)
  | wait (c : CallId)
  | spuriousWake (c : CallId)
  | resume (c : CallId)
  | createTaskMsgQue (pTask lis : Nat)
  | destroyTaskMsgQue (handle : UInt32)
  | msgevent_cb
  | popMsg
  | endLoop
  | branch
  | invoke
  | setSendMsgResult (code : Int)
  | editMsg (v : View)
  | handlerReturn
  | checkSync
  | lockMtx
  | notify
  | unlockMtx
  | recycle
  | leaveLoop
  | closeMsg
  | drainPop
  | drainLock
  | drainNotify
  | drainUnlock
  | drainEnd
deriving DecidableEq, Repr

/-- Lock the `mtx` a message points to, if it is free, and go on to `pc`. -/
def State.lockPmtx (s : State) (slot : Slot) (pc : TaskPc) : Option State :=
  match (s.msg slot).pmtx with
  | some c =>
    if s.callMtx c = some none then
      some { s.updCall c (fun k => { k with mtx := some .task }) with pc := pc }
    else none
  | none => none

def State.notifyPcv (s : State) (slot : Slot) (pc : TaskPc) : Option State :=
  match (s.msg slot).pcv with
  | some c => some { s.updCall c Call.wake with pc := pc }
  | none => none

def State.unlockPmtx (s : State) (slot : Slot) (pc : TaskPc) : Option State :=
  match (s.msg slot).pmtx with
  | some c => some { s.updCall c (fun k => { k with mtx := none }) with pc := pc }
  | none => none

def step (mMaxMsqQueSize : Int) (s : State) : Action → Option State
  | .initMsg fd =>
    if s.pc = .created ∧ 0 < fd then some { s with mMsgFd := fd, pc := .idle } else none
  | .call a => some { s with calls := s.calls ++ [⟨a, .called, 0, none⟩] }
  | .enter c =>
    match s.calls[c]? with
    | some k =>
      if k.pc = .called ∧ s.mMsgMutex = false then
        match k.args.api with
        | .postEdMsg => some (s.postEdMsg mMaxMsqQueSize c k.args)
        | .sendEdMsg => some (s.sendEdMsg mMaxMsqQueSize c k.args)
      else none
    | none => none
  | .write c => if s.callPc c = some .pushed then some (s.sendWrite c) else none
  -- `cv.wait(lck)` releases `mtx` and blocks in one step
  | .wait c =>
    if s.callPc c = some .written then
      some (s.updCall c (fun k => { k with pc := .waiting, mtx := none }))
    else none
  | .spuriousWake c =>
    if s.callPc c = some .waiting then some (s.updCall c Call.wake) else none
  -- `cv.wait` locks `mtx` again, `lck.unlock()`, `ret = result`
  | .resume c =>
    if s.callPc c = some .woken ∧ s.callMtx c = some none then
      some (s.updCall c (fun k => k.leave (.replied k.result)))
    else none
  | .createTaskMsgQue pTask lis => some (s.createTaskMsgQue pTask lis)
  | .destroyTaskMsgQue handle => some (s.destroyTaskMsgQue handle)
  | .msgevent_cb =>
    match s.pc with
    | .idle =>
      if s.exit_flag then none
      else if s.eventfd = 0 then some s
      else some { s with eventfd := 0, pc := .loop (toI32 s.eventfd).toNat }
    | _ => none
  | .popMsg =>
    match s.pc with
    | .loop (left + 1) => if s.mMsgMutex then none else some (s.popMsg left)
    | _ => none
  | .endLoop =>
    match s.pc with
    | .loop 0 => some { s with pc := .idle }
    | _ => none
  | .branch =>
    match s.pc with
    | .hand slot left .popped => some (s.branch slot left)
    | _ => none
  | .invoke =>
    match s.pc with
    | .hand slot left (.found (some h)) => some (s.deliver slot left (.listener h))
    | .hand slot left (.found none) => some (s.finish slot left)
    | _ => none
  | .setSendMsgResult code =>
    match s.pc with
    | .hand slot _ (.running _) =>
      some ({ s with stored := (s.owner slot, code) :: s.stored }.setSendMsgResult slot code)
    | _ => none
  | .editMsg v =>
    match s.pc with
    | .hand slot _ (.running _) =>
      some { s with msg := Function.update s.msg slot ((s.msg slot).setView v) }
    | _ => none
  | .handlerReturn =>
    match s.pc with
    | .hand slot left (.running _) => some (s.finish slot left)
    | _ => none
  | .checkSync =>
    match s.pc with
    | .hand slot left .handled =>
      if (s.msg slot).sync ≠ 0 then some { s with pc := .hand slot left .locking }
      else some { s with pc := .hand slot left .recycling }
    | _ => none
  | .lockMtx =>
    match s.pc with
    | .hand slot left .locking => s.lockPmtx slot (.hand slot left .locked)
    | _ => none
  | .notify =>
    match s.pc with
    | .hand slot left .locked => s.notifyPcv slot (.hand slot left .notified)
    | _ => none
  | .unlockMtx =>
    match s.pc with
    | .hand slot left .notified => s.unlockPmtx slot (.hand slot left .recycling)
    | _ => none
  | .recycle =>
    match s.pc with
    | .hand slot left .recycling =>
      if s.mMsgMutex then none
      else some { s with mEmptyMsgs := s.mEmptyMsgs ++ [slot], pc := .loop left }
    | _ => none
  | .leaveLoop =>
    if s.pc = .idle ∧ s.exit_flag then some { s with pc := .exited } else none
  | .closeMsg =>
    if s.pc = .exited ∧ s.mMsgMutex = false then some s.closeMsg else none
  | .drainPop =>
    match s.pc, s.mQuedMsgs with
    | .draining, slot :: rest => some (s.drainPop slot rest)
    | _, _ => none
  | .drainLock =>
    match s.pc with
    | .drain slot .locking => s.lockPmtx slot (.drain slot .locked)
    | _ => none
  | .drainNotify =>
    match s.pc with
    | .drain slot .locked =>
      match (s.msg slot).psend_result with
      | some c =>
        (s.updCall c (fun k => { k with result := -1000 })).notifyPcv slot (.drain slot .notified)
      | none => none
    | _ => none
  | .drainUnlock =>
    match s.pc with
    | .drain slot .notified =>
      ({ s with mEmptyMsgs := s.mEmptyMsgs ++ [slot] }).unlockPmtx slot .draining
    | _ => none
  | .drainEnd =>
    if s.pc = .draining ∧ s.mQuedMsgs = [] then some s.freeEmpty else none

/-- The message queue of a task run with `msgqnum` as `mMaxMsqQueSize`. -/
def queue (mMaxMsqQueSize : Int) : System State Action where
  init s := s = State.init
  step := step mMaxMsqQueSize

end EdNio.Task
