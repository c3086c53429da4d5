import EdNio.Event.TaskProc
import EdNio.Library.History
import EdNio.Timer.EdTimer

/-!
# The timers of a task

A task whose `EdEvent` objects may be `EdTimer`s. Each of them has its timerfd while it has a
descriptor. The callback of a timer is `OnEventRead`, which reads the timerfd and goes on
with `OnTimer`; that of a `TaskTimer` hands `EDM_TIMER` to the task.
-/

namespace EdNio.Event
open Transition

structure TimerTask where
  proc : TaskProc
  timers : ObjId → Timer.EdTimer
  now : Int

/-- `a` is the address of a new event, `fd` the descriptor of a new timerfd. -/
inductive TimerAction
  | tick (ns : Nat)
  | proc (a : ProcAction)
  | esMain
  | setUsec (o : ObjId) (usec first_usec : UInt64) (fd : Int) (a : Addr) (added : Bool)
  | set (o : ObjId) (msec first_msec : UInt32) (fd : Int) (a : Addr) (added : Bool)
  | pause (o : ObjId)
  | resume (o : ObjId)
  | reset (o : ObjId)
  | kill (o : ObjId)
  | delete (o : ObjId)
  | setTimer (id : UInt32) (t : ObjId) (msec inittime : UInt32) (fd : Int) (a : Addr)
      (added : Bool)
  | killTimer (id : UInt32)
deriving DecidableEq, Repr

namespace TimerTask

variable (L : Layout) (x : TimerTask)

def init (now : Int) : TimerTask := ⟨.init, fun _ => .new, now⟩

def write (o : ObjId) (t : Timer.EdTimer) : TimerTask :=
  { x with timers := Function.update x.timers o t }

/-- The timer that an event at this address belongs to. -/
def timerOf (a : Addr) : Option ObjId :=
  (x.proc.loop.reg.heap a).bind (fun p =>
    match p.user with
    | .obj o => if (x.timers o).timerfd.isSome then some o else none
    | .task => none)

/-- The timer whose timerfd this is, if epoll watches it. -/
def timerAt (fd : Int) : Option ObjId :=
  (x.proc.loop.reg.interest fd).bind x.timerOf

/-- A timerfd can be reported as readable, and only with expirations to read. -/
def reports (fd : Int × Events) : Bool :=
  (x.timerAt fd.1).all (fun o =>
    (x.timers o).readable && fd.2 == ⟨true, false, false, false, false⟩)

/-- What the user does with an object that is not a timer does not touch a timer. -/
def apart (a : Action) : Bool :=
  a.target.all (fun o => (x.timers o).timerfd.isNone &&
    (x.timerAt (x.proc.loop.objs o).mFd).isNone) &&
  match a with
  | .sysClose fd => (x.timerAt fd).isNone
  | _ => true

/-- A batch of epoll has at most one entry for a descriptor. -/
def allowed : ProcAction → Bool
  | .epoll_wait fds => decide (fds.map Prod.fst).Nodup && fds.all x.reports
  | .user a => x.apart a
  | .start _ _ _ | .evtcbReturn | .exitMsg | .leaveLoop | .handlerReturn => true
  | .esMain | .setTimer _ _ _ _ _ | .killTimer _ => false

/-- The timer whose `OnEventRead` the next step of `esMain` calls. -/
def called : Option ObjId :=
  match x.proc.loop.pc with
  | .check .EVT_READ e _ =>
    if (x.proc.loop.reg.heap e.ptr).any Edevt.isReg && e.events.EPOLLIN then x.timerOf e.ptr
    else none
  | _ => none

/-- The user may call the methods of a timer of its own. -/
def usable (o : ObjId) : Prop :=
  x.proc.inHandler = true ∧ o ∉ x.proc.timers ∧
    ((x.timers o).timerfd.isSome = true ∨ (x.proc.loop.objs o).mFd < 0)

instance (o : ObjId) : Decidable (x.usable o) :=
  inferInstanceAs (Decidable (_ ∧ _))

/-- A change of the events of an object that leaves it with the timer `t`. -/
def change (s? : Option State) (o : ObjId) (t : Timer.EdTimer) : Option TimerTask :=
  s?.map (fun s => { x with proc := { x.proc with loop := s } }.write o t)

/-- The `TaskTimer` that `setTimer` sets: that of the map, or a new one at `t`. -/
def taskTimer (id : UInt32) (t : ObjId) : ObjId × Timer.EdTimer :=
  match x.proc.mTimerMap.lookup id with
  | some pt => (pt, x.timers pt)
  | none => (t, .new)

def setTimer (id : UInt32) (t : ObjId) (msec inittime : UInt32) (fd : Int) (a : Addr)
    (added : Bool) : Option TimerTask :=
  let pt := x.taskTimer id t
  (x.proc.setTimer L id t fd a added).map (fun p =>
    { x with proc := p }.write pt.1 (pt.2.set msec inittime x.now))

def killTimer (id : UInt32) : Option TimerTask :=
  (x.proc.killTimer L id).map (fun p =>
    match x.proc.mTimerMap.lookup id with
    | some pt => { x with proc := p }.write pt .new
    | none => { x with proc := p })

/-- `timerfd_create` gives a descriptor. -/
def step : TimerAction → Option TimerTask
  | .tick ns =>
    some { x with now := x.now + ns, timers := fun o => (x.timers o).advance (x.now + ns) }
  | .proc a =>
    if x.allowed a then (x.proc.step L a).map (fun p => { x with proc := p }) else none
  | .esMain =>
    (x.proc.step L .esMain).map (fun p =>
      match x.called with
      | some o => { x with proc := p }.write o (x.timers o).readHitCount
      | none => { x with proc := p })
  | .setUsec o usec first_usec fd a added =>
    if x.usable o ∧ 0 < fd then
      x.change (x.proc.loop.setUsec L o fd a added) o
        ((x.timers o).setUsec usec.toNat first_usec.toNat x.now)
    else none
  | .set o msec first_msec fd a added =>
    if x.usable o ∧ 0 < fd then
      x.change (x.proc.loop.setUsec L o fd a added) o ((x.timers o).set msec first_msec x.now)
    else none
  | .pause o => if x.usable o then some (x.write o ((x.timers o).pause x.now)) else none
  | .resume o => if x.usable o then some (x.write o ((x.timers o).resume x.now)) else none
  | .reset o => if x.usable o then some (x.write o ((x.timers o).reset x.now)) else none
  | .kill o =>
    if x.usable o then x.change (x.proc.loop.kill L o) o (x.timers o).kill else none
  | .delete o => if x.usable o then x.change (x.proc.loop.delete L o) o .new else none
  | .setTimer id t msec inittime fd a added =>
    if x.proc.inHandler ∧ 0 < fd then x.setTimer L id t msec inittime fd a added else none
  | .killTimer id => if x.proc.inHandler then x.killTimer L id else none

end TimerTask

def timerTask (L : Layout) : System TimerTask TimerAction where
  init x := x = .init x.now
  step x := x.step L

/-- `edm` is the `EDM_TIMER` message that `OnTimer` hands to the task, with its timer id. -/
inductive TimerEvent
  | epoll_wait
  | settime (o : ObjId) (spec : Timer.Itimerspec) (now : Int)
  | OnTimer (o : ObjId) (edm : Option UInt32) (hitCount : Nat) (now : Int)
deriving DecidableEq, Repr

namespace TimerTask

variable (x : TimerTask)

/-- A call of `timerfd_settime` on a timer with a descriptor. -/
def settime (o : ObjId) (spec : Timer.Itimerspec) : Option TimerEvent :=
  if (x.timers o).timerfd.isSome then some (.settime o spec x.now) else none

def record : TimerAction → Option TimerEvent
  | .proc (.epoll_wait _) => some .epoll_wait
  | .esMain =>
    x.called.map (fun o =>
      .OnTimer o ((x.proc.mTimerMap.find? (fun entry => entry.2 = o)).map Prod.fst)
        (x.timers o).readHitCount.mHitCount x.now)
  | .setUsec o usec first_usec _ _ _ =>
    some (.settime o ((x.timers o).setUsec usec.toNat first_usec.toNat x.now).mTimerSpec x.now)
  | .set o msec first_msec _ _ _ =>
    some (.settime o ((x.timers o).set msec first_msec x.now).mTimerSpec x.now)
  | .pause o => x.settime o ⟨⟨0, 0⟩, ⟨0, 0⟩⟩
  | .resume o => x.settime o (x.timers o).mTimerSpec
  | .reset o => x.settime o (x.timers o).mTimerSpec
  | .setTimer id t msec inittime _ _ _ =>
    some (.settime (x.taskTimer id t).1
      ((x.taskTimer id t).2.set msec inittime x.now).mTimerSpec x.now)
  | _ => none

end TimerTask

def timerHistory (L : Layout) : System (Recorded TimerTask TimerEvent) TimerAction :=
  (timerTask L).recorded TimerTask.record

end EdNio.Event
