import EdNio.Library.MachineInt
import EdNio.Library.Transition
import EdNio.Timer.EdTimer

/-!
# EdTimerPool

The pool on its main timer, from `open()` on. A pass of `scheduleTimer` is cut at the calls
of its listeners, which may use the pool and take any time. Time points are the 64-bit
nanoseconds of `steady_clock`.
-/

namespace EdNio.Timer
open MachineInt Transition

/-- `tp + std::chrono::microseconds(us)`. -/
def plusUs (tp : Int) (us : UInt64) : Int :=
  toI64 (tp + toI64 (toI64 us.toNat * 1000))

/-- `duration_cast<microseconds>(a - b).count()`. -/
def usBetween (a b : Int) : Int :=
  (toI64 (a - b)).tdiv 1000

/-- `time_point::max()`. -/
def timePointMax : Int := 2 ^ 63 - 1

/-- `lis` names the listener. -/
structure TimerInfo where
  handle : UInt32
  fireTp : Int
  period : UInt64
  lis : Nat
deriving DecidableEq, Repr

/-- An element of `_timerMap` and its address, which it keeps until it is erased. -/
structure Node where
  addr : Nat
  info : TimerInfo
deriving DecidableEq, Repr

/-- Where the task stands in the pool: outside, between two listeners of a pass, or in a
listener. `rest` is what is left of `_fireList`. -/
inductive Pc
  | idle
  | looping (rest : List (Int × Nat))
  | listening (rest : List (Int × Nat))
deriving DecidableEq, Repr

/-- `reported` says that the current epoll batch holds the main timer, and `fired` records the
calls of listeners, with none for one through an erased `TimerInfo`. -/
structure EdTimerPool where
  now : Int
  mainTimer : EdTimer
  nearTp : Int
  timerMap : List Node
  addrs : Nat
  handleSeed : UInt32
  pc : Pc
  reported : Bool
  fired : List (Option TimerInfo × Int)
deriving DecidableEq, Repr

/-- What the first loop of `scheduleTimer` has computed. -/
structure Pass where
  nearTp : Int
  fireList : List (Int × Nat)
  nodes : List Node
deriving DecidableEq, Repr

/-- One round of that loop; none for a division by a period of 0. -/
def Pass.visit (ntp : Int) (p : Pass) (n : Node) : Option Pass :=
  let us := usBetween ntp n.info.fireTp
  if 0 ≤ us ∧ n.info.period = 0 then none
  else
    let period : Int := n.info.period.toNat
    let cnt := toU64 us / period + toU64 us % period
    let m := if 0 ≤ us then
        { n with info := { n.info with fireTp := plusUs n.info.fireTp n.info.period } }
      else n
    some {
      nearTp := if m.info.fireTp < p.nearTp then m.info.fireTp else p.nearTp
      fireList := if 0 ≤ us then p.fireList ++ [(toI32 cnt, n.addr)] else p.fireList
      nodes := p.nodes ++ [m] }

namespace EdTimerPool

variable (s : EdTimerPool)

/-- A pool after `open()`. -/
def opened (now : Int) : EdTimerPool where
  now := now
  mainTimer := .new
  nearTp := timePointMax
  timerMap := []
  addrs := 0
  handleSeed := 0
  pc := .idle
  reported := false
  fired := []

/-- `++_handleSeed`, a second time if it has become 0. -/
def nextSeed : UInt32 :=
  if s.handleSeed + 1 = 0 then 1 else s.handleSeed + 1

/-- `_timerMap[handle]` and the assignments to it. -/
def put (info : TimerInfo) : EdTimerPool :=
  if s.timerMap.any (fun n => n.info.handle = info.handle) then
    { s with
      timerMap := s.timerMap.map (fun n => if n.info.handle = info.handle then ⟨n.addr, info⟩ else n) }
  else
    { s with timerMap := s.timerMap ++ [⟨s.addrs, info⟩], addrs := s.addrs + 1 }

@[simp] lemma put_frame {s : EdTimerPool} (info : TimerInfo) : (s.put info).pc = s.pc ∧
    (s.put info).mainTimer = s.mainTimer ∧ (s.put info).nearTp = s.nearTp ∧
      (s.put info).now = s.now := by
  unfold put
  split <;> simp

def setTimerUs (handle : UInt32) (firstus periodus : UInt64) (lis : Nat) :
    UInt32 × EdTimerPool :=
  let seed := if handle = 0 then s.nextSeed else s.handleSeed
  let handle := if handle = 0 then seed else handle
  let fireTp := plusUs s.now firstus
  let s := { s with handleSeed := seed }.put ⟨handle, fireTp, periodus, lis⟩
  if fireTp < s.nearTp then
    let ds := usBetween fireTp s.now
    (handle, { s with nearTp := fireTp, mainTimer := s.mainTimer.setUsec (toU64 ds) 0 s.now })
  else (handle, s)

def killTimer (id : UInt32) : EdTimerPool :=
  { s with timerMap := s.timerMap.filter (fun n => n.info.handle ≠ id) }

/-- The main timer's `OnEventRead` up to the first listener. The elements of the map are
visited in `order`. -/
def scheduleTimer (order : List Node) : Option EdTimerPool :=
  let s := { s with mainTimer := s.mainTimer.readHitCount, reported := false }
  if s.timerMap.length = 0 then some s
  else
    (order.foldlM (Pass.visit s.now) ⟨timePointMax, [], []⟩).map (fun p =>
      { s with nearTp := p.nearTp, timerMap := p.nodes, pc := .looping p.fireList })

/-- The end of `scheduleTimer`. -/
def rearm : EdTimerPool :=
  let us := usBetween s.nearTp s.now
  let us := if us < 0 then 0 else us
  { s with mainTimer := s.mainTimer.setUsec (toU64 us) 0 s.now, pc := .idle }

def find (addr : Nat) : Option TimerInfo :=
  (s.timerMap.find? (fun n => n.addr = addr)).map Node.info

end EdTimerPool

inductive Action
  | tick (ns : Nat)
  | setTimerUs (handle : UInt32) (firstus periodus : UInt64) (lis : Nat)
  | killTimer (id : UInt32)
  | epoll_wait
  | scheduleTimer (order : List Node)
  | callListener
  | listenerReturn
  | rearm
deriving DecidableEq, Repr

/-- The user calls the pool between passes and from its listeners. -/
def userRuns : Pc → Bool
  | .idle => true
  | .looping _ => false
  | .listening _ => true

def step (s : EdTimerPool) : Action → Option EdTimerPool
  | .tick ns =>
    if s.now + ns ≤ timePointMax then
      some { s with now := s.now + ns, mainTimer := s.mainTimer.advance (s.now + ns) }
    else none
  | .setTimerUs handle firstus periodus lis =>
    if userRuns s.pc then some (s.setTimerUs handle firstus periodus lis).2 else none
  | .killTimer id => if userRuns s.pc then some (s.killTimer id) else none
  | .epoll_wait =>
    if s.pc = .idle ∧ s.mainTimer.readable then some { s with reported := true } else none
  | .scheduleTimer order =>
    if s.pc = .idle ∧ s.reported ∧ order.isPerm s.timerMap then s.scheduleTimer order else none
  | .callListener =>
    match s.pc with
    | .looping ((cnt, addr) :: rest) =>
      some { s with fired := s.fired ++ [(s.find addr, cnt)], pc := .listening rest }
    | _ => none
  | .listenerReturn =>
    match s.pc with
    | .listening rest => some { s with pc := .looping rest }
    | _ => none
  | .rearm => if s.pc = .looping [] then some s.rearm else none

def timerPool : System EdTimerPool Action where
  init s := s = .opened s.now ∧ 0 ≤ s.now ∧ s.now ≤ timePointMax
  step := step

end EdNio.Timer
