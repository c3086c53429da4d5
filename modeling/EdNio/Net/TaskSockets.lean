import EdNio.Event.MainLoop
import EdNio.Library.History
import EdNio.Net.EdSocket
import EdNio.Net.OrderlyClose

/-!
# The sockets of a task

Any number of `EdSocket`s on one task, with the `lastSockErrorNo` they share and the batches of
`esMain`. A handler is cut at the returns of its listeners, in which the user may call every
socket, as it may in the callbacks of the other events of the task.
-/

namespace EdNio.Net
open Transition Event
open Receive (SockEvent EBADFD)

/-- A `recv` that returned 0 or a `close` of a descriptor, on the socket of the listener or on
another one. -/
inductive Touch
  | recv (own : Bool)
  | close (own : Bool)
deriving DecidableEq, Repr

/-- A listener of `sock` that `OnEventRead` has called. `error` is what it found in
`lastSockErrorNo`; then what it did: a `recv` on `sock` returned 0, `sock` was closed, and what
it did last of the two on any socket. -/
structure Callback where
  sock : Nat
  error : Bool
  eof : Bool
  closed : Bool
  last : Option Touch
deriving DecidableEq, Repr

def Callback.start (sock : Nat) (error : Bool) : Callback := ⟨sock, error, false, false, none⟩

/-- An entry of the array given by `epoll_wait`; `evt` is the registration it points to. -/
structure SockEntry where
  sock : Nat
  evt : Nat
  events : Events
deriving DecidableEq, Repr

inductive BatchEntry
  | sock (e : SockEntry)
  | other
deriving DecidableEq, Repr

/-- `listener` is any listener after which the handler ends. -/
inductive SockPc
  | epoll_wait
  | batch (rest : List BatchEntry)
  | other (rest : List BatchEntry)
  | check (st : Stage) (e : SockEntry) (rest : List BatchEntry)
  | OnRead (cb : Callback) (e : SockEntry) (rest : List BatchEntry)
  | OnDisconnected (cb : Callback) (e : SockEntry) (rest : List BatchEntry)
  | listener (st : Stage) (e : SockEntry) (rest : List BatchEntry)
deriving DecidableEq, Repr

/-- `conn` counts the connections opened on a socket, and `child` says that `openChildSock`
opened the last one. Registrations are numbered by `regs`. -/
structure TaskSockets where
  socks : Nat → EdSocket
  lastSockErrorNo : Int
  pc : SockPc
  regs : Nat
  conn : Nat → Nat
  child : Nat → Bool

namespace TaskSockets

variable (s : TaskSockets)

def new : TaskSockets where
  socks _ := .new
  lastSockErrorNo := 0
  pc := .epoll_wait
  regs := 0
  conn _ := 0
  child _ := false

def setSock (i : Nat) (k : EdSocket) : TaskSockets :=
  { s with socks := Function.update s.socks i k }

/-- The socket becomes one with a new connection. -/
def opened (i : Nat) (child : Bool) (k : EdSocket) : TaskSockets :=
  { s.setSock i k with
    conn := Function.update s.conn i (s.conn i + 1)
    child := Function.update s.child i child }

/-- The result of `regEdEvent`; `added` says that `epoll_ctl` succeeds. -/
def pevt (added : Bool) : Option Nat := if added then some s.regs else none

def registers : TaskSockets := { s with regs := s.regs + 1 }

def close (i : Nat) : TaskSockets :=
  { s.setSock i (s.socks i).close with
    lastSockErrorNo :=
      if (s.socks i).mFd.isSome ∧ (s.socks i).mTask then 0 else s.lastSockErrorNo }

/-- The listener that runs does something. -/
def note (f : Callback → Callback) : TaskSockets :=
  { s with pc :=
      match s.pc with
      | .OnRead cb e rest => .OnRead (f cb) e rest
      | .OnDisconnected cb e rest => .OnDisconnected (f cb) e rest
      | pc => pc }

/-- The `close` of a listener. -/
def userClose (i : Nat) : TaskSockets :=
  if (s.socks i).mFd.isSome then
    (s.close i).note (fun cb => { cb with
      closed := cb.closed || cb.sock = i
      last := if (s.socks i).mTask then some (.close (cb.sock = i)) else cb.last })
  else s.close i

/-- `ret` is what `read` returns, on a descriptor of -1 an error. -/
def recv (i : Nat) (ret : Int) : Option TaskSockets :=
  if ret = 0 then
    if (s.socks i).mFd.isSome ∧ (s.socks i).mTask then
      some ({ s with lastSockErrorNo := EBADFD }.note (fun cb => { cb with
        eof := cb.eof || cb.sock = i
        last := some (.recv (cb.sock = i)) }))
    else none
  else some s

/-- A call of `connect` has opened a connection if it changed the status. -/
def connected (i : Nat) (k : EdSocket) : TaskSockets :=
  if (s.socks i).mStatus = .SOCK_STATUS_DISCONNECTED ∧ k.mStatus ≠ .SOCK_STATUS_DISCONNECTED then
    s.registers.opened i false k
  else s.registers.setSock i k

/-- The look at `isReg`. -/
def isReg (e : SockEntry) : Bool :=
  (s.socks e.sock).mEvt.any (fun r => r.id = e.evt)

def nextStage (st : Stage) (e : SockEntry) (rest : List BatchEntry) : SockPc :=
  match st.next with
  | some st => .check st e rest
  | none => .batch rest

/-- The state, and the event given to the listener of a socket. -/
abbrev Outcome := TaskSockets × Option (Nat × SockEvent)

def OnEventRead (e : SockEntry) (rest : List BatchEntry) : Outcome :=
  if (s.socks e.sock).mIsListen = false then
    ({ s with pc := .OnRead (.start e.sock (s.lastSockErrorNo ≠ 0)) e rest },
      some (e.sock, .SOCK_EVENT_READ))
  else
    ({ s with pc := .listener .EVT_READ e rest }, some (e.sock, .SOCK_EVENT_INCOMING_ACCEPT))

def OnEventHangup (e : SockEntry) (rest : List BatchEntry) : Outcome :=
  ({ s.close e.sock with pc := .listener .EVT_HANGUP e rest },
    some (e.sock, .SOCK_EVENT_DISCONNECTED))

/-- `sockerr` is what `getsockopt` gives. -/
def OnEventWrite (sockerr : Int) (e : SockEntry) (rest : List BatchEntry) : Option Outcome :=
  if (s.socks e.sock).mStatus = .SOCK_STATUS_CONNECTING then
    if sockerr ≠ 0 then
      some ({ s.close e.sock with pc := .listener .EVT_WRITE e rest },
        some (e.sock, .SOCK_EVENT_DISCONNECTED))
    else
      ((s.socks e.sock).completeConnection none).map (fun k =>
        ({ s.setSock e.sock k with pc := .listener .EVT_WRITE e rest },
          some (e.sock, .SOCK_EVENT_CONNECTED)))
  else
    some ({ s with pc := .listener .EVT_WRITE e rest }, some (e.sock, .SOCK_EVENT_WRITE))

def evtcb (st : Stage) (sockerr : Int) (e : SockEntry) (rest : List BatchEntry) :
    Option Outcome :=
  match st with
  | .EVT_READ => some (s.OnEventRead e rest)
  | .EVT_HANGUP => some (s.OnEventHangup e rest)
  | .EVT_WRITE => s.OnEventWrite sockerr e rest
  | .release => none

def esMain (sockerr : Int) : Option Outcome :=
  match s.pc with
  | .batch [] => some ({ s with pc := .epoll_wait }, none)
  | .batch (.other :: rest) => some ({ s with pc := .other rest }, none)
  | .batch (.sock e :: rest) => some ({ s with pc := .check .EVT_READ e rest }, none)
  | .check st e rest =>
    if s.isReg e = false then some ({ s with pc := .batch rest }, none)
    else if e.events.calls st then s.evtcb st sockerr e rest
    else some ({ s with pc := nextStage st e rest }, none)
  | _ => none

/-- The listener that runs returns. -/
def listenerReturn : Option Outcome :=
  match s.pc with
  | .OnRead cb e rest =>
    if s.lastSockErrorNo ≠ 0 then
      some ({ s with pc := .OnDisconnected (.start cb.sock true) e rest },
        some (cb.sock, .SOCK_EVENT_DISCONNECTED))
    else some ({ s with pc := nextStage .EVT_READ e rest }, none)
  | .OnDisconnected cb e rest =>
    let t := if s.lastSockErrorNo ≠ 0 then s.close cb.sock else s
    some ({ t with pc := nextStage .EVT_READ e rest }, none)
  | .listener st e rest => some ({ s with pc := nextStage st e rest }, none)
  | .other rest => some ({ s with pc := .batch rest }, none)
  | _ => none

/-- What a level-triggered epoll can report of a registration. -/
def reports : BatchEntry → Bool
  | .other => true
  | .sock e =>
    (s.socks e.sock).mEvt.any (fun r => r.id = e.evt &&
      (!e.events.EPOLLIN || r.interest.evtRead) && (!e.events.EPOLLOUT || r.interest.evtWrite) &&
      (!e.events.EPOLLRDHUP || r.interest.evtHangup))

def userRuns : Bool :=
  match s.pc with
  | .other _ => true
  | .OnRead _ _ _ => true
  | .OnDisconnected _ _ _ => true
  | .listener _ _ _ => true
  | _ => false

end TaskSockets

inductive SockAction
  | epoll_wait (es : List BatchEntry)
  | esMain (sockerr : Int)
  | listenerReturn
  | openSock (i : Nat) (type : SockType) (fd : Option Nat)
  | openChildSock (i fd : Nat) (added : Bool)
  | bindSock (i : Nat) (fd : Option Nat) (bound added : Bool)
  | listenSock (i : Nat) (fd : Option Nat) (bound listened added : Bool)
  | connectIp (i : Nat) (fd : Option Nat) (added : Bool)
  | connectAddr (i : Nat) (fd : Option Nat) (cnn : CnnResult) (added : Bool)
  | changeEvent (i : Nat) (flags : Interest) (added : Bool)
  | recv (i : Nat) (ret : Int)
  | close (i : Nat)
deriving DecidableEq, Repr

namespace TaskSockets

variable (s : TaskSockets)

/-- An operation of the user. -/
def user (t : Option TaskSockets) : Option Outcome :=
  if s.userRuns then t.map (fun t => (t, none)) else none

/-- A step, and the event given to a listener in it. -/
def run : SockAction → Option Outcome
  | .epoll_wait es =>
    if s.pc = .epoll_wait ∧ es.all s.reports then some ({ s with pc := .batch es }, none) else none
  | .esMain sockerr => s.esMain sockerr
  | .listenerReturn => s.listenerReturn
  | .openSock i type fd => s.user (some (s.setSock i ((s.socks i).openSock type fd)))
  | .openChildSock i fd added =>
    s.user (((s.socks i).openChildSock fd (s.pevt added)).map (s.registers.opened i true))
  | .bindSock i fd bound added =>
    s.user (((s.socks i).bindSock fd bound (s.pevt added)).map (s.registers.setSock i))
  | .listenSock i fd bound listened added =>
    s.user (((s.socks i).listenSock fd bound listened (s.pevt added)).map (s.registers.setSock i))
  | .connectIp i fd added =>
    s.user (((s.socks i).connectIp fd (s.pevt added)).map (s.connected i))
  | .connectAddr i fd cnn added =>
    s.user (((s.socks i).connectAddr fd cnn (s.pevt added)).map (s.connected i))
  | .changeEvent i flags added =>
    s.user (((s.socks i).changeEvent flags (s.pevt added)).map (s.registers.setSock i))
  | .recv i ret => s.user (s.recv i ret)
  | .close i => s.user (some (s.userClose i))

def step (a : SockAction) : Option TaskSockets := (s.run a).map Prod.fst

variable {s} {t : TaskSockets} {a : SockAction} {ev : Option (Nat × SockEvent)}

lemma step_run (h : s.step a = some t) : ∃ ev, s.run a = some (t, ev) := by
  obtain ⟨⟨u, ev⟩, hrun, rfl⟩ := Option.map_eq_some_iff.mp h
  exact ⟨ev, hrun⟩

lemma setSock_other (s : TaskSockets) (k : EdSocket) {i j : Nat} (hj : j ≠ i) :
    (s.setSock i k).socks j = s.socks j :=
  Function.update_of_ne hj _ _

lemma setSock_self (s : TaskSockets) (i : Nat) (k : EdSocket) : (s.setSock i k).socks i = k :=
  Function.update_self _ _ _

lemma user_some {u : Option TaskSockets} (h : s.user u = some (t, ev)) :
    s.userRuns = true ∧ u = some t ∧ ev = none := by
  simp only [user, Option.ite_none_right_eq_some] at h
  obtain ⟨hruns, h⟩ := h
  obtain ⟨v, rfl, heq⟩ := Option.map_eq_some_iff.mp h
  cases heq
  exact ⟨hruns, rfl, rfl⟩

end TaskSockets

/-- Any number of sockets from their construction on. -/
def taskSockets : System TaskSockets SockAction where
  init s := s = .new
  step := TaskSockets.step

end EdNio.Net
