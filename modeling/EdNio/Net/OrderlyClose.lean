import EdNio.Library.Transition

/-!
# Receiving up to an orderly shutdown

One connected `EdSocket`, watched for `EVT_READ | EVT_HANGUP`, with its peer, the kernel
and the entry of the socket in the batches of `esMain`. The other sockets of the task
appear through `lastSockErrorNo`, which the whole task shares.
-/

namespace EdNio.Net.Receive
open Transition

/-- A connection as the kernel sees it. `sent` and `received` are histories: the bytes the
peer has sent and those that `read` has returned. -/
structure Conn where
  sent : List UInt8
  flight : List UInt8
  peerClosed : Bool
  unread : List UInt8
  fin : Bool
  received : List UInt8
  sent_eq : sent = received ++ unread ++ flight
  fin_last : fin = true → peerClosed = true ∧ flight = []
deriving DecidableEq

namespace Conn

variable (c : Conn)

def new : Conn where
  sent := []
  flight := []
  peerClosed := false
  unread := []
  fin := false
  received := []
  sent_eq := rfl
  fin_last := by simp

def peerSend (bytes : List UInt8) (h : c.peerClosed = false) : Conn :=
  { c with
    sent := c.sent ++ bytes
    flight := c.flight ++ bytes
    sent_eq := by simp [c.sent_eq]
    fin_last := fun hf => by simp [c.fin_last hf] at h }

def peerShutdown : Conn :=
  { c with
    peerClosed := true
    fin_last := fun hf => ⟨rfl, (c.fin_last hf).2⟩ }

def arrive (n : Nat) : Conn :=
  { c with
    unread := c.unread ++ c.flight.take n
    flight := c.flight.drop n
    sent_eq := by simp [c.sent_eq]
    fin_last := fun hf => by simp [c.fin_last hf] }

def arriveFin (h : c.peerClosed = true ∧ c.flight = []) : Conn :=
  { c with
    fin := true
    fin_last := fun _ => h }

/-- The return value of `read`: -1 when it would block. -/
def readRet (size : Nat) : Int :=
  if c.unread ≠ [] then (c.unread.take size).length
  else if c.fin then 0
  else -1

def read (size : Nat) : Conn :=
  { c with
    received := c.received ++ c.unread.take size
    unread := c.unread.drop size
    sent_eq := by simp [c.sent_eq] }

end Conn

inductive SockEvent
  | SOCK_EVENT_CONNECTED
  | SOCK_EVENT_DISCONNECTED
  | SOCK_EVENT_READ
  | SOCK_EVENT_WRITE
  | SOCK_EVENT_INCOMING_ACCEPT
deriving DecidableEq, Repr

/-- The events of an epoll entry. -/
structure Events where
  EPOLLIN : Bool
  EPOLLRDHUP : Bool
deriving DecidableEq, Repr

/-- Where `esMain` stands with the entry of the socket. Other entries of the batch may come
before it. -/
inductive EsMain
  | epoll_wait
  | entry (events : Events)
  | afterRead (events : Events)
deriving DecidableEq, Repr

/-- What a listener may do besides its `recv`: close the socket, and leave any
`lastSockErrorNo` by calls on other sockets. -/
structure Listener where
  closes : Bool
  others : Option Int
deriving DecidableEq, Repr

structure State where
  conn : Conn
  mFd : Int
  isReg : Bool
  lastSockErrorNo : Int
  esMain : EsMain
  raised : List SockEvent
  closedByLib : Bool
deriving DecidableEq

def EBADFD : Int := 77

namespace State

variable (s : State)

def close : State :=
  if 0 ≤ s.mFd then { s with lastSockErrorNo := 0, isReg := false, mFd := -1 } else s

/-- `close` as called by the library. -/
def closeByLib : State :=
  { s.close with closedByLib := s.closedByLib || decide (0 ≤ s.mFd) }

def recv (size : Nat) : State :=
  if s.mFd < 0 then s
  else
    let t := { s with conn := s.conn.read size }
    if s.conn.readRet size = 0 then { t with lastSockErrorNo := EBADFD } else t

def listen (l : Listener) : State :=
  let s := if l.closes then s.close else s
  match l.others with
  | some e => { s with lastSockErrorNo := e }
  | none => s

def raise (e : SockEvent) : State :=
  { s with raised := s.raised ++ [e] }

def OnRead (size : Nat) (l : Listener) : State :=
  ((s.raise .SOCK_EVENT_READ).recv size).listen l

def OnDisconnected (l : Listener) : State :=
  (s.raise .SOCK_EVENT_DISCONNECTED).listen l

def OnEventRead (size : Nat) (l d : Listener) : State :=
  let s := s.OnRead size l
  if s.lastSockErrorNo ≠ 0 then
    let s := s.OnDisconnected d
    if s.lastSockErrorNo ≠ 0 then s.closeByLib else s
  else s

def OnEventHangup (d : Listener) : State :=
  s.closeByLib.OnDisconnected d

/-- What a level-triggered epoll reports of the socket. -/
def events : Events where
  EPOLLIN := s.conn.unread ≠ [] || s.conn.fin
  EPOLLRDHUP := s.conn.fin

def init : State where
  conn := .new
  mFd := 5
  isReg := true
  lastSockErrorNo := 0
  esMain := .epoll_wait
  raised := []
  closedByLib := false

end State

inductive Action
  | peerSend (bytes : List UInt8)
  | peerShutdown
  | arrive (n : Nat)
  | arriveFin
  | task (l : Listener)
  | epoll_wait
  | evtRead (size : Nat) (l d : Listener)
  | evtHangup (d : Listener)
deriving DecidableEq, Repr

/-- `task` is any other work of the task, and `evtRead` and `evtHangup` are the two parts
of the entry of the socket in `esMain`. -/
def step (s : State) : Action → Option State
  | .peerSend bytes =>
    if h : s.conn.peerClosed = false then some { s with conn := s.conn.peerSend bytes h } else none
  | .peerShutdown => some { s with conn := s.conn.peerShutdown }
  | .arrive n => some { s with conn := s.conn.arrive n }
  | .arriveFin =>
    if h : s.conn.peerClosed = true ∧ s.conn.flight = [] then
      some { s with conn := s.conn.arriveFin h }
    else none
  | .task l =>
    match s.esMain with
    | .afterRead _ => none
    | _ => some (s.listen l)
  | .epoll_wait =>
    if s.esMain = .epoll_wait ∧ s.isReg ∧ (s.events.EPOLLIN ∨ s.events.EPOLLRDHUP) then
      some { s with esMain := .entry s.events }
    else none
  | .evtRead size l d =>
    match s.esMain with
    | .entry ev =>
      if 0 < size then
        if s.isReg then
          let t := if ev.EPOLLIN then s.OnEventRead size l d else s
          some { t with esMain := .afterRead ev }
        else some { s with esMain := .epoll_wait }
      else none
    | _ => none
  | .evtHangup d =>
    match s.esMain with
    | .afterRead ev =>
      let t := if s.isReg ∧ ev.EPOLLRDHUP then s.OnEventHangup d else s
      some { t with esMain := .epoll_wait }
    | _ => none

def receiver : System State Action where
  init s := s = State.init
  step := step

/-- The library has given up the connection only with all its bytes received. -/
def NoLoss (s : State) : Prop :=
  (s.closedByLib ∨ .SOCK_EVENT_DISCONNECTED ∈ s.raised) → s.conn.received = s.conn.sent

/-- The `lastSockErrorNo` that `OnEventRead` finds after a `recv` that is not an end of
file. -/
def errorSeen (s : State) (l : Listener) : Int :=
  l.others.getD (if l.closes then 0 else s.lastSockErrorNo)

/-- At a read callback of an entry that also reports `EPOLLRDHUP` the buffer takes all the
unread bytes, unless the listener closes the socket itself; and while there are unread
bytes, no error of another socket is left in `lastSockErrorNo`. -/
def drains (s : State) : Action → Bool
  | .evtRead size l _ =>
    match s.esMain with
    | .entry ev =>
      (!ev.EPOLLRDHUP || l.closes || decide (s.conn.unread.length ≤ size)) &&
        (s.conn.unread.isEmpty || errorSeen s l == 0)
    | _ => true
  | _ => true

namespace State

variable {s t : State} {l d : Listener} {size : Nat}

@[simp] lemma close_conn : s.close.conn = s.conn := by
  unfold close
  split <;> rfl

@[simp] lemma close_raised : s.close.raised = s.raised := by
  unfold close
  split <;> rfl

@[simp] lemma close_closedByLib : s.close.closedByLib = s.closedByLib := by
  unfold close
  split <;> rfl

@[simp] lemma close_esMain : s.close.esMain = s.esMain := by
  unfold close
  split <;> rfl

lemma isReg_of_close (h : s.close.isReg = true) : s.isReg = true := by
  unfold close at h
  split at h
  · simp at h
  · exact h

lemma close_of_open (h : 0 ≤ s.mFd) :
    s.close = { s with lastSockErrorNo := 0, isReg := false, mFd := -1 } := if_pos h

@[simp] lemma listen_conn : (s.listen l).conn = s.conn := by
  unfold listen
  split <;> split <;> simp

@[simp] lemma listen_raised : (s.listen l).raised = s.raised := by
  unfold listen
  split <;> split <;> simp

@[simp] lemma listen_closedByLib : (s.listen l).closedByLib = s.closedByLib := by
  unfold listen
  split <;> split <;> simp

@[simp] lemma listen_esMain : (s.listen l).esMain = s.esMain := by
  unfold listen
  split <;> split <;> simp

lemma isReg_of_listen (h : (s.listen l).isReg = true) : s.isReg = true := by
  unfold listen at h
  split at h <;> split at h
  · exact isReg_of_close h
  · exact isReg_of_close h
  · exact h
  · exact h

/-- The effect of a listener on an open socket. -/
lemma listen_of_open (h : 0 ≤ s.mFd) : s.listen l =
    { s with
      lastSockErrorNo := errorSeen s l
      isReg := !l.closes && s.isReg
      mFd := if l.closes then -1 else s.mFd } := by
  obtain ⟨closes, others⟩ := l
  cases closes <;> cases others <;> simp [listen, errorSeen, close_of_open h]

lemma recv_of_open (h : 0 ≤ s.mFd) : s.recv size =
    { s with
      conn := s.conn.read size
      lastSockErrorNo := if s.conn.readRet size = 0 then EBADFD else s.lastSockErrorNo } := by
  unfold recv
  rw [if_neg (Int.not_lt.mpr h)]
  split <;> rfl

/-- What `OnRead` does to an open socket. -/
lemma OnRead_of_open (h : 0 ≤ s.mFd) : s.OnRead size l =
    { s with
      conn := s.conn.read size
      raised := s.raised ++ [.SOCK_EVENT_READ]
      lastSockErrorNo := l.others.getD
        (if l.closes then 0
        else if s.conn.readRet size = 0 then EBADFD else s.lastSockErrorNo)
      isReg := !l.closes && s.isReg
      mFd := if l.closes then -1 else s.mFd } := by
  have hraise : 0 ≤ (s.raise .SOCK_EVENT_READ).mFd := h
  have hrecv : 0 ≤ ((s.raise .SOCK_EVENT_READ).recv size).mFd := by
    rw [recv_of_open hraise]
    exact h
  rw [OnRead, listen_of_open hrecv, recv_of_open hraise]
  rfl

/-- The data left of the connection is untouched by the end of `OnEventRead`. -/
lemma OnEventRead_conn : (s.OnEventRead size l d).conn = (s.OnRead size l).conn := by
  unfold OnEventRead
  simp only [ne_eq]
  split
  · split <;> simp [closeByLib, OnDisconnected, raise]
  · rfl

/-- A read callback that finds bytes, and no error of another socket. -/
lemma OnEventRead_data (hfd : 0 ≤ s.mFd) (hu : s.conn.unread ≠ []) (hsize : 0 < size)
    (hseen : errorSeen s l = 0) : s.OnEventRead size l d = { s with
      conn := s.conn.read size
      raised := s.raised ++ [.SOCK_EVENT_READ]
      lastSockErrorNo := 0
      isReg := !l.closes && s.isReg
      mFd := if l.closes then -1 else s.mFd } := by
  have hret : s.conn.readRet size ≠ 0 := by
    simp only [Conn.readRet, ne_eq, hu, not_false_eq_true, if_true, List.length_take]
    have := List.length_pos_iff.mpr hu
    omega
  have hread : s.OnRead size l = { s with
      conn := s.conn.read size
      raised := s.raised ++ [.SOCK_EVENT_READ]
      lastSockErrorNo := 0
      isReg := !l.closes && s.isReg
      mFd := if l.closes then -1 else s.mFd } := by
    rw [OnRead_of_open hfd, if_neg hret]
    simp only [errorSeen] at hseen
    rw [hseen]
  simp [OnEventRead, hread]

/-- The registered socket is open. -/
def Registered (s : State) : Prop :=
  s.isReg = true → 0 ≤ s.mFd

lemma Registered.close (h : s.Registered) : s.close.Registered := by
  unfold State.close
  split
  · simp [Registered]
  · exact h

lemma Registered.listen (h : s.Registered) : (s.listen l).Registered := by
  unfold State.listen
  split <;> split
  · exact h.close
  · exact h.close
  · exact h
  · exact h

lemma Registered.OnDisconnected (h : s.Registered) : (s.OnDisconnected d).Registered :=
  Registered.listen (s := s.raise _) h

lemma Registered.closeByLib (h : s.Registered) : s.closeByLib.Registered :=
  Registered.close h

lemma Registered.OnEventRead (h : s.Registered) : (s.OnEventRead size l d).Registered := by
  have hread : (s.OnRead size l).Registered := by
    apply Registered.listen
    unfold recv
    split
    · exact h
    · split <;> exact h
  unfold State.OnEventRead
  simp only [ne_eq]
  split
  · split
    · exact hread.OnDisconnected.closeByLib
    · exact hread.OnDisconnected
  · exact hread

end State

/-- Everything the peer has sent has been read, and it sends no more. -/
def Conn.Drained (c : Conn) : Prop :=
  c.fin = true ∧ c.unread = []

lemma Conn.Drained.received {c : Conn} (h : c.Drained) : c.received = c.sent := by
  rw [c.sent_eq, h.2, (c.fin_last h.1).2]
  simp

lemma Conn.Drained.read {c : Conn} (h : c.Drained) (size : Nat) : (c.read size).Drained :=
  ⟨h.1, by simp [Conn.read, h.2]⟩

/-- What the peer and the kernel can change. -/
structure Conn.Grows (c c' : Conn) : Prop where
  fin : c.fin = true → c'.fin = true
  unread : c.unread ≠ [] → c'.unread ≠ []
  drained : c.Drained → c'.Drained

lemma Conn.grows_peerSend {c : Conn} {bytes : List UInt8} (h : c.peerClosed = false) :
    c.Grows (c.peerSend bytes h) :=
  ⟨id, id, id⟩

lemma Conn.grows_peerShutdown {c : Conn} : c.Grows c.peerShutdown :=
  ⟨id, id, id⟩

lemma Conn.grows_arrive {c : Conn} {n : Nat} : c.Grows (c.arrive n) where
  fin := id
  unread h := by simp [arrive, h]
  drained h := ⟨h.1, by simp [arrive, h.2, (c.fin_last h.1).2]⟩

lemma Conn.grows_arriveFin {c : Conn} (h : c.peerClosed = true ∧ c.flight = []) :
    c.Grows (c.arriveFin h) where
  fin _ := rfl
  unread := id
  drained hd := ⟨rfl, hd.2⟩

structure Inv (s : State) : Prop where
  registered : s.Registered
  entry : ∀ ev, s.esMain = .entry ev → s.isReg = true →
    ev.EPOLLIN = true ∧ (s.conn.unread ≠ [] ∨ s.conn.fin = true) ∧
      (ev.EPOLLRDHUP = true → s.conn.fin = true)
  afterRead : ∀ ev, s.esMain = .afterRead ev → s.isReg = true → ev.EPOLLRDHUP = true →
    s.conn.Drained
  given_up : s.closedByLib = true ∨ .SOCK_EVENT_DISCONNECTED ∈ s.raised → s.conn.Drained

namespace Inv

variable {s t : State} {l d : Listener} {size : Nat}

lemma init : Inv State.init := by
  constructor <;> simp [State.init, State.Registered]

lemma grows (h : Inv s) {c : Conn} (hc : s.conn.Grows c) : Inv { s with conn := c } where
  registered := h.registered
  entry ev he hr := by
    obtain ⟨hin, hdata, hhup⟩ := h.entry ev he hr
    exact ⟨hin, hdata.imp hc.unread hc.fin, fun hh => hc.fin (hhup hh)⟩
  afterRead ev he hr hh := hc.drained (h.afterRead ev he hr hh)
  given_up hg := hc.drained (h.given_up hg)

lemma listen (h : Inv s) : Inv (s.listen l) := by
  constructor
  · exact h.registered.listen
  · intro ev he hr
    rw [State.listen_conn]
    exact h.entry ev (State.listen_esMain ▸ he) (State.isReg_of_listen hr)
  · intro ev he hr
    rw [State.listen_conn]
    exact h.afterRead ev (State.listen_esMain ▸ he) (State.isReg_of_listen hr)
  · simpa using h.given_up

/-- Once everything is read, whatever the callback does is right. -/
lemma of_drained {m : EsMain} (hr : s.Registered) (hd : s.conn.Drained)
    (hm : ∀ ev, m ≠ .entry ev) : Inv { s with esMain := m } where
  registered := hr
  entry ev he := absurd he (hm ev)
  afterRead _ _ _ _ := hd
  given_up _ := hd

lemma epoll_wait (h : Inv s) (hev : s.events.EPOLLIN = true ∨ s.events.EPOLLRDHUP = true) :
    Inv { s with esMain := .entry s.events } where
  registered := h.registered
  entry ev he _ := by
    cases he
    simp only [State.events, Bool.or_eq_true, decide_eq_true_eq] at hev ⊢
    have hdata := hev.elim id Or.inr
    exact ⟨hdata, hdata, id⟩
  afterRead _ he := by simp at he
  given_up := h.given_up

lemma evtRead_data {ev : Events} (h : Inv s) (he : s.esMain = .entry ev) (hr : s.isReg = true)
    (hu : s.conn.unread ≠ []) (hsize : 0 < size) (hok : drains s (.evtRead size l d) = true) :
    Inv { s.OnEventRead size l d with esMain := .afterRead ev } := by
  have hfd := h.registered hr
  simp only [drains, he, Bool.and_eq_true, Bool.or_eq_true, Bool.not_eq_true',
    decide_eq_true_eq, List.isEmpty_iff, hu, false_or, beq_iff_eq] at hok
  obtain ⟨htakes, hseen⟩ := hok
  have hnot : ¬ (s.closedByLib = true ∨ .SOCK_EVENT_DISCONNECTED ∈ s.raised) :=
    fun hg => hu (h.given_up hg).2
  rw [State.OnEventRead_data hfd hu hsize hseen]
  constructor
  · intro hreg
    simp only [Bool.and_eq_true, Bool.not_eq_true'] at hreg
    simpa [hreg.1] using hfd
  · intro ev' he'
    simp at he'
  · intro ev' he' hreg hhup
    cases he'
    simp only [Bool.and_eq_true, Bool.not_eq_true'] at hreg
    have hle : s.conn.unread.length ≤ size := by
      rcases htakes with (hno | hcl) | hle
      · simp [hno] at hhup
      · simp [hreg.1] at hcl
      · exact hle
    exact ⟨(h.entry ev he hr).2.2 hhup, List.drop_eq_nil_of_le hle⟩
  · intro hg
    simp only [List.mem_append, List.mem_singleton, reduceCtorEq, or_false] at hg
    exact absurd hg hnot

lemma evtRead {ev : Events} (h : Inv s) (he : s.esMain = .entry ev) (hr : s.isReg = true)
    (hsize : 0 < size) (hok : drains s (.evtRead size l d) = true) :
    Inv { s.OnEventRead size l d with esMain := .afterRead ev } := by
  by_cases hu : s.conn.unread = []
  · have hd : s.conn.Drained := ⟨(h.entry ev he hr).2.1.resolve_left (not_not_intro hu), hu⟩
    have hconn : (s.OnEventRead size l d).conn = s.conn.read size := by
      rw [State.OnEventRead_conn, State.OnRead_of_open (h.registered hr)]
    apply of_drained h.registered.OnEventRead
    · rw [hconn]
      exact hd.read size
    · simp
  · exact h.evtRead_data he hr hu hsize hok

lemma evtHangup {ev : Events} (h : Inv s) (he : s.esMain = .afterRead ev) (hr : s.isReg = true)
    (hh : ev.EPOLLRDHUP = true) : Inv { s.OnEventHangup d with esMain := .epoll_wait } := by
  apply of_drained h.registered.closeByLib.OnDisconnected
  · simpa [State.OnEventHangup, State.OnDisconnected, State.closeByLib, State.raise] using
      h.afterRead ev he hr hh
  · simp

/-- The batch goes on without a callback. -/
lemma skip (h : Inv s) : Inv { s with esMain := .epoll_wait } where
  registered := h.registered
  entry _ he := by simp at he
  afterRead _ he := by simp at he
  given_up := h.given_up

lemma step {a : Action} (h : Inv s) (hok : drains s a = true) (hs : step s a = some t) :
    Inv t := by
  cases a with
  | peerSend bytes =>
    simp only [Receive.step, Option.dite_none_right_eq_some, Option.some.injEq] at hs
    obtain ⟨hp, rfl⟩ := hs
    exact h.grows (Conn.grows_peerSend hp)
  | peerShutdown =>
    cases hs
    exact h.grows Conn.grows_peerShutdown
  | arrive n =>
    cases hs
    exact h.grows Conn.grows_arrive
  | arriveFin =>
    simp only [Receive.step, Option.dite_none_right_eq_some, Option.some.injEq] at hs
    obtain ⟨hp, rfl⟩ := hs
    exact h.grows (Conn.grows_arriveFin hp)
  | task l =>
    simp only [Receive.step] at hs
    split at hs
    · simp at hs
    · cases hs
      exact h.listen
  | epoll_wait =>
    simp only [Receive.step, Option.ite_none_right_eq_some, Option.some.injEq] at hs
    obtain ⟨⟨-, -, hev⟩, rfl⟩ := hs
    exact h.epoll_wait hev
  | evtRead size l d =>
    simp only [Receive.step] at hs
    split at hs
    · rename_i ev he
      simp only [Option.ite_none_right_eq_some] at hs
      obtain ⟨hsize, hs⟩ := hs
      split at hs
      · rename_i hr
        cases hs
        rw [if_pos (h.entry ev he hr).1]
        exact h.evtRead he hr hsize hok
      · cases hs
        exact h.skip
    · simp at hs
  | evtHangup d =>
    simp only [Receive.step] at hs
    split at hs
    · rename_i ev he
      cases hs
      split
      · rename_i hr
        exact h.evtHangup he hr.1 hr.2
      · exact h.skip
    · simp at hs

end Inv

/-- In a run whose read callbacks drain the socket, no byte is lost. -/
theorem orderly_close_received {s : State}
    (h : receiver.Reaches (fun s a => drains s a = true) s) : NoLoss s := by
  have hI : Inv s := h.invariant (fun _ h0 => h0 ▸ Inv.init)
    (fun _ _ _ _ hI hok hs => hI.step hok hs)
  intro hg
  exact (hI.given_up hg).received

/-- Data and end of file arrive in two parts, and the last buffer takes what is left. -/
def drainedRun : List Action :=
  [.peerSend [1, 2, 3], .arrive 2, .epoll_wait, .evtRead 1 ⟨false, none⟩ ⟨false, none⟩,
    .evtHangup ⟨false, none⟩, .arrive 1, .peerShutdown, .arriveFin, .epoll_wait,
    .evtRead 2 ⟨false, none⟩ ⟨false, none⟩, .evtHangup ⟨false, none⟩]

theorem orderly_close_received_drainedRun : ∃ s,
    receiver.Reaches (fun s a => drains s a = true) s ∧ s.closedByLib = true ∧
      s.conn.sent = [1, 2, 3] ∧ s.conn.received = [1, 2, 3] := by
  obtain ⟨s, hr, hs⟩ := System.exists_of_exec_restrict (M := receiver) (T := drains) rfl
    (show ((receiver.restrict drains).exec State.init drainedRun).map
      (fun s => (s.closedByLib, s.conn.sent)) = some (true, [1, 2, 3]) by decide)
  simp only [Prod.mk.injEq] at hs
  exact ⟨s, hr, hs.1, hs.2, (orderly_close_received hr (.inl hs.1)).trans hs.2⟩

/-- Data and end of file in one entry, and a buffer of one byte. -/
def shortRun : List Action :=
  [.peerSend [1, 2], .arrive 2, .peerShutdown, .arriveFin, .epoll_wait,
    .evtRead 1 ⟨false, none⟩ ⟨false, none⟩, .evtHangup ⟨false, none⟩]

theorem not_orderly_close_received : ¬ ∀ s, receiver.Reachable s → NoLoss s := by
  intro h
  obtain ⟨s, hr, hs⟩ := System.exists_of_exec (M := receiver) rfl
    (show (receiver.exec State.init shortRun).map
      (fun s => (s.closedByLib, s.conn.sent, s.conn.received)) =
        some (true, [1, 2], [1]) by decide)
  simp only [Prod.mk.injEq] at hs
  have heq := h s hr (.inl hs.1)
  rw [hs.2.1, hs.2.2] at heq
  exact absurd heq (by decide)

/-- An entry that reports the end of file and whose buffer is too small always loses bytes,
whatever else the listeners do, unless the socket is closed by its owner. -/
theorem short_read_loses {s : State} {ev : Events} {size : Nat} {l d d' : Listener}
    (hreg : s.Registered) (he : s.esMain = .entry ev) (hr : s.isReg = true)
    (hin : ev.EPOLLIN = true) (hh : ev.EPOLLRDHUP = true) (hsize : 0 < size)
    (hshort : size < s.conn.unread.length) (hl : l.closes = false) :
    ∃ t u, step s (.evtRead size l d) = some t ∧ step t (.evtHangup d') = some u ∧
      ¬ NoLoss u := by
  let t := s.OnEventRead size l d
  have hfd := hreg hr
  have ht : step s (.evtRead size l d) = some { t with esMain := .afterRead ev } := by
    simp [step, he, hsize, hr, hin, t]
  have hu : step { t with esMain := .afterRead ev } (.evtHangup d') =
      some { (if t.isReg = true then State.OnEventHangup { t with esMain := .afterRead ev } d'
        else { t with esMain := .afterRead ev }) with esMain := .epoll_wait } := by
    simp [step, hh]
  refine ⟨_, _, ht, hu, fun hno => ?_⟩
  have hread : (s.OnRead size l).conn = s.conn.read size ∧ (s.OnRead size l).isReg = true := by
    rw [State.OnRead_of_open hfd]
    simp [hl, hr]
  have hconn : t.conn = s.conn.read size := State.OnEventRead_conn.trans hread.1
  have hlost : (s.conn.read size).received ≠ (s.conn.read size).sent := by
    intro heq
    have hlen := congrArg List.length (heq.trans (s.conn.read size).sent_eq)
    simp only [Conn.read, List.length_append, List.length_take, List.length_drop] at hlen
    omega
  have hraised : t.isReg = true ∨ .SOCK_EVENT_DISCONNECTED ∈ t.raised := by
    simp only [t, State.OnEventRead, ne_eq]
    split
    · right
      split <;> simp [State.closeByLib, State.OnDisconnected, State.raise]
    · exact .inl hread.2
  by_cases htr : t.isReg = true
  · rw [if_pos htr] at hno
    have hdisc := hno (.inr (by simp [State.OnEventHangup, State.OnDisconnected, State.raise]))
    apply hlost
    rw [← hconn]
    simpa [State.OnEventHangup, State.OnDisconnected, State.raise, State.closeByLib] using hdisc
  · rw [if_neg htr] at hno
    have hdisc := hno (.inr (hraised.resolve_left htr))
    apply hlost
    rw [← hconn]
    exact hdisc

end EdNio.Net.Receive
