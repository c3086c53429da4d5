import EdNio.Library.Simulation
import EdNio.Net.OrderlyClose
import EdNio.Net.SmartStream

/-!
# From `sendPacket` to `recv`

An `EdSmartSocket` that sends in normal mode and the `EdSocket` at the other end of its TCP
connection. The bytes that the kernel takes from the one get into the connection. Its sockets have
the `SO_LINGER` of `setNoTimewait`: `close` resets the connection, and what has not arrived is
lost. The receiver and the network move by themselves.
-/

namespace EdNio.Net
open Transition

namespace Receive

/-- The peer's reset arrives: nothing is on its way any more, and of the unread bytes `k` can
still be read. `sent` keeps those that can be received. -/
def Conn.reset (c : Conn) (k : Nat) : Conn where
  sent := c.received ++ c.unread.take k
  flight := []
  peerClosed := true
  unread := c.unread.take k
  fin := c.fin
  received := c.received
  sent_eq := by rw [List.append_nil]
  fin_last _ := ⟨rfl, rfl⟩

/-- After a reset epoll reports the socket as readable and hung up. -/
def State.pollReset (s : State) : Option State :=
  if s.esMain = .epoll_wait ∧ s.isReg then some { s with esMain := .entry ⟨true, true⟩ } else none

end Receive

/-- `closed` says that the sender has closed its socket, and `lost` are the bytes that the reset
took away. -/
structure Transfer where
  sender : Stream
  receiver : Receive.State
  closed : Bool
  lost : List UInt8
deriving DecidableEq

inductive TransferAction
  | sendPacket (buf : List UInt8) (r : WriteResult)
  | writable (r : WriteResult)
  | close
  | reset (k : Nat)
  | receiver (a : Receive.Action)
deriving DecidableEq, Repr

namespace Transfer

variable (x : Transfer)

def new : Transfer where
  sender := Stream.connected
  receiver := Receive.State.init
  closed := false
  lost := []

/-- What the sender's kernel takes in an operation. -/
def taken (op : StreamOp) : List UInt8 :=
  (x.sender.step op).sock.wire.drop x.sender.sock.wire.length

/-- It gets into the connection. -/
def send (op : StreamOp) : Option Transfer :=
  if x.closed then none
  else (Receive.step x.receiver (.peerSend (x.taken op))).map
    (fun s => { x with sender := x.sender.step op, receiver := s })

/-- A reset that has arrived is a `peerClosed`. After it a `read` that finds no bytes is an
error or, from `arriveFin` on, an end of file. -/
def receive (a : Receive.Action) : Option Receive.State :=
  match a with
  | .peerSend _ => none
  | .peerShutdown => none
  | .epoll_wait =>
    if x.receiver.conn.peerClosed then x.receiver.pollReset else Receive.step x.receiver .epoll_wait
  | a => Receive.step x.receiver a

/-- `writable` happens while the sender watches for it. -/
def step : TransferAction → Option Transfer
  | .sendPacket buf r => x.send (.sendPacket buf r)
  | .writable r =>
    if x.sender.sock.interest.evtWrite then x.send (.procNormalOnWrite r) else none
  | .close => some { x with closed := true }
  | .reset k =>
    if x.closed ∧ x.receiver.conn.peerClosed = false then
      some { x with
        receiver := { x.receiver with conn := x.receiver.conn.reset k }
        lost := x.receiver.conn.unread.drop k ++ x.receiver.conn.flight }
    else none
  | .receiver a => (x.receive a).map (fun s => { x with receiver := s })

/-- The callbacks of the receiver drain its socket. -/
def drains : TransferAction → Bool
  | .receiver a => Receive.drains x.receiver a
  | _ => true

end Transfer

def transfer : System Transfer TransferAction where
  init x := x = .new
  step := Transfer.step

/-- The library has given up the connection, or has told its owner that it is over. -/
def Receive.State.GivenUp (s : Receive.State) : Prop :=
  s.closedByLib = true ∨ .SOCK_EVENT_DISCONNECTED ∈ s.raised

namespace Receive

variable {s t : State} {a : Action}

lemma State.recv_kept {size : Nat} : (s.recv size).conn.sent = s.conn.sent ∧
    (s.recv size).conn.peerClosed = s.conn.peerClosed := by
  unfold State.recv
  split
  · exact ⟨rfl, rfl⟩
  · dsimp only
    split <;> exact ⟨rfl, rfl⟩

lemma State.OnEventRead_kept {size : Nat} {l d : Listener} :
    (s.OnEventRead size l d).conn.sent = s.conn.sent ∧
      (s.OnEventRead size l d).conn.peerClosed = s.conn.peerClosed := by
  rw [State.OnEventRead_conn, State.OnRead, State.listen_conn]
  exact State.recv_kept (s := s.raise _)

lemma step_kept (hs : step s a = some t) (ha : ∀ bytes, a ≠ .peerSend bytes)
    (ha' : a ≠ .peerShutdown) :
    t.conn.sent = s.conn.sent ∧ t.conn.peerClosed = s.conn.peerClosed := by
  cases a with
  | peerSend bytes => exact absurd rfl (ha bytes)
  | peerShutdown => exact absurd rfl ha'
  | arrive n =>
    cases hs
    exact ⟨rfl, rfl⟩
  | arriveFin =>
    simp only [step, Option.dite_none_right_eq_some, Option.some.injEq] at hs
    obtain ⟨-, rfl⟩ := hs
    exact ⟨rfl, rfl⟩
  | task l =>
    simp only [step] at hs
    split at hs
    · cases hs
    · cases hs
      rw [State.listen_conn]
      exact ⟨rfl, rfl⟩
  | epoll_wait =>
    simp only [step, Option.ite_none_right_eq_some, Option.some.injEq] at hs
    obtain ⟨-, rfl⟩ := hs
    exact ⟨rfl, rfl⟩
  | evtRead size l d =>
    simp only [step] at hs
    split at hs
    · simp only [Option.ite_none_right_eq_some] at hs
      obtain ⟨-, hs⟩ := hs
      split at hs
      · cases hs
        split
        · exact State.OnEventRead_kept
        · exact ⟨rfl, rfl⟩
      · cases hs
        exact ⟨rfl, rfl⟩
    · cases hs
  | evtHangup d =>
    simp only [step] at hs
    split at hs
    · cases hs
      split
      · simp [State.OnEventHangup, State.OnDisconnected, State.closeByLib, State.raise]
      · exact ⟨rfl, rfl⟩
    · cases hs

/-- Moves of the receiver and of the network. -/
def moves (s : State) (a : Action) : Prop :=
  drains s a = true ∧ (∀ bytes, a ≠ .peerSend bytes) ∧ a ≠ .peerShutdown

/-- The receiver can get everything that has been sent. -/
def Got (s : State) : Prop :=
  ∃ t, receiver.LeadsBy moves s t ∧ t.conn.received = t.conn.sent

lemma Conn.received_read {c : Conn} (hf : c.flight = []) {size : Nat}
    (hsize : c.unread.length ≤ size) : (c.read size).received = (c.read size).sent := by
  show c.received ++ c.unread.take size = c.sent
  rw [List.take_of_length_le hsize, c.sent_eq, hf, List.append_nil]

/-- The entry of a registered socket leads to a read callback, which may take all there is. -/
lemma got_entry {ev : Events} (hI : Inv s) (he : s.esMain = .entry ev) (hr : s.isReg = true)
    (hf : s.conn.flight = []) : Got s := by
  let l : Listener := ⟨false, some 0⟩
  let size := s.conn.unread.length + 1
  have hin := (hI.entry ev he hr).1
  have hs : receiver.step s (.evtRead size l l) =
      some { s.OnEventRead size l l with esMain := .afterRead ev } := by
    simp [receiver, step, he, hr, hin, size]
  have hmoves : moves s (.evtRead size l l) := by
    refine ⟨?_, by simp, by simp⟩
    simp [drains, he, size, errorSeen, l]
  refine ⟨_, .single hmoves hs, ?_⟩
  show (s.OnEventRead size l l).conn.received = (s.OnEventRead size l l).conn.sent
  rw [State.OnEventRead_conn, State.OnRead_of_open (hI.registered hr)]
  exact Conn.received_read hf (Nat.le_succ _)

lemma got_epoll_wait (hI : Inv s) (he : s.esMain = .epoll_wait) (hr : s.isReg = true)
    (hf : s.conn.flight = []) : Got s := by
  by_cases hu : s.conn.unread = []
  · refine ⟨s, .refl, ?_⟩
    rw [s.conn.sent_eq, hu, hf, List.append_nil, List.append_nil]
  · have hev : s.events.EPOLLIN = true := by simp [State.events, hu]
    have hs : receiver.step s .epoll_wait = some { s with esMain := .entry s.events } := by
      simp [receiver, step, he, hr, hev]
    obtain ⟨t, hl, ht⟩ := got_entry (hI.epoll_wait (.inl hev)) rfl hr hf
    exact ⟨t, .head ⟨rfl, by simp, by simp⟩ hs hl, ht⟩

lemma got_arrived (hI : Inv s) (hr : s.isReg = true) (hf : s.conn.flight = []) :
    Got s := by
  cases he : s.esMain with
  | epoll_wait => exact got_epoll_wait hI he hr hf
  | entry ev => exact got_entry hI he hr hf
  | afterRead ev =>
    cases hh : ev.EPOLLRDHUP with
    | true => exact ⟨s, .refl, (hI.afterRead ev he hr hh).received⟩
    | false =>
      have hs : receiver.step s (.evtHangup ⟨false, none⟩) =
          some { s with esMain := .epoll_wait } := by
        simp [receiver, step, he, hh]
      obtain ⟨t, hl, ht⟩ := got_epoll_wait hI.skip rfl hr hf
      exact ⟨t, .head ⟨rfl, by simp, by simp⟩ hs hl, ht⟩

/-- After a reset nothing is on its way, and the library gives up the connection only with
nothing left to read. -/
structure Reset (s : State) : Prop where
  registered : s.Registered
  flight : s.conn.flight = []
  entry : ∀ ev, s.esMain = .entry ev → s.isReg = true → ev.EPOLLIN = true
  afterRead : ∀ ev, s.esMain = .afterRead ev → s.isReg = true → ev.EPOLLRDHUP = true →
    s.conn.unread = []
  given_up : s.GivenUp → s.conn.unread = []

namespace Reset

variable {size : Nat} {l d : Listener}

lemma of_inv (h : Inv s) (hp : s.conn.peerClosed = false) (k : Nat) :
    Reset { s with conn := s.conn.reset k } := by
  have hfin : s.conn.fin ≠ true := by
    intro hf
    have hc := (s.conn.fin_last hf).1
    rw [hp] at hc
    cases hc
  refine ⟨h.registered, rfl, fun ev he hr => (h.entry ev he hr).1, ?_, ?_⟩
  · intro ev he hr hh
    exact absurd (h.afterRead ev he hr hh).1 hfin
  · intro hg
    exact absurd (h.given_up hg).1 hfin

lemma listen (h : Reset s) : Reset (s.listen l) := by
  refine ⟨h.registered.listen, ?_, ?_, ?_, ?_⟩
  · rw [State.listen_conn]
    exact h.flight
  · exact fun ev he hr => h.entry ev (State.listen_esMain ▸ he) (State.isReg_of_listen hr)
  · rw [State.listen_conn]
    exact fun ev he hr => h.afterRead ev (State.listen_esMain ▸ he) (State.isReg_of_listen hr)
  · simpa [State.GivenUp] using h.given_up

lemma pollReset (h : Reset s) (hs : s.pollReset = some t) : Reset t := by
  simp only [State.pollReset, Option.ite_none_right_eq_some, Option.some.injEq] at hs
  obtain ⟨-, rfl⟩ := hs
  refine ⟨h.registered, h.flight, ?_, ?_, h.given_up⟩
  · rintro _ ⟨⟩ _
    rfl
  · rintro _ ⟨⟩

/-- With nothing left to read, whatever the callback does is right. -/
lemma of_unread {m : EsMain} (hr : s.Registered) (hf : s.conn.flight = [])
    (hu : s.conn.unread = []) (hm : ∀ ev, m ≠ .entry ev) : Reset { s with esMain := m } where
  registered := hr
  flight := hf
  entry ev he := absurd he (hm ev)
  afterRead _ _ _ _ := hu
  given_up _ := hu

lemma evtRead {ev : Events} (h : Reset s) (he : s.esMain = .entry ev) (hr : s.isReg = true)
    (hsize : 0 < size) (hok : drains s (.evtRead size l d) = true) :
    Reset { s.OnEventRead size l d with esMain := .afterRead ev } := by
  have hfd := h.registered hr
  have hconn : (s.OnEventRead size l d).conn = s.conn.read size := by
    rw [State.OnEventRead_conn, State.OnRead_of_open hfd]
  have hflight : (s.OnEventRead size l d).conn.flight = [] := by
    rw [hconn]
    exact h.flight
  by_cases hu : s.conn.unread = []
  · apply of_unread h.registered.OnEventRead hflight
    · rw [hconn]
      simp [Conn.read, hu]
    · rintro _ ⟨⟩
  · simp only [drains, he, Bool.and_eq_true, Bool.or_eq_true, Bool.not_eq_true',
      decide_eq_true_eq, List.isEmpty_iff, hu, false_or, beq_iff_eq] at hok
    obtain ⟨htakes, hseen⟩ := hok
    have hnot : ¬ s.GivenUp := fun hg => hu (h.given_up hg)
    have hread := State.OnEventRead_data (d := d) hfd hu hsize hseen
    refine ⟨h.registered.OnEventRead, hflight, ?_, ?_, ?_⟩
    · rintro _ ⟨⟩
    · rintro _ ⟨⟩ hreg hhup
      rw [hread] at hreg ⊢
      simp only [Bool.and_eq_true, Bool.not_eq_true'] at hreg
      apply List.drop_eq_nil_of_le
      rcases htakes with (hno | hcl) | hle
      · rw [hno] at hhup
        cases hhup
      · rw [hreg.1] at hcl
        cases hcl
      · exact hle
    · intro hg
      simp only [State.GivenUp, hread, List.mem_append, List.mem_singleton, reduceCtorEq,
        or_false] at hg
      exact absurd hg hnot

lemma skip (h : Reset s) : Reset { s with esMain := .epoll_wait } where
  registered := h.registered
  flight := h.flight
  entry _ he := by cases he
  afterRead _ he := by cases he
  given_up := h.given_up

lemma step (h : Reset s) (hok : drains s a = true) (ha : ∀ bytes, a ≠ .peerSend bytes)
    (hp : a ≠ .epoll_wait) (hs : step s a = some t) : Reset t := by
  cases a with
  | peerSend bytes => exact absurd rfl (ha bytes)
  | epoll_wait => exact absurd rfl hp
  | peerShutdown =>
    cases hs
    exact ⟨h.registered, h.flight, h.entry, h.afterRead, h.given_up⟩
  | arrive n =>
    cases hs
    have hflight := h.flight
    have hconn : (s.conn.arrive n).unread = s.conn.unread := by simp [Conn.arrive, hflight]
    refine ⟨h.registered, by simp [Conn.arrive, hflight], h.entry, ?_, ?_⟩
    · rw [hconn]
      exact h.afterRead
    · rw [hconn]
      exact h.given_up
  | arriveFin =>
    simp only [Receive.step, Option.dite_none_right_eq_some, Option.some.injEq] at hs
    obtain ⟨-, rfl⟩ := hs
    exact ⟨h.registered, h.flight, h.entry, h.afterRead, h.given_up⟩
  | task l =>
    simp only [Receive.step] at hs
    split at hs
    · cases hs
    · cases hs
      exact h.listen
  | evtRead size l d =>
    simp only [Receive.step] at hs
    split at hs
    · rename_i ev he
      simp only [Option.ite_none_right_eq_some] at hs
      obtain ⟨hsize, hs⟩ := hs
      split at hs
      · rename_i hr
        cases hs
        rw [if_pos (h.entry ev he hr)]
        exact h.evtRead he hr hsize hok
      · cases hs
        exact h.skip
    · cases hs
  | evtHangup d =>
    simp only [Receive.step] at hs
    split at hs
    · rename_i ev he
      cases hs
      split
      · rename_i hr
        have hconn : (s.closeByLib.OnDisconnected d).conn = s.conn := by
          simp [State.OnDisconnected, State.closeByLib, State.raise]
        apply of_unread h.registered.closeByLib.OnDisconnected
        · rw [hconn]
          exact h.flight
        · rw [hconn]
          exact h.afterRead ev he hr.1 hr.2
        · rintro _ ⟨⟩
      · exact h.skip
    · cases hs

end Reset

end Receive

namespace Transfer

variable {x y : Transfer} {a : TransferAction} {op : StreamOp}

/-- What connects the two ends. The sender watches for a writable event while something is
pending. -/
structure Inv (x : Transfer) : Prop where
  stream : x.sender.Inv
  wire : x.receiver.conn.sent ++ x.lost = x.sender.sock.wire
  watched : x.sender.sock.mPendingBuf.isSome = true → x.sender.sock.interest.evtWrite = true
  closed : x.receiver.conn.peerClosed = true → x.closed = true
  lost : x.receiver.conn.peerClosed = false → x.lost = []

/-- The receiver up to the reset, and after it. -/
structure Receives (x : Transfer) : Prop where
  before : x.receiver.conn.peerClosed = false → Receive.Inv x.receiver
  reset : x.receiver.conn.peerClosed = true → Receive.Reset x.receiver

end Transfer

namespace EdSmartSocket

variable {s : EdSmartSocket}

/-- What the kernel has taken stays taken, and a pending buffer is watched for. -/
structure Goes (s t : EdSmartSocket) : Prop where
  wire : s.wire <+: t.wire
  watched : (s.mPendingBuf.isSome = true → s.interest.evtWrite = true) →
    t.mPendingBuf.isSome = true → t.interest.evtWrite = true

lemma goes_sendPacket (buf : List UInt8) (r : WriteResult) :
    s.Goes (s.sendPacket buf false true r).2 := by
  cases hp : s.mPendingBuf with
  | some b =>
    have heq : (s.sendPacket buf false true r).2 = s := by simp [sendPacket, hp]
    rw [heq]
    exact ⟨List.prefix_refl _, id⟩
  | none =>
    by_cases hw : (write buf r).1 = buf.length
    · rw [sendPacket_full hp hw]
      exact ⟨List.prefix_append _ _, id⟩
    · by_cases hr : r = .error
      · have heq : (s.sendPacket buf false true r).2 = { s with wire := s.wire ++ [] } := by
          simp [sendPacket, hp, hr, write, show (-1 : Int) ≠ buf.length by omega]
        rw [heq]
        exact ⟨List.prefix_append _ _, id⟩
      · rw [sendPacket_short hp hr hw]
        exact ⟨List.prefix_append _ _, fun _ _ => rfl⟩

lemma goes_procNormalOnWrite (r : WriteResult) : s.Goes (s.procNormalOnWrite r) := by
  cases hp : s.mPendingBuf with
  | none =>
    rw [procNormalOnWrite_idle hp]
    exact ⟨List.prefix_refl _, fun _ h => by simp [changeEvent, hp] at h⟩
  | some b =>
    simp only [procNormalOnWrite, hp]
    split
    · split
      · exact ⟨List.prefix_append _ _, fun _ h => by simp at h⟩
      · exact ⟨List.prefix_append _ _, fun h _ => h (by simp [hp])⟩
    · exact ⟨List.prefix_append _ _, fun h _ => h (by simp [hp])⟩

end EdSmartSocket

namespace Transfer

variable {x y : Transfer} {a : TransferAction} {op : StreamOp}

lemma goes_step (x : Stream) (op : StreamOp) : x.sock.Goes (x.step op).sock := by
  cases op with
  | sendPacket buf r => exact EdSmartSocket.goes_sendPacket buf r
  | procNormalOnWrite r => exact EdSmartSocket.goes_procNormalOnWrite r

lemma send_some (hs : x.send op = some y) : x.closed = false ∧
    ∃ hp : x.receiver.conn.peerClosed = false, y = { x with
      sender := x.sender.step op
      receiver := { x.receiver with conn := x.receiver.conn.peerSend (x.taken op) hp } } := by
  simp only [send, Receive.step] at hs
  split at hs
  · cases hs
  · rename_i hopen
    obtain ⟨s, hrec, rfl⟩ := Option.map_eq_some_iff.mp hs
    simp only [Option.dite_none_right_eq_some, Option.some.injEq] at hrec
    obtain ⟨hp, rfl⟩ := hrec
    exact ⟨by simpa using hopen, hp, rfl⟩

lemma Inv.send (h : x.Inv) (hs : x.send op = some y) : y.Inv := by
  obtain ⟨-, hp, rfl⟩ := send_some hs
  have hg := goes_step x.sender op
  obtain ⟨rest, hrest⟩ := hg.wire
  refine ⟨(h.stream.step op).1, ?_, hg.watched h.watched, h.closed, h.lost⟩
  show x.receiver.conn.sent ++ x.taken op ++ x.lost = _
  have hwire := h.wire
  rw [h.lost hp, List.append_nil] at hwire ⊢
  rw [hwire, taken, ← hrest, List.drop_left]

/-- A step of the receiver is one of the connection without a reset, or a look at a reset one. -/
lemma receive_cases {b : Receive.Action} {s : Receive.State} (hs : x.receive b = some s) :
    (∀ bytes, b ≠ .peerSend bytes) ∧ b ≠ .peerShutdown ∧
      ((x.receiver.conn.peerClosed = true ∧ b = .epoll_wait ∧ x.receiver.pollReset = some s) ∨
        (Receive.step x.receiver b = some s ∧
          (x.receiver.conn.peerClosed = true → b ≠ .epoll_wait))) := by
  cases b with
  | peerSend | peerShutdown => cases hs
  | epoll_wait =>
    refine ⟨fun _ => by rintro ⟨⟩, by rintro ⟨⟩, ?_⟩
    simp only [receive] at hs
    split at hs
    · rename_i hp
      exact .inl ⟨hp, rfl, hs⟩
    · rename_i hp
      exact .inr ⟨hs, fun hp' => absurd hp' hp⟩
  | _ => exact ⟨fun _ => by rintro ⟨⟩, by rintro ⟨⟩, .inr ⟨hs, fun _ => by rintro ⟨⟩⟩⟩

lemma receive_kept {b : Receive.Action} {s : Receive.State} (hs : x.receive b = some s) :
    s.conn.sent = x.receiver.conn.sent ∧ s.conn.peerClosed = x.receiver.conn.peerClosed := by
  obtain ⟨hsend, hshut, ⟨-, -, hpoll⟩ | ⟨hstep, -⟩⟩ := receive_cases hs
  · simp only [Receive.State.pollReset, Option.ite_none_right_eq_some, Option.some.injEq] at hpoll
    obtain ⟨-, rfl⟩ := hpoll
    exact ⟨rfl, rfl⟩
  · exact Receive.step_kept hstep hsend hshut

/-- What a step does. -/
inductive Steps (x : Transfer) : TransferAction → Transfer → Prop
  | send {a : TransferAction} {y : Transfer} (op : StreamOp) (h : x.send op = some y) :
      Steps x a y
  | close : Steps x .close { x with closed := true }
  | reset (k : Nat) (h : x.closed = true) (hp : x.receiver.conn.peerClosed = false) :
      Steps x (.reset k) { x with
        receiver := { x.receiver with conn := x.receiver.conn.reset k }
        lost := x.receiver.conn.unread.drop k ++ x.receiver.conn.flight }
  | receiver (b : Receive.Action) (s : Receive.State) (h : x.receive b = some s) :
      Steps x (.receiver b) { x with receiver := s }

lemma step_cases (hs : transfer.step x a = some y) : x.Steps a y := by
  cases a with
  | sendPacket buf r => exact .send _ hs
  | writable r =>
    simp only [transfer, step, Option.ite_none_right_eq_some] at hs
    exact .send _ hs.2
  | close =>
    cases hs
    exact .close
  | reset k =>
    simp only [transfer, step, Option.ite_none_right_eq_some, Option.some.injEq] at hs
    obtain ⟨⟨hc, hp⟩, rfl⟩ := hs
    exact .reset k hc hp
  | receiver b =>
    obtain ⟨s, hstep, rfl⟩ := Option.map_eq_some_iff.mp hs
    exact .receiver b s hstep

lemma Inv.step (h : x.Inv) (hs : transfer.step x a = some y) : y.Inv := by
  cases step_cases hs with
  | send op hop => exact h.send hop
  | close => exact ⟨h.stream, h.wire, h.watched, fun _ => rfl, h.lost⟩
  | reset k hc hp =>
    refine ⟨h.stream, ?_, h.watched, fun _ => hc, ?_⟩
    · rw [← h.wire, h.lost hp, List.append_nil, x.receiver.conn.sent_eq]
      show x.receiver.conn.received ++ x.receiver.conn.unread.take k ++
        (x.receiver.conn.unread.drop k ++ x.receiver.conn.flight) = _
      rw [← List.append_assoc, List.append_assoc x.receiver.conn.received, List.take_append_drop]
    · rintro ⟨⟩
  | receiver b s hstep =>
    obtain ⟨hsent, hclosed⟩ := receive_kept hstep
    refine ⟨h.stream, ?_, h.watched, fun hp => ?_, fun hp => ?_⟩
    · show s.conn.sent ++ x.lost = _
      rw [hsent]
      exact h.wire
    · exact h.closed (hclosed.symm.trans hp)
    · exact h.lost (hclosed.symm.trans hp)

theorem reachable_inv (h : transfer.Reachable x) : x.Inv := by
  apply h.invariant
  · rintro _ rfl
    exact ⟨Stream.connected_holds.1, rfl, by simp [new, Stream.connected, idleSocket],
      by rintro ⟨⟩, fun _ => rfl⟩
  · exact fun _ _ _ _ hI _ hs => hI.step hs

lemma Receives.step (h : x.Receives) (hok : x.drains a = true) (hs : transfer.step x a = some y) :
    y.Receives := by
  cases step_cases hs with
  | send op hop =>
    obtain ⟨-, hp, rfl⟩ := send_some hop
    refine ⟨fun _ => (h.before hp).grows (Receive.Conn.grows_peerSend hp), fun hc => ?_⟩
    have hc : x.receiver.conn.peerClosed = true := hc
    rw [hp] at hc
    cases hc
  | close => exact ⟨h.before, h.reset⟩
  | reset k hc hp => exact ⟨by rintro ⟨⟩, fun _ => .of_inv (h.before hp) hp k⟩
  | receiver b s hstep =>
    have hclosed := (receive_kept hstep).2
    obtain ⟨hsend, -, ⟨hp, -, hpoll⟩ | ⟨hrec, hne⟩⟩ := receive_cases hstep
    · refine ⟨fun hp' => ?_, fun _ => (h.reset hp).pollReset hpoll⟩
      rw [← hclosed] at hp
      exact absurd (hp.symm.trans hp') (by decide)
    · exact ⟨fun hp => (h.before (hclosed.symm.trans hp)).step hok hrec,
        fun hp => (h.reset (hclosed.symm.trans hp)).step hok hsend
          (hne (hclosed.symm.trans hp)) hrec⟩

lemma reaches_receives (h : transfer.Reaches (fun x a => x.drains a = true) x) : x.Receives := by
  apply h.invariant
  · rintro _ rfl
    exact ⟨fun _ => .init, by rintro ⟨⟩⟩
  · exact fun _ _ _ _ hI hok hs => hI.step hok hs

lemma leads_receiver {s t : Receive.State} (h : Receive.receiver.LeadsBy Receive.moves s t)
    (hp : s.conn.peerClosed = false) :
    transfer.LeadsBy (fun x a => x.drains a = true) { x with receiver := s }
      { x with receiver := t } ∧ t.conn.peerClosed = false := by
  induction h with
  | refl => exact ⟨.refl, hp⟩
  | @step t u a _ hok hs ih =>
    obtain ⟨hd, hsend, hshut⟩ := hok
    obtain ⟨hl, ht⟩ := ih
    have hrec : receive { x with receiver := t } a = some u := by
      cases a with
      | peerSend bytes => exact absurd rfl (hsend bytes)
      | peerShutdown => exact absurd rfl hshut
      | epoll_wait =>
        rw [receive, if_neg (by rw [ht]; decide)]
        exact hs
      | _ => exact hs
    refine ⟨.step hl (a := .receiver a) hd (congrArg (Option.map _) hrec), ?_⟩
    rw [(Receive.step_kept hs hsend hshut).2]
    exact ht

lemma flush (h : x.Inv) (hc : x.closed = false) :
    ∃ y, transfer.LeadsBy (fun x a => x.drains a = true) x y ∧ y.sender.sock.tail = [] ∧
      y.sender.accepted = x.sender.accepted ∧ y.receiver.isReg = x.receiver.isReg ∧
      y.closed = false := by
  have hp : x.receiver.conn.peerClosed = false := by
    cases hp : x.receiver.conn.peerClosed with
    | false => rfl
    | true => exact absurd ((h.closed hp).symm.trans hc) (by decide)
  cases hb : x.sender.sock.mPendingBuf with
  | none => exact ⟨x, .refl, Stream.tail_of_none hb, rfl, rfl, hc⟩
  | some b =>
    let op := StreamOp.procNormalOnWrite (.took b.length)
    have hwire : (x.sender.step op).sock.wire = x.sender.accepted := by
      have hle : x.sender.sock.tail.length ≤ b.length + 1 := by
        simp only [EdSmartSocket.tail, hb, List.length_take, List.length_drop]
        omega
      rw [← h.stream.bytes, ← List.take_of_length_le hle]
      simp only [op, Stream.step, EdSmartSocket.procNormalOnWrite, EdSmartSocket.tail, hb, write]
      split
      · split <;> rfl
      · rfl
    have hs : transfer.step x (.writable (.took b.length)) = x.send op :=
      if_pos (h.watched (by simp [hb]))
    have hsend : x.send op = some { x with
        sender := x.sender.step op
        receiver := { x.receiver with conn := x.receiver.conn.peerSend (x.taken op) hp } } := by
      simp [send, Receive.step, hp, hc]
    refine ⟨_, .single rfl (hs.trans hsend), ?_, rfl, rfl, hc⟩
    have hbytes := (h.stream.step op).1.bytes
    have hacc : (x.sender.step op).accepted = x.sender.accepted := rfl
    rw [hwire, hacc] at hbytes
    exact List.append_right_eq_self.mp hbytes

/-- What has been sent can get through: bytes on their way arrive, and the receiver is called. -/
lemma get (h : transfer.Reaches (fun x a => x.drains a = true) x) (hc : x.closed = false)
    (hr : x.receiver.isReg = true) :
    ∃ y, transfer.LeadsBy (fun x a => x.drains a = true) x y ∧ y.sender = x.sender ∧
      y.receiver.conn.peerClosed = false ∧
      y.receiver.conn.received = y.receiver.conn.sent := by
  have hp : x.receiver.conn.peerClosed = false := by
    cases hp : x.receiver.conn.peerClosed with
    | false => rfl
    | true => exact absurd (((reachable_inv h.reachable).closed hp).symm.trans hc) (by decide)
  let c := x.receiver.conn.arrive x.receiver.conn.flight.length
  have hs : transfer.step x (.receiver (.arrive x.receiver.conn.flight.length)) =
      some { x with receiver := { x.receiver with conn := c } } := rfl
  have hf : c.flight = [] := List.drop_length
  have hI := (reaches_receives (h.step rfl hs)).before hp
  obtain ⟨t, hl, ht⟩ := Receive.got_arrived hI hr hf
  obtain ⟨hl, ht'⟩ := leads_receiver (x := x) hl hp
  exact ⟨{ x with receiver := t }, .head rfl hs hl, rfl, ht', ht⟩

end Transfer

end EdNio.Net
