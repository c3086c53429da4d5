import EdNio.Library.Simulation
import EdNio.Net.TaskSockets

/-!
# The receiving socket among the sockets of a task

The connection followed up to its orderly shutdown is an `EdSocket` of a task with any number of
sockets. Whatever its listeners leave in `lastSockErrorNo` is then done to one more
socket of the task.
-/

namespace EdNio.Net.Receive
open Transition Event

/-- Calls on another socket leave the error as it was, a 0 of its `close` or the `EBADFD` of its
`recv`. -/
def Listener.possible (l : Listener) : Bool :=
  l.others == none || l.others == some 0 || l.others == some EBADFD

def Action.possible : Action → Bool
  | .task l => l.possible
  | .evtRead _ l d => l.possible && d.possible
  | .evtHangup d => d.possible
  | _ => true

/-- The entry as the task has it. -/
def Events.ofSock (ev : Events) (i id : Nat) : SockEntry :=
  ⟨i, id, ev.EPOLLIN, ev.EPOLLRDHUP, false, false, false⟩

/-- The socket, whose registration has the number `id`. -/
def State.socket (s : State) (id : Nat) : EdSocket :=
  if s.isReg then
    { mFd := some s.mFd.toNat
      mEvt := some ⟨id, s.mFd.toNat, true, false, true⟩
      mIsReg := true
      mTask := true
      mStatus := .SOCK_STATUS_CONNECTED
      mType := .SOCK_TYPE_TCP
      mIsListen := false
      mIsBinded := false }
  else .new

lemma State.socket_mFd (s : State) (id : Nat) : (s.socket id).mFd.isSome = s.isReg := by
  unfold State.socket
  cases s.isReg <;> rfl

lemma State.socket_mTask (s : State) (id : Nat) : (s.socket id).mTask = s.isReg := by
  unfold State.socket
  cases s.isReg <;> rfl

lemma State.socket_mIsListen (s : State) (id : Nat) : (s.socket id).mIsListen = false := by
  unfold State.socket
  cases s.isReg <;> rfl

/-- The task takes the batch when it comes to the entry of the socket. -/
def EsMain.pc (i id : Nat) : EsMain → SockPc
  | .afterRead ev => .check .EVT_HANGUP (ev.ofSock i id) []
  | _ => .epoll_wait

/-- A task with the events that it raises on its sockets. -/
def taskEvents : System (Recorded TaskSockets (Nat × SockEvent)) SockAction :=
  taskSockets.recorded (fun t a => (t.run a).bind Prod.snd)

/-- Socket `i` of the task is the one that `s` follows. -/
structure Shows (i id : Nat) (s : State) (t : TaskSockets) : Prop where
  socket : t.socks i = s.socket id
  error : t.lastSockErrorNo = s.lastSockErrorNo
  isReg : s.isReg = decide (0 ≤ s.mFd)

structure Follows (i id : Nat) (s : State) (x : Recorded TaskSockets (Nat × SockEvent)) :
    Prop where
  isShown : Shows i id s x.state
  pc : x.state.pc = s.esMain.pc i id
  log : x.log = s.raised.map (Prod.mk i)

abbrev Leads (x y : Recorded TaskSockets (Nat × SockEvent)) : Prop :=
  taskEvents.LeadsBy (fun _ _ => True) x y

/-- The listener that runs, without what is noted of it. -/
def plain : SockPc → SockPc
  | .OnRead cb e rest => .OnRead (.start cb.sock false) e rest
  | .OnDisconnected cb e rest => .OnDisconnected (.start cb.sock false) e rest
  | pc => pc

variable {i id : Nat} {s : State} {t u : TaskSockets} {ev : Option (Nat × SockEvent)}
  {r : List (Nat × SockEvent)} {l : Listener} {e : SockEntry} {rest : List BatchEntry}

lemma leads {a : SockAction} (h : t.run a = some (u, ev)) :
    Leads ⟨t, r⟩ ⟨u, r ++ ev.toList⟩ := by
  apply System.LeadsBy.single (a := a) trivial
  simp [taskEvents, System.recorded, taskSockets, TaskSockets.step, h]

lemma leads_silent {a : SockAction} (h : t.run a = some (u, none)) : Leads ⟨t, r⟩ ⟨u, r⟩ := by
  have hstep := leads (r := r) h
  rwa [Option.toList_none, List.append_nil] at hstep

lemma plain_note {f : Callback → Callback} (hf : ∀ cb, (f cb).sock = cb.sock) :
    plain (t.note f).pc = plain t.pc := by
  obtain ⟨socks, err, pc, regs, conn, child⟩ := t
  cases pc <;> simp [TaskSockets.note, plain, hf]

lemma userRuns_congr (h : plain u.pc = plain t.pc) : u.userRuns = t.userRuns := by
  have hplain : ∀ t : TaskSockets, t.userRuns = { t with pc := plain t.pc }.userRuns := by
    intro t
    unfold TaskSockets.userRuns
    cases t.pc <;> rfl
  rw [hplain u, hplain t, h]
  rfl

lemma user_run (hruns : t.userRuns = true) : t.user (some u) = some (u, none) := by
  simp [TaskSockets.user, hruns]

namespace Shows

lemma setSock (h : Shows i id s t) {j : Nat} (hj : i ≠ j) (k : EdSocket) :
    Shows i id s (t.setSock j k) :=
  ⟨(TaskSockets.setSock_other t k hj).trans h.socket, h.error, h.isReg⟩

lemma note (h : Shows i id s t) (f : Callback → Callback) : Shows i id s (t.note f) :=
  ⟨h.socket, h.error, h.isReg⟩

lemma goTo (h : Shows i id s t) (pc : SockPc) : Shows i id s { t with pc := pc } :=
  ⟨h.socket, h.error, h.isReg⟩

lemma open_iff (h : Shows i id s t) : (t.socks i).mFd.isSome = decide (0 ≤ s.mFd) := by
  rw [h.socket, ← h.isReg, State.socket_mFd]

lemma mTask_iff (h : Shows i id s t) : (t.socks i).mTask = decide (0 ≤ s.mFd) := by
  rw [h.socket, ← h.isReg, State.socket_mTask]

lemma isReg_iff (h : Shows i id s t) {ev : Events} : t.isReg (ev.ofSock i id) = s.isReg := by
  change (t.socks i).mEvt.any _ = _
  rw [h.socket]
  unfold State.socket
  split
  · rename_i hreg
    simp [hreg, Events.ofSock]
  · rename_i hreg
    simpa [EdSocket.new] using hreg

lemma close (h : Shows i id s t) : Shows i id s.close (t.close i) := by
  have hsock : (t.socks i).close = s.close.socket id := by
    rw [h.socket]
    unfold State.socket State.close
    by_cases hfd : 0 ≤ s.mFd
    · simp [h.isReg, hfd, EdSocket.close, EdSocket.deregisterEvent, EdSocket.new]
    · simp [h.isReg, hfd, EdSocket.close, EdSocket.new]
  refine ⟨(TaskSockets.setSock_self _ _ _).trans hsock, ?_, ?_⟩
  · have herr : (t.close i).lastSockErrorNo = if 0 ≤ s.mFd then 0 else s.lastSockErrorNo := by
      simp [TaskSockets.close, h.open_iff, h.mTask_iff, h.error]
    rw [herr]
    unfold State.close
    split <;> rfl
  · unfold State.close
    split
    · rfl
    · exact h.isReg

lemma isReg_close (h : Shows i id s t) : s.close.isReg = false := by
  rw [h.close.isReg]
  unfold State.close
  split
  · rfl
  · rename_i hfd
    exact decide_eq_false hfd

end Shows

/-- What calls on another socket leave in `lastSockErrorNo` is done by one that is opened. -/
lemma Shows.others (h : Shows i id s t) (hruns : t.userRuns = true) (hl : l.possible = true) :
    ∃ u, Leads ⟨t, r⟩ ⟨u, r⟩ ∧ plain u.pc = plain t.pc ∧
      Shows i id { s with lastSockErrorNo := l.others.getD s.lastSockErrorNo } u := by
  let v := t.setSock (i + 1) ((t.socks (i + 1)).openSock .SOCK_TYPE_TCP (some 6))
  have hv : t.run (.openSock (i + 1) .SOCK_TYPE_TCP (some 6)) = some (v, none) := user_run hruns
  have hshows : Shows i id s v := h.setSock (by omega) _
  have hfd : (v.socks (i + 1)).mFd = some 6 ∧ (v.socks (i + 1)).mTask = true := by
    simp [v, TaskSockets.setSock_self, EdSocket.openSock, EdSocket.setFd]
  simp only [Listener.possible, Bool.or_eq_true, beq_iff_eq] at hl
  rcases hl with (hl | hl) | hl <;> rw [hl]
  · exact ⟨t, .refl, rfl, h⟩
  · let w := v.userClose (i + 1)
    have hw : v.run (.close (i + 1)) = some (w, none) := user_run hruns
    have heq : w = (v.close (i + 1)).note (fun cb => { cb with
        closed := cb.closed || cb.sock = i + 1
        last := some (.close (cb.sock = i + 1)) }) := by
      simp [w, TaskSockets.userClose, hfd]
    refine ⟨w, (leads_silent hv).trans (leads_silent hw), ?_, ?_⟩
    · rw [heq]
      exact plain_note (fun _ => rfl)
    · rw [heq]
      apply Shows.note
      refine ⟨(TaskSockets.setSock_other _ _ (by omega)).trans hshows.socket, ?_, h.isReg⟩
      simp [TaskSockets.close, hfd]
  · let w := { v with lastSockErrorNo := EBADFD }.note (fun cb => { cb with
      eof := cb.eof || cb.sock = i + 1
      last := some (.recv (cb.sock = i + 1)) })
    have hw : v.run (.recv (i + 1) 0) = some (w, none) := by
      have hrecv : v.recv (i + 1) 0 = some w := by simp [TaskSockets.recv, hfd, w]
      change v.user (v.recv (i + 1) 0) = _
      rw [hrecv]
      exact user_run hruns
    refine ⟨w, (leads_silent hv).trans (leads_silent hw), plain_note (fun _ => rfl), ?_⟩
    exact ⟨hshows.socket, rfl, h.isReg⟩

lemma Shows.userClose (h : Shows i id s t) (hruns : t.userRuns = true) :
    ∃ u, Leads ⟨t, r⟩ ⟨u, r⟩ ∧ plain u.pc = plain t.pc ∧ Shows i id s.close u := by
  refine ⟨t.userClose i, leads_silent (a := .close i) (user_run hruns), ?_, ?_⟩
  · unfold TaskSockets.userClose
    split
    · exact plain_note (fun _ => rfl)
    · rfl
  · unfold TaskSockets.userClose
    split
    · exact h.close.note _
    · exact h.close

/-- A listener of the socket, or another callback of the task. -/
lemma Shows.listen (h : Shows i id s t) (hruns : t.userRuns = true) (hl : l.possible = true) :
    ∃ u, Leads ⟨t, r⟩ ⟨u, r⟩ ∧ plain u.pc = plain t.pc ∧ Shows i id (s.listen l) u := by
  have hclosed : ∃ u, Leads ⟨t, r⟩ ⟨u, r⟩ ∧ plain u.pc = plain t.pc ∧
      Shows i id (if l.closes then s.close else s) u := by
    split
    · exact h.userClose hruns
    · exact ⟨t, .refl, rfl, h⟩
  obtain ⟨u, hu, hpc, hs⟩ := hclosed
  obtain ⟨v, hv, hpc', hs'⟩ := hs.others ((userRuns_congr hpc).trans hruns) hl
  refine ⟨v, hu.trans hv, hpc'.trans hpc, ?_⟩
  unfold State.listen
  cases ho : l.others <;> simpa [ho] using hs'

lemma Shows.recv {n : Nat} (h : Shows i id s t) (hruns : t.userRuns = true)
    (hfd : 0 ≤ s.mFd) :
    ∃ u, Leads ⟨t, r⟩ ⟨u, r⟩ ∧ plain u.pc = plain t.pc ∧ Shows i id (s.recv n) u := by
  rw [State.recv_of_open hfd]
  by_cases hret : s.conn.readRet n = 0
  · let w := { t with lastSockErrorNo := EBADFD }.note (fun cb => { cb with
      eof := cb.eof || cb.sock = i
      last := some (.recv (cb.sock = i)) })
    have hrecv : t.recv i 0 = some w := by
      simp [TaskSockets.recv, h.open_iff, h.mTask_iff, hfd, w]
    have hw : t.run (.recv i 0) = some (w, none) := by
      change t.user (t.recv i 0) = _
      rw [hrecv]
      exact user_run hruns
    refine ⟨w, leads_silent hw, plain_note (fun _ => rfl), h.socket, ?_, h.isReg⟩
    simp [w, hret, TaskSockets.note]
  · refine ⟨t, .refl, rfl, h.socket, ?_, h.isReg⟩
    simp only [if_neg hret]
    exact h.error

/-- A read listener returns without an error. -/
lemma leads_return (hpc : plain t.pc = .OnRead (.start i false) e rest)
    (herr : t.lastSockErrorNo = 0) :
    Leads ⟨t, r⟩ ⟨{ t with pc := .check .EVT_HANGUP e rest }, r⟩ := by
  obtain ⟨cb, ht, -⟩ : ∃ cb, t.pc = .OnRead cb e rest ∧ cb.sock = i := by
    cases ht : t.pc <;> simp_all [plain, Callback.start]
  apply leads_silent (a := .listenerReturn)
  simp [TaskSockets.run, TaskSockets.listenerReturn, ht, herr, TaskSockets.nextStage, Stage.next]

lemma leads_disconnected (hpc : plain t.pc = .OnRead (.start i false) e rest)
    (herr : t.lastSockErrorNo ≠ 0) :
    Leads ⟨t, r⟩ ⟨{ t with pc := .OnDisconnected (.start i true) e rest },
      r ++ [(i, .SOCK_EVENT_DISCONNECTED)]⟩ := by
  obtain ⟨cb, ht, rfl⟩ : ∃ cb, t.pc = .OnRead cb e rest ∧ cb.sock = i := by
    cases ht : t.pc <;> simp_all [plain, Callback.start]
  have hreturn : t.run .listenerReturn =
      some ({ t with pc := .OnDisconnected (.start cb.sock true) e rest },
        some (cb.sock, .SOCK_EVENT_DISCONNECTED)) := by
    simp [TaskSockets.run, TaskSockets.listenerReturn, ht, herr]
  exact leads hreturn

/-- After the listener of the disconnection the library closes a socket with an error. -/
lemma leads_given_up (hpc : plain t.pc = .OnDisconnected (.start i false) e rest) :
    Leads ⟨t, r⟩ ⟨{ (if t.lastSockErrorNo ≠ 0 then t.close i else t) with
      pc := .check .EVT_HANGUP e rest }, r⟩ := by
  obtain ⟨cb, ht, rfl⟩ : ∃ cb, t.pc = .OnDisconnected cb e rest ∧ cb.sock = i := by
    cases ht : t.pc <;> simp_all [plain, Callback.start]
  apply leads_silent (a := .listenerReturn)
  simp [TaskSockets.run, TaskSockets.listenerReturn, ht, TaskSockets.nextStage, Stage.next]

/-- `OnEventRead` from its first listener on. -/
lemma Shows.OnEventRead {n : Nat} {d : Listener} {error : Bool} (h : Shows i id s t)
    (hfd : 0 ≤ s.mFd) (hpc : t.pc = .OnRead (.start i error) e rest) (hl : l.possible = true)
    (hd : d.possible = true) :
    ∃ u raised, Leads ⟨t, r⟩ ⟨u, r ++ raised.map (Prod.mk i)⟩ ∧
      u.pc = .check .EVT_HANGUP e rest ∧ Shows i id (s.OnEventRead n l d) u ∧
      (s.OnEventRead n l d).raised = s.raised ++ .SOCK_EVENT_READ :: raised := by
  have hraise : Shows i id (s.raise .SOCK_EVENT_READ) t := ⟨h.socket, h.error, h.isReg⟩
  have hruns : t.userRuns = true := by
    unfold TaskSockets.userRuns
    rw [hpc]
  obtain ⟨v, hv, hvpc, hvs⟩ := hraise.recv (r := r) (n := n) hruns hfd
  obtain ⟨w, hw, hwpc, hws⟩ := hvs.listen (r := r) ((userRuns_congr hvpc).trans hruns) hl
  have hlead := hv.trans hw
  have hplain : plain w.pc = .OnRead (.start i false) e rest := by
    rw [hwpc, hvpc, hpc]
    rfl
  have hread : (s.OnRead n l).raised = s.raised ++ [.SOCK_EVENT_READ] := by
    rw [State.OnRead_of_open hfd]
  change Shows i id (s.OnRead n l) w at hws
  unfold State.OnEventRead
  by_cases herr : (s.OnRead n l).lastSockErrorNo = 0
  · have hreturn := leads_return (r := r) hplain (hws.error.trans herr)
    simp only [herr, ne_eq, not_true_eq_false, if_false]
    refine ⟨_, [], hlead.trans ?_, rfl, hws.goTo _, hread⟩
    simpa using hreturn
  have hreturn := leads_disconnected (r := r) hplain (by rwa [hws.error])
  have hdisc : Shows i id ((s.OnRead n l).raise .SOCK_EVENT_DISCONNECTED)
      { w with pc := .OnDisconnected (.start i true) e rest } := ⟨hws.socket, hws.error, hws.isReg⟩
  obtain ⟨x, hx, hxpc, hxs⟩ := hdisc.listen
    (r := r ++ [(i, .SOCK_EVENT_DISCONNECTED)]) rfl hd
  have hend := leads_given_up (r := r ++ [(i, .SOCK_EVENT_DISCONNECTED)]) (t := x) hxpc
  change Shows i id ((s.OnRead n l).OnDisconnected d) x at hxs
  simp only [herr, ne_eq, not_false_eq_true, if_true]
  refine ⟨_, [.SOCK_EVENT_DISCONNECTED], hlead.trans (hreturn.trans (hx.trans hend)), rfl, ?_, ?_⟩
  · apply Shows.goTo
    rw [hxs.error]
    split
    · exact ⟨hxs.close.socket, hxs.close.error, hxs.close.isReg⟩
    · exact hxs
  · split <;>
      simp [State.closeByLib, State.OnDisconnected, State.raise, hread]

/-- The rest of an entry whose event is not registered any more. -/
lemma leads_closed {st : Stage} (hpc : t.pc = .check st e []) (hreg : t.isReg e = false) :
    Leads ⟨t, r⟩ ⟨{ t with pc := .epoll_wait }, r⟩ := by
  apply System.LeadsBy.trans (u := ⟨{ t with pc := .epoll_wait }, r⟩)
    (leads_silent (a := .esMain 0) (u := { t with pc := .batch [] }) ?_)
  · exact leads_silent (a := .esMain 0) rfl
  · simp [TaskSockets.run, TaskSockets.esMain, hpc, hreg]

lemma leads_part {k : Stage} (hpc : t.pc = .check k e []) (hreg : t.isReg e = true)
    (hno : e.events.calls k = false) :
    Leads ⟨t, r⟩ ⟨{ t with pc := TaskSockets.nextStage k e [] }, r⟩ := by
  apply leads_silent (a := .esMain 0)
  simp [TaskSockets.run, TaskSockets.esMain, hpc, hreg, hno]

/-- The rest of an entry after its read part, without a hang-up. -/
lemma leads_quiet (hpc : t.pc = .check .EVT_HANGUP e []) (hreg : t.isReg e = true)
    (hhup : e.events.calls .EVT_HANGUP = false) (hout : e.events.EPOLLOUT = false) :
    Leads ⟨t, r⟩ ⟨{ t with pc := .epoll_wait }, r⟩ := by
  let go (pc : SockPc) : TaskSockets := { t with pc := pc }
  have hwrite : Leads ⟨t, r⟩ ⟨go (.check .EVT_WRITE e []), r⟩ := leads_part hpc hreg hhup
  have hrelease : Leads ⟨go (.check .EVT_WRITE e []), r⟩ ⟨go (.check .release e []), r⟩ :=
    leads_part (k := .EVT_WRITE) rfl hreg hout
  have hbatch : Leads ⟨go (.check .release e []), r⟩ ⟨go (.batch []), r⟩ :=
    leads_part (k := .release) rfl hreg rfl
  have hend : Leads ⟨go (.batch []), r⟩ ⟨go .epoll_wait, r⟩ :=
    leads_silent (a := .esMain 0) rfl
  exact hwrite.trans (hrelease.trans (hbatch.trans hend))

/-- `OnEventHangup` with its listener, and the rest of the entry. -/
lemma Shows.OnEventHangup {ev : Events} {d : Listener} (h : Shows i id s t)
    (hpc : t.pc = .check .EVT_HANGUP (ev.ofSock i id) [])
    (hreg : t.isReg (ev.ofSock i id) = true)
    (hcalls : (ev.ofSock i id).events.calls .EVT_HANGUP = true) (hd : d.possible = true) :
    ∃ u, Leads ⟨t, r⟩ ⟨{ u with pc := .epoll_wait }, r ++ [(i, .SOCK_EVENT_DISCONNECTED)]⟩ ∧
      Shows i id (s.OnEventHangup d) u := by
  let e := ev.ofSock i id
  let v : TaskSockets := { t.close i with pc := .listener .EVT_HANGUP e [] }
  have hv : Shows i id (s.closeByLib.raise .SOCK_EVENT_DISCONNECTED) v :=
    ⟨h.close.socket, h.close.error, h.close.isReg⟩
  have hcall : t.run (.esMain 0) = some (v, some (i, .SOCK_EVENT_DISCONNECTED)) := by
    simp only [TaskSockets.run, TaskSockets.esMain, hpc, hreg, hcalls, if_true,
      Bool.true_eq_false, if_false]
    rfl
  obtain ⟨u, hu, hupc, hus⟩ := hv.listen (r := r ++ [(i, .SOCK_EVENT_DISCONNECTED)]) rfl hd
  have hupc' : u.pc = .listener .EVT_HANGUP e [] := by
    cases hp : u.pc <;> simp_all [plain, v]
  let w : TaskSockets := { u with pc := .check .EVT_WRITE e [] }
  have hreturn : u.run .listenerReturn = some (w, none) := by
    simp [TaskSockets.run, TaskSockets.listenerReturn, hupc', TaskSockets.nextStage, Stage.next, w]
  have hclosed : w.isReg e = false := by
    change u.isReg e = false
    rw [Shows.isReg_iff hus]
    cases hr : ((s.closeByLib.raise .SOCK_EVENT_DISCONNECTED).listen d).isReg with
    | false => rfl
    | true =>
      have hopen : (s.closeByLib.raise .SOCK_EVENT_DISCONNECTED).isReg = true :=
        State.isReg_of_listen hr
      change s.close.isReg = true at hopen
      rw [h.isReg_close] at hopen
      cases hopen
  have hend := leads_closed (t := w) (r := r ++ [(i, .SOCK_EVENT_DISCONNECTED)]) rfl hclosed
  exact ⟨u, System.LeadsBy.trans (leads hcall)
    (hu.trans (System.LeadsBy.trans (leads_silent hreturn) hend)), hus⟩

namespace Follows

variable {x : Recorded TaskSockets (Nat × SockEvent)} {a : Action} {s' : State}

/-- Steps of the peer and of the kernel do not show. -/
lemma silent (h : Follows i id s x) (hfd : s'.mFd = s.mFd) (hreg : s'.isReg = s.isReg)
    (herr : s'.lastSockErrorNo = s.lastSockErrorNo) (hpc : s'.esMain.pc i id = s.esMain.pc i id)
    (hraised : s'.raised = s.raised) : Follows i id s' x := by
  refine ⟨⟨?_, ?_, ?_⟩, ?_, ?_⟩
  · rw [h.isShown.socket]
    simp only [State.socket, hfd, hreg]
  · rw [herr, h.isShown.error]
  · rw [hreg, hfd, h.isShown.isReg]
  · rw [hpc, h.pc]
  · rw [hraised, h.log]

lemma task (h : Follows i id s x) (hpc : s.esMain.pc i id = .epoll_wait)
    (hl : l.possible = true) : ∃ y, Leads x y ∧ Follows i id (s.listen l) y := by
  obtain ⟨t, r⟩ := x
  have ht : t.pc = .epoll_wait := h.pc.trans hpc
  have hbatch : t.run (.epoll_wait [.other]) = some ({ t with pc := .batch [.other] }, none) := by
    simp [TaskSockets.run, ht, TaskSockets.reports]
  have hother : { t with pc := .batch [.other] }.run (.esMain 0) =
      some ({ t with pc := .other [] }, none) := rfl
  obtain ⟨u, hu, hupc, hus⟩ := (h.isShown.goTo (.other [])).listen (r := r) rfl hl
  have hupc' : u.pc = .other [] := by
    cases hp : u.pc <;> simp_all [plain]
  have hreturn : u.run .listenerReturn = some ({ u with pc := .batch [] }, none) := by
    simp [TaskSockets.run, TaskSockets.listenerReturn, hupc']
  refine ⟨⟨{ u with pc := .epoll_wait }, r⟩, ?_, ⟨hus.goTo _, ?_, ?_⟩⟩
  · apply System.LeadsBy.trans (leads_silent hbatch)
    apply System.LeadsBy.trans (leads_silent hother)
    apply hu.trans
    apply System.LeadsBy.trans (leads_silent hreturn)
    exact leads_silent (a := .esMain 0) rfl
  · rw [State.listen_esMain]
    exact hpc.symm
  · rw [State.listen_raised]
    exact h.log

/-- The task takes the entry and looks at it. -/
lemma leads_entry {ev : Events} (h : Follows i id s x) (he : s.esMain = .entry ev)
    (hreg : s.isReg = true) :
    Leads x ⟨{ x.state with pc := .check .EVT_READ (ev.ofSock i id) [] }, x.log⟩ := by
  obtain ⟨t, r⟩ := x
  have ht : t.pc = .epoll_wait := by rw [h.pc, he]; rfl
  have hreports : t.reports (.sock (ev.ofSock i id)) = true := by
    change (t.socks i).mEvt.any _ = true
    rw [h.isShown.socket]
    simp [State.socket, hreg, Events.ofSock]
  have hbatch : t.run (.epoll_wait [.sock (ev.ofSock i id)]) =
      some ({ t with pc := .batch [.sock (ev.ofSock i id)] }, none) := by
    simp [TaskSockets.run, ht, hreports]
  exact System.LeadsBy.trans (leads_silent hbatch) (leads_silent (a := .esMain 0) rfl)

lemma evtRead {ev : Events} {size : Nat} {d : Listener} (h : Follows i id s x)
    (he : s.esMain = .entry ev) (hreg : s.isReg = true) (hl : l.possible = true)
    (hd : d.possible = true) : ∃ y, Leads x y ∧ Follows i id
      { (if ev.EPOLLIN then s.OnEventRead size l d else s) with esMain := .afterRead ev } y := by
  have hentry := h.leads_entry he hreg
  let e := ev.ofSock i id
  let t : TaskSockets := { x.state with pc := .check .EVT_READ e [] }
  have hshows : Shows i id s t := h.isShown.goTo _
  have ht : t.isReg e = true := hshows.isReg_iff.trans hreg
  cases hin : ev.EPOLLIN with
  | false =>
    have hpart := leads_part (t := t) (r := x.log) (k := .EVT_READ) rfl ht hin
    simp only [Bool.false_eq_true, if_false]
    exact ⟨_, hentry.trans hpart, ⟨hshows.socket, hshows.error, hshows.isReg⟩, rfl, h.log⟩
  | true =>
    have hfd : 0 ≤ s.mFd := by
      rw [h.isShown.isReg] at hreg
      exact of_decide_eq_true hreg
    have hlisten : (t.socks e.sock).mIsListen = false := by
      change (t.socks i).mIsListen = false
      rw [hshows.socket, State.socket_mIsListen]
    let u : TaskSockets := { t with pc := .OnRead (.start i (t.lastSockErrorNo ≠ 0)) e [] }
    have hcall : t.run (.esMain 0) = some (u, some (i, .SOCK_EVENT_READ)) := by
      have hevtcb : t.OnEventRead e [] = (u, some (i, .SOCK_EVENT_READ)) := by
        unfold TaskSockets.OnEventRead
        rw [if_pos hlisten]
        rfl
      have hcalls : e.events.calls .EVT_READ = true := hin
      change (if t.isReg e = false then _ else if _ then some (t.OnEventRead e []) else _) = _
      rw [ht, hevtcb, if_neg (by simp), if_pos hcalls]
    obtain ⟨v, raised, hv, hpc, hvs, hraised⟩ := Shows.OnEventRead (t := u)
      (r := x.log ++ [(i, .SOCK_EVENT_READ)]) (n := size) ⟨hshows.socket, hshows.error,
        hshows.isReg⟩ hfd rfl hl hd
    simp only [if_true]
    refine ⟨⟨v, _⟩, hentry.trans (System.LeadsBy.trans (leads hcall) hv), ?_, hpc, ?_⟩
    · exact ⟨hvs.socket, hvs.error, hvs.isReg⟩
    · simp [hraised, h.log]

lemma evtHangup {ev : Events} {d : Listener} (h : Follows i id s x)
    (he : s.esMain = .afterRead ev) (hd : d.possible = true) : ∃ y, Leads x y ∧ Follows i id
      { (if s.isReg ∧ ev.EPOLLRDHUP then s.OnEventHangup d else s) with
        esMain := .epoll_wait } y := by
  obtain ⟨t, r⟩ := x
  let e := ev.ofSock i id
  have ht : t.pc = .check .EVT_HANGUP e [] := by rw [h.pc, he]; rfl
  have hreg : t.isReg e = s.isReg := h.isShown.isReg_iff
  have hskip : Follows i id { s with esMain := .epoll_wait } ⟨{ t with pc := .epoll_wait }, r⟩ :=
    ⟨⟨h.isShown.socket, h.isShown.error, h.isShown.isReg⟩, rfl, h.log⟩
  by_cases hr : s.isReg = true
  · by_cases hh : ev.EPOLLRDHUP = true
    · rw [if_pos ⟨hr, hh⟩]
      obtain ⟨u, hu, hus⟩ := h.isShown.OnEventHangup (r := r) ht (hreg.trans hr)
        (by simp [Events.ofSock, Event.Events.calls, hh]) hd
      refine ⟨_, hu, ⟨hus.socket, hus.error, hus.isReg⟩, rfl, ?_⟩
      have hlog : r = s.raised.map (Prod.mk i) := h.log
      simp [State.OnEventHangup, State.OnDisconnected, State.raise, State.closeByLib, hlog]
    · rw [if_neg (fun hb => hh hb.2)]
      have hhup : e.events.calls .EVT_HANGUP = false := by
        simpa [e, Events.ofSock, Event.Events.calls] using hh
      exact ⟨_, leads_quiet ht (hreg.trans hr) hhup rfl, hskip⟩
  · rw [if_neg (fun hb => hr hb.1)]
    exact ⟨_, leads_closed ht (by simpa [hreg] using hr), hskip⟩

lemma step (h : Follows i id s x) (ha : a.possible = true) (hs : Receive.step s a = some s') :
    ∃ y, Leads x y ∧ Follows i id s' y := by
  cases a with
  | peerSend bytes =>
    simp only [Receive.step, Option.dite_none_right_eq_some, Option.some.injEq] at hs
    obtain ⟨-, rfl⟩ := hs
    exact ⟨x, .refl, h.silent rfl rfl rfl rfl rfl⟩
  | peerShutdown | arrive n =>
    cases hs
    exact ⟨x, .refl, h.silent rfl rfl rfl rfl rfl⟩
  | arriveFin =>
    simp only [Receive.step, Option.dite_none_right_eq_some, Option.some.injEq] at hs
    obtain ⟨-, rfl⟩ := hs
    exact ⟨x, .refl, h.silent rfl rfl rfl rfl rfl⟩
  | task l =>
    simp only [Receive.step] at hs
    split at hs
    · cases hs
    · rename_i hpc
      cases hs
      refine h.task ?_ ha
      cases he : s.esMain with
      | afterRead ev => exact absurd he (hpc ev)
      | epoll_wait | entry ev => rfl
  | epoll_wait =>
    simp only [Receive.step, Option.ite_none_right_eq_some, Option.some.injEq] at hs
    obtain ⟨⟨hpc, -⟩, rfl⟩ := hs
    exact ⟨x, .refl, h.silent rfl rfl rfl (by rw [hpc]; rfl) rfl⟩
  | evtRead size l d =>
    simp only [Action.possible, Bool.and_eq_true] at ha
    simp only [Receive.step] at hs
    split at hs
    · rename_i ev he
      obtain ⟨-, hs⟩ := Option.ite_none_right_eq_some.mp hs
      split at hs
      · rename_i hreg
        cases hs
        exact h.evtRead he hreg ha.1 ha.2
      · cases hs
        exact ⟨x, .refl, h.silent rfl rfl rfl (by rw [he]; rfl) rfl⟩
    · cases hs
  | evtHangup d =>
    simp only [Receive.step] at hs
    split at hs
    · rename_i ev he
      cases hs
      exact h.evtHangup he ha
    · cases hs

end Follows

/-- The socket is opened for a connection that a listening socket has accepted. -/
lemma accepted (i : Nat) : ∃ x, taskEvents.Reachable x ∧ Follows i 0 State.init x := by
  let t : TaskSockets := { TaskSockets.new with pc := .other [] }
  let k : EdSocket := State.init.socket 0
  have hpc : Leads ⟨.new, []⟩ ⟨t, []⟩ :=
    System.LeadsBy.trans (leads_silent (a := .epoll_wait [.other]) rfl)
      (leads_silent (a := .esMain 0) rfl)
  have hopen : Leads ⟨t, []⟩ ⟨t.registers.opened i true k, []⟩ :=
    leads_silent (a := .openChildSock i 5 true) rfl
  have hend : Leads ⟨t.registers.opened i true k, []⟩
      ⟨{ t.registers.opened i true k with pc := .epoll_wait }, []⟩ :=
    System.LeadsBy.trans (leads_silent (a := .listenerReturn) rfl)
      (leads_silent (a := .esMain 0) rfl)
  have hnew : taskEvents.Reachable ⟨.new, []⟩ := .init ⟨rfl, rfl⟩
  refine ⟨_, hnew.leadsBy (hpc.trans (hopen.trans hend)), ⟨?_, rfl, rfl⟩, rfl, rfl⟩
  exact TaskSockets.setSock_self _ _ _

/-- Each run of the receiver is a run of a socket in its task: `lastSockErrorNo` is the same, and
the task raises the same events, all on that socket. -/
theorem receiver_in_task (i : Nat)
    (h : receiver.Reaches (fun _ a => a.possible = true) s) : ∃ x, taskEvents.Reachable x ∧
      x.state.socks i = s.socket 0 ∧ x.state.lastSockErrorNo = s.lastSockErrorNo ∧
        x.log = s.raised.map (Prod.mk i) := by
  have hfollows : ∃ x, taskEvents.Reachable x ∧ Follows i 0 s x := by
    induction h with
    | init h0 => exact h0 ▸ accepted i
    | step _ ha hs ih =>
      obtain ⟨x, hr, hf⟩ := ih
      obtain ⟨y, hl, hf'⟩ := hf.step ha hs
      exact ⟨y, hr.leadsBy hl, hf'⟩
  obtain ⟨x, hr, hf⟩ := hfollows
  exact ⟨x, hr, hf.isShown.socket, hf.isShown.error, hf.log⟩

end EdNio.Net.Receive
