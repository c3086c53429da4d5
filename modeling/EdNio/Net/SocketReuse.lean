import EdNio.Library.Observation
import EdNio.Net.SocketSteps

/-!
# Reuse of a socket

The user of a task sees the events given to its listeners and the results of its calls.
`close` leaves some members of `EdSocket` as they are, and with no descriptor nearly all.
-/

namespace EdNio.Net
open Transition Event
open Receive (SockEvent)

def EALREADY : Int := 114

namespace EdSocket

variable (s : EdSocket)

/-- What `connect(ip, port)` returns; `cnnret` is the result of the system call. -/
def connectIpResult (fd : Option Nat) (cnnret : Int) : Int :=
  if s.mStatus = .SOCK_STATUS_CONNECTED then 0
  else if s.mStatus ≠ .SOCK_STATUS_DISCONNECTED then EALREADY
  else
    let s := if s.mFd = none then s.openSock .SOCK_TYPE_TCP fd else s
    if s.mType = .SOCK_TYPE_TCP ∨ s.mType = .SOCK_TYPE_UDP then cnnret else -1

/-- What `connect(addr, port)` returns. -/
def connectAddrResult (fd : Option Nat) (cnn : CnnResult) (cnnret : Int) : Int :=
  if s.mType = .SOCK_TYPE_TCP ∨ s.mType = .SOCK_TYPE_UDP then s.connectIpResult fd cnnret
  else if s.mStatus ≠ .SOCK_STATUS_DISCONNECTED then EALREADY
  else if cnn = .connected then 0 else -1

def bindSockResult (bound : Bool) : Int :=
  if bound then 0 else -1

def listenSockResult (bound listened : Bool) : Int :=
  let type := if s.mIsBinded = false ∧ s.mFd = none then .SOCK_TYPE_TCP else s.mType
  if s.mIsBinded = false ∧ bound = false then bindSockResult bound
  else if (type = .SOCK_TYPE_TCP ∨ type = .SOCK_TYPE_UNIXSTREAM) ∧ listened then 0 else -1

/-- What `close` leaves as it is has the value of a new socket. -/
def Reusable : Prop :=
  s.mIsListen = false ∧
    (s.mFd.isSome = true ∨ s.mIsReg = false ∧ s.mStatus = .SOCK_STATUS_DISCONNECTED)

/-- The members that `openSock` leaves and that a closed socket may have kept. -/
def LikeNew : Prop :=
  s.mIsListen = false ∧ s.mIsReg = false ∧ s.mStatus = .SOCK_STATUS_DISCONNECTED

end EdSocket

/-- The result of a call; `ret` is that of the system call in `connect`. -/
def TaskSockets.result (s : TaskSockets) (a : SockAction) (ret : Int) : Option Int :=
  match a with
  | .openSock _ _ fd => some (fd.elim (-1) Int.ofNat)
  | .bindSock _ _ bound _ => some (EdSocket.bindSockResult bound)
  | .listenSock i _ bound listened _ => some ((s.socks i).listenSockResult bound listened)
  | .connectIp i fd _ => some ((s.socks i).connectIpResult fd ret)
  | .connectAddr i fd cnn _ => some ((s.socks i).connectAddrResult fd cnn ret)
  | .recv _ ret => some ret
  | _ => none

def Status.toInt : Status → Int
  | .SOCK_STATUS_DISCONNECTED => 0
  | .SOCK_STATUS_CONNECTING => 1
  | .SOCK_STATUS_CONNECTED => 2
  | .SOCK_STATUS_LISTENING => 3

lemma Status.toInt_injective : Function.Injective Status.toInt := by
  intro st st' heq
  cases st <;> cases st' <;> first | rfl | cases heq

/-- A step, with what a system call in it returns, or a question of the user. -/
inductive SockInput
  | step (a : SockAction) (ret : Int)
  | getStatus (i : Nat)
deriving DecidableEq, Repr

/-- What the user of the task sees: the event given to a listener, the result of a call. -/
def sockMachine : Machine TaskSockets SockInput (Option (Nat × SockEvent) × Option Int) where
  run s x :=
    match x with
    | .step a ret => (s.run a).map (fun (t, ev) => (t, (ev, s.result a ret)))
    | .getStatus i =>
      if s.userRuns then some (s, (none, some (s.socks i).mStatus.toInt)) else none

/-- Socket `i`, opened now, is seen as a new socket in its place would be. -/
def SameAsNew (s : TaskSockets) (i : Nat) : Prop :=
  ∀ type fd ret as,
    sockMachine.outputs s (.step (.openSock i type fd) ret :: as) =
      sockMachine.outputs (s.setSock i .new) (.step (.openSock i type fd) ret :: as)

namespace EdSocket

variable {s t : EdSocket} {flags : Interest} {pevt fd : Option Nat}

/-- A socket with an event has registered it. -/
def EvtReg (s : EdSocket) : Prop :=
  s.mEvt ≠ none → s.mIsReg = true

namespace EvtReg

lemma registerEvent (h : s.EvtReg) (hs : s.registerEvent flags pevt = some t) : t.EvtReg := by
  rcases registerEvent_cases hs with rfl | rfl
  · exact h
  · exact fun _ => rfl

lemma changeEvent (h : s.EvtReg) (hs : s.changeEvent flags pevt = some t) : t.EvtReg := by
  unfold EdSocket.changeEvent at hs
  cases hr : s.mEvt with
  | none =>
    rw [hr] at hs
    exact h.registerEvent hs
  | some r =>
    rw [hr] at hs
    cases hs
    exact fun _ => h (by simp [hr])

lemma completeConnection (h : s.EvtReg) (hs : s.completeConnection pevt = some t) :
    t.EvtReg := by
  have hstatus : { s with mStatus := .SOCK_STATUS_CONNECTED }.EvtReg := h
  exact hstatus.changeEvent hs

lemma close (h : s.EvtReg) : s.close.EvtReg := by
  unfold EdSocket.close deregisterEvent
  split
  · by_cases hreg : s.mIsReg = false
    · rw [if_pos hreg]
      exact h
    · rw [if_neg hreg]
      exact fun hne => absurd rfl hne
  · exact h

lemma opened (h : s.EvtReg) (fd : Option Nat) : (s.opened fd).EvtReg := by
  unfold EdSocket.opened
  split <;> exact h

lemma registers (h : s.EvtReg) (hr : s.Registers flags t) : t.EvtReg := by
  induction hr with
  | refl => exact h
  | mark _ _ hevt hreg _ ih =>
    intro hne
    rw [hevt] at hne
    exact hreg.trans (ih hne)
  | register _ hs ih => exact ih.registerEvent hs

lemma openChildSock {fd : Nat} (h : s.EvtReg) (hs : s.openChildSock fd pevt = some t) :
    t.EvtReg := by
  have hopen : (s.setFd (some fd)).EvtReg := h
  exact hopen.registers (openChildSock_registers hs)

lemma connectIp (h : s.EvtReg) (hs : s.connectIp fd pevt = some t) : t.EvtReg := by
  rcases connectIp_cases hs with ⟨-, hr⟩ | ⟨-, rfl⟩
  · exact (h.opened fd).registers hr
  · exact h

end EvtReg

end EdSocket

lemma SockAction.call_evtReg {s : TaskSockets} {a : SockAction} {i : Nat} {k : EdSocket}
    (h : ∀ i, (s.socks i).EvtReg) (hk : a.call s = some (i, k)) : k.EvtReg := by
  cases SockAction.call_cases hk with
  | openSock => exact h i
  | openChildSock hk => exact (h i).openChildSock hk
  | bindSock hk => exact ((h i).opened _).registers (EdSocket.bindSock_registers hk)
  | listenSock hk =>
    rcases EdSocket.listenSock_cases hk with ⟨-, hr⟩ | ⟨-, hr⟩
    · exact ((h i).opened _).registers hr
    · exact (h i).registers hr
  | connectIp hk => exact (h i).connectIp hk
  | connectAddr hk =>
    rcases EdSocket.connectAddr_cases hk with ⟨-, hs⟩ | ⟨-, hr⟩
    · exact (h i).connectIp hs
    · exact (h i).registers hr
  | changeEvent hk => exact (h i).changeEvent hk

namespace TaskSockets

variable {s t : TaskSockets} {a : SockAction} {ev : Option (Nat × SockEvent)} {i : Nat}

lemma evtReg_run (h : ∀ i, (s.socks i).EvtReg) (hs : s.run a = some (t, ev)) :
    ∀ i, (t.socks i).EvtReg :=
  socks_keep h hs (fun _ hk => hk.close) (fun _ _ hk hc => hk.completeConnection hc)
    (fun _ _ hk => SockAction.call_evtReg h hk)

lemma reachable_evtReg (hr : taskSockets.Reachable s) : ∀ i, (s.socks i).EvtReg := by
  refine hr.invariant (I := fun s => ∀ i, (s.socks i).EvtReg) ?_ (fun s a t _ hI _ hs => ?_)
  · rintro _ rfl i hne
    exact absurd rfl hne
  · obtain ⟨ev, hrun⟩ := step_run hs
    exact evtReg_run hI hrun

end TaskSockets

namespace EdSocket

variable {s t : EdSocket} {b : Bool}

/-- The socket with its listen flag taken off, if `b`. -/
def unlisten (b : Bool) (s : EdSocket) : EdSocket :=
  { s with mIsListen := s.mIsListen && !b }

lemma unlisten_false : s.unlisten false = s := by
  simp [unlisten]

lemma close_unlisten : (s.unlisten b).close = s.close.unlisten b := by
  obtain ⟨mFd, mEvt, mIsReg, mTask, mStatus, mType, mIsListen, mIsBinded⟩ := s
  cases mFd <;> cases mIsReg <;> rfl

lemma close_none (h : s.mFd = none) : s.close = { s with mIsBinded := false } := by
  simp [close, h]

lemma close_some (h : s.mFd.isSome = true) :
    s.close.mIsReg = false ∧ s.close.mStatus = .SOCK_STATUS_DISCONNECTED := by
  simp only [close, h, if_true, deregisterEvent]
  split
  case isTrue hreg => exact ⟨hreg, trivial⟩
  case isFalse => exact ⟨rfl, trivial⟩

lemma close_mIsListen : s.close.mIsListen = s.mIsListen := by
  obtain ⟨mFd, mEvt, mIsReg, mTask, mStatus, mType, mIsListen, mIsBinded⟩ := s
  cases mFd <;> cases mIsReg <;> rfl

lemma close_likeNew : s.close.LikeNew ↔ s.Reusable := by
  unfold LikeNew Reusable
  rw [close_mIsListen]
  cases hfd : s.mFd with
  | none => simp [close_none hfd]
  | some fd =>
    have hfd : s.mFd.isSome = true := by
      rw [hfd]
      rfl
    simp [close_some hfd]

/-- Of a socket that is closed and not registered `openSock` leaves the listen flag. -/
lemma openSock_eq (h : s.EvtReg) (hreg : s.mIsReg = false)
    (hstatus : s.mStatus = .SOCK_STATUS_DISCONNECTED) (hbinded : s.mIsBinded = false)
    (type : SockType) (fd : Option Nat) :
    s.openSock type fd = { EdSocket.new.openSock type fd with mIsListen := s.mIsListen } := by
  have hevt : s.mEvt = none := by
    by_contra hne
    exact absurd (h hne) (by simp [hreg])
  simp [openSock, setFd, EdSocket.new, hevt, hreg, hstatus, hbinded]

/-- The connected socket, with the registration it has. -/
lemma completeConnection_some {r : Registration} (hr : s.mEvt = some r) (pevt : Option Nat) :
    s.completeConnection pevt = some { s with
      mStatus := .SOCK_STATUS_CONNECTED
      mEvt := some { r with interest := ⟨true, false, true⟩ } } := by
  simp [completeConnection, changeEvent, hr]

end EdSocket

/-- The stages of an entry that are still to come. -/
def stagesLeft : Stage → Nat
  | .EVT_READ => 8
  | .EVT_HANGUP => 4
  | .EVT_WRITE => 2
  | .release => 0

/-- What is left of a batch, in entries and stages. -/
def SockPc.left : SockPc → Nat
  | .epoll_wait => 0
  | .batch rest => 16 * rest.length + 1
  | .other rest => 16 * rest.length + 2
  | .check st _ rest => 16 * rest.length + stagesLeft st + 4
  | .OnRead _ _ rest => 16 * rest.length + 11
  | .OnDisconnected _ _ rest => 16 * rest.length + 10
  | .listener st _ rest => 16 * rest.length + stagesLeft st + 3

lemma left_nextStage (st : Stage) (e : SockEntry) (rest : List BatchEntry) :
    (TaskSockets.nextStage st e rest).left < 16 * rest.length + stagesLeft st + 3 := by
  cases st <;> simp [TaskSockets.nextStage, Stage.next, SockPc.left, stagesLeft]

namespace TaskSockets

variable {s t : TaskSockets} {i : Nat}

/-- The same state, but for the listen flag of socket `i`. -/
structure Unlistened (i : Nat) (s t : TaskSockets) : Prop where
  pc : t.pc = s.pc
  err : t.lastSockErrorNo = s.lastSockErrorNo
  regs : t.regs = s.regs
  socks : ∀ j, t.socks j = (s.socks j).unlisten (j == i)
  listen : (s.socks i).mIsListen = true

lemma Unlistened.goTo (h : Unlistened i s t) (pc : SockPc) :
    Unlistened i { s with pc := pc } { t with pc := pc } :=
  ⟨rfl, h.err, h.regs, h.socks, h.listen⟩

lemma Unlistened.setSock (h : Unlistened i s t) {j : Nat} {k : EdSocket}
    (hk : k.mIsListen = (s.socks j).mIsListen) :
    Unlistened i (s.setSock j k) (t.setSock j (k.unlisten (j == i))) where
  pc := h.pc
  err := h.err
  regs := h.regs
  socks j' := by
    by_cases hj : j' = j
    · rw [hj, setSock_self, setSock_self]
    · rw [setSock_other _ _ hj, setSock_other _ _ hj]
      exact h.socks j'
  listen := by
    by_cases hi : i = j
    · rw [hi] at h ⊢
      simpa [TaskSockets.setSock, hk] using h.listen
    · simpa [TaskSockets.setSock, hi] using h.listen

lemma Unlistened.close (h : Unlistened i s t) (j : Nat) : Unlistened i (s.close j) (t.close j) := by
  have hset := h.setSock (j := j) EdSocket.close_mIsListen
  rw [← EdSocket.close_unlisten, ← h.socks j] at hset
  refine ⟨h.pc, ?_, h.regs, hset.socks, hset.listen⟩
  simp only [TaskSockets.close, h.socks j, EdSocket.unlisten, h.err]

lemma Unlistened.isReg (h : Unlistened i s t) (e : SockEntry) : t.isReg e = s.isReg e := by
  simp [TaskSockets.isReg, h.socks, EdSocket.unlisten]

/-- Related states go on alike, or show what the flag is. -/
def GoesOn (i : Nat) (s : TaskSockets) (o o' : Option Outcome) : Prop :=
  ∃ s' t' ev ev', o = some (s', ev) ∧ o' = some (t', ev') ∧
    (ev ≠ ev' ∨ Unlistened i s' t' ∧ s'.pc.left < s.pc.left)

lemma Unlistened.OnEventRead {e : SockEntry} {rest : List BatchEntry} (h : Unlistened i s t)
    (hs : s.pc = .check .EVT_READ e rest) :
    GoesOn i s (some (s.OnEventRead e rest)) (some (t.OnEventRead e rest)) := by
  rw [GoesOn, hs]
  by_cases hi : e.sock = i
  · have hs' : s.OnEventRead e rest = ({ s with pc := .listener .EVT_READ e rest },
        some (e.sock, .SOCK_EVENT_INCOMING_ACCEPT)) := by
      simp [TaskSockets.OnEventRead, hi, h.listen]
    have ht' : t.OnEventRead e rest =
        ({ t with pc := .OnRead (.start e.sock (t.lastSockErrorNo ≠ 0)) e rest },
          some (e.sock, .SOCK_EVENT_READ)) := by
      simp [TaskSockets.OnEventRead, hi, h.socks, EdSocket.unlisten]
    rw [hs', ht']
    exact ⟨_, _, _, _, rfl, rfl, .inl (by simp)⟩
  · have hflag : (t.socks e.sock).mIsListen = (s.socks e.sock).mIsListen := by
      simp [h.socks, EdSocket.unlisten, hi]
    have hcb : Callback.start e.sock (t.lastSockErrorNo ≠ 0) =
        .start e.sock (s.lastSockErrorNo ≠ 0) := by
      rw [h.err]
    unfold TaskSockets.OnEventRead
    rw [hflag, hcb]
    split <;> exact ⟨_, _, _, _, rfl, rfl, .inr ⟨h.goTo _, by simp [SockPc.left, stagesLeft]⟩⟩

lemma Unlistened.OnEventWrite {e : SockEntry} {rest : List BatchEntry} (h : Unlistened i s t)
    (hs : s.pc = .check .EVT_WRITE e rest) (hreg : s.isReg e = true) :
    GoesOn i s (s.OnEventWrite 0 e rest) (t.OnEventWrite 0 e rest) := by
  have hstatus : (t.socks e.sock).mStatus = (s.socks e.sock).mStatus := by
    rw [h.socks]
    rfl
  have hleft : (SockPc.listener .EVT_WRITE e rest).left < s.pc.left := by
    simp [hs, SockPc.left]
  unfold TaskSockets.OnEventWrite
  rw [hstatus]
  split
  · obtain ⟨r, hr, -⟩ := (Option.any_eq_true _ _).mp hreg
    rw [if_neg (by simp), if_neg (by simp), h.socks, EdSocket.completeConnection_some hr,
      EdSocket.completeConnection_some (s := (s.socks e.sock).unlisten _) hr]
    have hset := h.setSock (j := e.sock) (k := { s.socks e.sock with
      mStatus := .SOCK_STATUS_CONNECTED
      mEvt := some { r with interest := ⟨true, false, true⟩ } }) rfl
    exact ⟨_, _, _, _, rfl, rfl, .inr ⟨hset.goTo _, hleft⟩⟩
  · exact ⟨_, _, _, _, rfl, rfl, .inr ⟨h.goTo _, hleft⟩⟩

lemma Unlistened.esMain {e : SockEntry} {rest : List BatchEntry} {st : Stage} (h : Unlistened i s t)
    (hs : s.pc = .check st e rest) : GoesOn i s (s.esMain 0) (t.esMain 0) := by
  have ht := h.pc.trans hs
  have hnext := left_nextStage st e rest
  unfold TaskSockets.esMain
  rw [hs, ht]
  dsimp only
  rw [h.isReg]
  by_cases hreg : s.isReg e = false
  · rw [if_pos hreg, if_pos hreg]
    refine ⟨_, _, _, _, rfl, rfl, .inr ⟨h.goTo _, ?_⟩⟩
    simp only [hs, SockPc.left]
    omega
  rw [if_neg hreg, if_neg hreg]
  split
  case isTrue hcalls =>
    cases st with
    | EVT_READ => exact h.OnEventRead hs
    | EVT_HANGUP =>
      refine ⟨_, _, _, _, rfl, rfl, .inr ⟨(h.close e.sock).goTo _, ?_⟩⟩
      simp [hs, SockPc.left]
    | EVT_WRITE => exact h.OnEventWrite hs (by simpa using hreg)
    | release => cases hcalls
  · refine ⟨_, _, _, _, rfl, rfl, .inr ⟨h.goTo _, Nat.lt_of_lt_of_le hnext ?_⟩⟩
    simp [hs, SockPc.left]

lemma Unlistened.listenerReturn (h : Unlistened i s t) (hruns : s.userRuns = true) :
    GoesOn i s s.listenerReturn t.listenerReturn := by
  unfold TaskSockets.listenerReturn
  rw [h.pc]
  cases hs : s.pc with
  | epoll_wait | batch rest | check st e rest => simp [userRuns, hs] at hruns
  | other rest =>
    refine ⟨_, _, _, _, rfl, rfl, .inr ⟨h.goTo _, ?_⟩⟩
    simp [hs, SockPc.left]
  | OnRead cb e rest =>
    dsimp only
    by_cases herr : s.lastSockErrorNo ≠ 0
    · rw [if_pos herr, if_pos (by rwa [h.err])]
      refine ⟨_, _, _, _, rfl, rfl, .inr ⟨h.goTo _, ?_⟩⟩
      simp [hs, SockPc.left]
    · rw [if_neg herr, if_neg (by rwa [h.err])]
      refine ⟨_, _, _, _, rfl, rfl, .inr ⟨h.goTo _, ?_⟩⟩
      simp [hs, SockPc.left, nextStage, Stage.next, stagesLeft]
  | OnDisconnected cb e rest =>
    have hleft : (nextStage .EVT_READ e rest).left < s.pc.left := by
      simp [hs, SockPc.left, nextStage, Stage.next, stagesLeft]
    dsimp only
    by_cases herr : s.lastSockErrorNo ≠ 0
    · rw [if_pos herr, if_pos (by rwa [h.err])]
      exact ⟨_, _, _, _, rfl, rfl, .inr ⟨(h.close cb.sock).goTo _, hleft⟩⟩
    · rw [if_neg herr, if_neg (by rwa [h.err])]
      exact ⟨_, _, _, _, rfl, rfl, .inr ⟨h.goTo _, hleft⟩⟩
  | listener st e rest =>
    refine ⟨_, _, _, _, rfl, rfl, .inr ⟨h.goTo _, ?_⟩⟩
    rw [hs]
    exact left_nextStage st e rest

/-- The next step of the task on its own, or the return of the listener. -/
lemma Unlistened.goesOn (h : Unlistened i s t) (hpc : s.pc ≠ .epoll_wait) :
    ∃ a, TaskSockets.result s a 0 = none ∧ TaskSockets.result t a 0 = none ∧
      GoesOn i s (s.run a) (t.run a) := by
  cases hs : s.pc with
  | epoll_wait => exact absurd hs hpc
  | batch rest =>
    refine ⟨.esMain 0, rfl, rfl, ?_⟩
    simp only [TaskSockets.run, TaskSockets.esMain, h.pc, hs]
    cases rest with
    | nil =>
      refine ⟨_, _, _, _, rfl, rfl, .inr ⟨h.goTo _, ?_⟩⟩
      simp [hs, SockPc.left]
    | cons e rest =>
      cases e with
      | other =>
        refine ⟨_, _, _, _, rfl, rfl, .inr ⟨h.goTo _, ?_⟩⟩
        simp [hs, SockPc.left]
        omega
      | sock e =>
        refine ⟨_, _, _, _, rfl, rfl, .inr ⟨h.goTo _, ?_⟩⟩
        simp [hs, SockPc.left, stagesLeft]
        omega
  | check st e rest => exact ⟨.esMain 0, rfl, rfl, h.esMain hs⟩
  | other rest | OnRead cb e rest | OnDisconnected cb e rest | listener st e rest =>
    exact ⟨.listenerReturn, rfl, rfl, h.listenerReturn (by simp [userRuns, hs])⟩

lemma run_openSock (hruns : s.userRuns = true) (type : SockType) (fd : Option Nat) (ret : Int) :
    sockMachine.run s (.step (.openSock i type fd) ret) =
      some (s.setSock i ((s.socks i).openSock type fd),
        (none, some (fd.elim (-1) Int.ofNat))) := by
  simp [sockMachine, TaskSockets.run, TaskSockets.user, hruns, TaskSockets.result]

lemma run_close (hruns : s.userRuns = true) (ret : Int) :
    sockMachine.run s (.step (.close i) ret) = some (s.userClose i, (none, none)) := by
  simp [sockMachine, TaskSockets.run, TaskSockets.user, hruns, TaskSockets.result]

lemma run_bindSock {k : EdSocket} (hruns : s.userRuns = true)
    (hk : (s.socks i).bindSock none true (some s.regs) = some k) :
    sockMachine.run s (.step (.bindSock i none true true) 0) =
      some (s.registers.setSock i k, (none, some 0)) := by
  simp [sockMachine, TaskSockets.run, TaskSockets.user, hruns, TaskSockets.result, pevt, hk,
    EdSocket.bindSockResult]

lemma userClose_socks (s : TaskSockets) (i : Nat) :
    (s.userClose i).socks = Function.update s.socks i (s.socks i).close := by
  unfold userClose
  split <;> rfl

lemma userClose_regs (s : TaskSockets) (i : Nat) : (s.userClose i).regs = s.regs := by
  unfold userClose
  split <;> rfl

lemma userClose_other {rest : List BatchEntry} (hpc : s.pc = .other rest) (i : Nat) :
    (s.userClose i).pc = .other rest := by
  unfold userClose
  split <;> simp [note, TaskSockets.close, setSock, hpc]

/-- A socket that has been opened and bound, with its listen flag. -/
def boundSock (id : Nat) (listen : Bool) : EdSocket :=
  ⟨some 0, some ⟨id, 0, ⟨true, false, false⟩⟩, true, true, .SOCK_STATUS_DISCONNECTED,
    .SOCK_TYPE_TCP, listen, true⟩

def bindAgain (i : Nat) : List SockInput :=
  [.step (.openSock i .SOCK_TYPE_TCP (some 0)) 0, .step (.close i) 0,
    .step (.openSock i .SOCK_TYPE_TCP (some 0)) 0, .step (.bindSock i none true true) 0]

lemma bindAgain_after (hpc : s.pc = .other []) (hevt : (s.socks i).EvtReg) :
    ∃ s', sockMachine.after s (bindAgain i) = some s' ∧ s'.pc = .other [] ∧
      s'.socks i = boundSock s.regs (s.socks i).mIsListen := by
  have hruns : ∀ {u : TaskSockets}, u.pc = .other [] → u.userRuns = true := by
    intro u hu
    simp [userRuns, hu]
  have hopen : ((s.socks i).openSock .SOCK_TYPE_TCP (some 0)).EvtReg := hevt
  let r := s.setSock i ((s.socks i).openSock .SOCK_TYPE_TCP (some 0))
  have hr : r.pc = .other [] := hpc
  let u := r.userClose i
  have hu : u.pc = .other [] := userClose_other hr i
  have hregs : u.regs = s.regs := userClose_regs _ i
  have hclosed : u.socks i = ((s.socks i).openSock .SOCK_TYPE_TCP (some 0)).close := by
    simp [u, r, userClose_socks, setSock]
  let v := u.setSock i ((u.socks i).openSock .SOCK_TYPE_TCP (some 0))
  have hpcv : v.pc = .other [] := hu
  have hv : v.socks i = { EdSocket.new.openSock .SOCK_TYPE_TCP (some 0) with
      mIsListen := (s.socks i).mIsListen } := by
    obtain ⟨hreg, hstatus⟩ := EdSocket.close_some (s := (s.socks i).openSock _ (some 0)) rfl
    rw [setSock_self, hclosed, EdSocket.openSock_eq hopen.close hreg hstatus rfl,
      EdSocket.close_mIsListen]
    rfl
  have hbind : (v.socks i).bindSock none true (some v.regs) =
      some (boundSock u.regs (s.socks i).mIsListen) := by
    rw [hv]
    rfl
  refine ⟨v.registers.setSock i (boundSock u.regs (s.socks i).mIsListen), ?_, hu, ?_⟩
  · rw [bindAgain, after_cons (run_openSock (hruns hpc) _ _ _),
      after_cons (run_close (hruns hr) _), after_cons (run_openSock (hruns hu) _ _ _),
      after_cons (run_bindSock (hruns hpcv) hbind)]
    rfl
  · simp [setSock, hregs]

/-- The entry of a descriptor with data. -/
def readable (i evt : Nat) : SockEntry :=
  ⟨i, evt, ⟨true, false, false, false, false⟩⟩

/-- Data on the descriptor shows the flag. -/
lemma boundSock_toldApart {id : Nat} (hs : s.pc = .other []) (ht : t.pc = .other [])
    (hi : s.socks i = boundSock id true) (hi' : t.socks i = boundSock id false) :
    sockMachine.ToldApart s t := by
  have hreport : ∀ {u : TaskSockets} {listen : Bool}, u.pc = .other [] →
      u.socks i = boundSock id listen → sockMachine.after u
        [.step .listenerReturn 0, .step (.esMain 0) 0,
          .step (.epoll_wait [.sock (readable i id)]) 0,
          .step (.esMain 0) 0] =
        some { u with pc := .check .EVT_READ (readable i id) [] } := by
    intro u listen hu hsock
    simp [Machine.after, sockMachine, TaskSockets.run, TaskSockets.listenerReturn,
      TaskSockets.esMain, reports, hu, hsock, boundSock, readable]
  have hread : ∀ {u : TaskSockets} {listen : Bool}, u.socks i = boundSock id listen →
      u.pc = .check .EVT_READ (readable i id) [] →
        ∃ v, sockMachine.run u (.step (.esMain 0) 0) =
          some (v, (some (i, if listen then .SOCK_EVENT_INCOMING_ACCEPT else .SOCK_EVENT_READ),
            none)) := by
    intro u listen hsock hu
    have hreg : u.isReg (readable i id) = true := by
      simp [TaskSockets.isReg, hsock, boundSock, readable]
    have hlisten : (u.socks (readable i id).sock).mIsListen = listen := by
      rw [readable, hsock, boundSock]
    simp only [sockMachine, TaskSockets.run, TaskSockets.esMain, hu, hreg, TaskSockets.evtcb,
      TaskSockets.OnEventRead, hlisten]
    cases listen <;> exact ⟨_, rfl⟩
  obtain ⟨u, hu⟩ := hread (u := { s with pc := .check .EVT_READ (readable i id) [] }) hi rfl
  obtain ⟨v, hv⟩ := hread (u := { t with pc := .check .EVT_READ (readable i id) [] }) hi' rfl
  exact .of_after (hreport hs hi) (hreport ht hi') (.of_output hu hv (by simp))

lemma Unlistened.toldApart_epoll (h : Unlistened i s t) (hpc : s.pc = .epoll_wait)
    (hevt : (s.socks i).EvtReg) : sockMachine.ToldApart s t := by
  have huser : ∀ {u : TaskSockets}, u.pc = .epoll_wait →
      sockMachine.after u [.step (.epoll_wait [.other]) 0, .step (.esMain 0) 0] =
        some { u with pc := .other [] } := by
    intro u hu
    simp [Machine.after, sockMachine, TaskSockets.run, TaskSockets.esMain, reports, hu]
  have hsock : t.socks i = (s.socks i).unlisten true := by
    rw [h.socks i, beq_self_eq_true]
  have hevt' : (t.socks i).EvtReg := by
    rw [hsock]
    exact hevt
  refine .of_after (huser hpc) (huser (h.pc.trans hpc)) ?_
  obtain ⟨s', hs', hpcs, hsi⟩ := bindAgain_after (s := { s with pc := .other [] }) rfl hevt
  obtain ⟨t', ht', hpct, hti⟩ := bindAgain_after (s := { t with pc := .other [] }) rfl hevt'
  have hbound : s'.socks i = boundSock s.regs true := by
    simpa [h.listen] using hsi
  have hbound' : t'.socks i = boundSock s.regs false := by
    simpa [hsock, h.regs, EdSocket.unlisten] using hti
  exact .of_after hs' ht' (boundSock_toldApart hpcs hpct hbound hbound')

/-- The flag shows in the end: the batch that runs goes on, then the socket is bound. -/
theorem Unlistened.toldApart (h : Unlistened i s t) (hevt : ∀ j, (s.socks j).EvtReg) :
    sockMachine.ToldApart s t := by
  induction hn : s.pc.left using Nat.strongRecOn generalizing s t with
  | _ n ih =>
    by_cases hpc : s.pc = .epoll_wait
    · exact h.toldApart_epoll hpc (hevt i)
    obtain ⟨a, hres, hres', s', t', ev, ev', hs, ht, hgo⟩ := h.goesOn hpc
    have hrun : sockMachine.run s (.step a 0) = some (s', (ev, none)) := by
      simp [sockMachine, hs, hres]
    have hrun' : sockMachine.run t (.step a 0) = some (t', (ev', none)) := by
      simp [sockMachine, ht, hres']
    rcases hgo with hne | ⟨hrel, hlt⟩
    · exact .of_output hrun hrun' (by simpa using hne)
    · exact .of_step hrun hrun' (ih _ (hn ▸ hlt) hrel (evtReg_run hevt hs) rfl)

lemma userClose_userRuns (s : TaskSockets) (i : Nat) :
    (s.userClose i).userRuns = s.userRuns := by
  unfold userClose
  split
  · simp only [note, TaskSockets.close, setSock]
    cases hpc : s.pc <;> simp [userRuns, hpc]
  · rfl

lemma sameAsNew_iff (hruns : s.userRuns = true) :
    SameAsNew s i ↔ ∀ type fd, ¬ sockMachine.ToldApart
      (s.setSock i ((s.socks i).openSock type fd))
      (s.setSock i (EdSocket.new.openSock type fd)) := by
  have hnew : ∀ type fd ret,
      sockMachine.run (s.setSock i .new) (.step (.openSock i type fd) ret) =
        some (s.setSock i (EdSocket.new.openSock type fd),
          (none, some (fd.elim (-1) Int.ofNat))) := by
    intro type fd ret
    have hrun := run_openSock (s := s.setSock i .new) (i := i) hruns type fd ret
    simpa [setSock] using hrun
  constructor
  · intro h type fd ⟨as, has⟩
    exact has ((outputs_cons_inj (run_openSock hruns type fd 0) (hnew type fd 0)).mp
      (h type fd 0 as))
  · intro h type fd ret as
    rw [outputs_cons_inj (run_openSock hruns type fd ret) (hnew type fd ret)]
    by_contra has
    exact h type fd ⟨as, has⟩

/-- The status of a socket without a descriptor shows in `getStatus`. -/
lemma toldApart_of_mStatus (hruns : s.userRuns = true) (hruns' : t.userRuns = true)
    (hne : (s.socks i).mStatus ≠ (t.socks i).mStatus) : sockMachine.ToldApart s t := by
  have hrun : ∀ {u : TaskSockets}, u.userRuns = true →
      sockMachine.run u (.getStatus i) = some (u, (none, some (u.socks i).mStatus.toInt)) := by
    intro u hu
    simp [sockMachine, hu]
  refine .of_output (hrun hruns) (hrun hruns') ?_
  simp only [ne_eq, Prod.mk.injEq, true_and, Option.some.injEq]
  intro heq
  exact hne (Status.toInt_injective heq)

lemma run_changeEvent {flags : Interest} (hruns : s.userRuns = true) :
    sockMachine.run s (.step (.changeEvent i flags true) 0) =
      ((s.socks i).changeEvent flags (some s.regs)).map (fun k =>
        (s.registers.setSock i k, (none, none))) := by
  simp only [sockMachine, TaskSockets.run, TaskSockets.user, hruns, if_true, pevt]
  cases (s.socks i).changeEvent flags (some s.regs) <;> rfl

/-- `close` takes the task from a socket that is registered. -/
lemma toldApart_of_mIsReg (hruns : s.userRuns = true) (hruns' : t.userRuns = true)
    (hfd : (s.socks i).mFd.isSome = true) (hreg : (s.socks i).mIsReg = true)
    (hnew : t.socks i = EdSocket.new.openSock .SOCK_TYPE_TCP (some 0)) :
    sockMachine.ToldApart s t := by
  have hclose : (s.userClose i).userRuns = true := by
    rw [userClose_userRuns, hruns]
  have hclose' : (t.userClose i).userRuns = true := by
    rw [userClose_userRuns, hruns']
  have hnull : ((s.userClose i).socks i).changeEvent ⟨true, false, false⟩
      (some (s.userClose i).regs) = none := by
    simp [userClose_socks, EdSocket.close, hfd, EdSocket.deregisterEvent, hreg,
      EdSocket.changeEvent, EdSocket.registerEvent]
  have htask : ((t.userClose i).socks i).changeEvent ⟨true, false, false⟩
      (some (t.userClose i).regs) = some
        { (EdSocket.new.openSock .SOCK_TYPE_TCP (some 0)).close with mIsReg := true } := by
    rw [userClose_socks, Function.update_self, hnew]
    rfl
  have hrun : sockMachine.run (s.userClose i) (.step (.changeEvent i ⟨true, false, false⟩ true) 0) =
      none := by
    rw [run_changeEvent hclose, hnull]
    rfl
  have hrun' : sockMachine.run (t.userClose i)
      (.step (.changeEvent i ⟨true, false, false⟩ true) 0) =
      some ((t.userClose i).registers.setSock i
        { (EdSocket.new.openSock .SOCK_TYPE_TCP (some 0)).close with mIsReg := true },
        (none, none)) := by
    rw [run_changeEvent hclose', htask]
    rfl
  exact .of_step (run_close hruns 0) (run_close hruns' 0) (.of_refused hrun hrun')

/-- Opened again, a socket with its listen flag set is told from a new one. -/
lemma toldApart_of_mIsListen {k : EdSocket} (hevt : ∀ j, (s.socks j).EvtReg)
    (hk : k = { EdSocket.new.openSock .SOCK_TYPE_TCP (some 0) with mIsListen := true }) :
    sockMachine.ToldApart (s.setSock i k)
      (s.setSock i (EdSocket.new.openSock .SOCK_TYPE_TCP (some 0))) := by
  refine Unlistened.toldApart (i := i) ⟨rfl, rfl, rfl, fun j => ?_, ?_⟩ (fun j => ?_)
  · by_cases hj : j = i
    · rw [hj, setSock_self, setSock_self, hk, beq_self_eq_true]
      rfl
    · rw [setSock_other _ _ hj, setSock_other _ _ hj, beq_false_of_ne hj,
        EdSocket.unlisten_false]
  · rw [setSock_self, hk]
  · by_cases hj : j = i
    · rw [hj, setSock_self, hk]
      exact fun hne => absurd rfl hne
    · rw [setSock_other _ _ hj]
      exact hevt j

/-- What a closed socket has kept decides whether it can be told from a new one. -/
theorem sameAsNew_likeNew (hevt : ∀ j, (s.socks j).EvtReg) (hruns : s.userRuns = true)
    (hbinded : (s.socks i).mIsBinded = false) : SameAsNew s i ↔ (s.socks i).LikeNew := by
  rw [sameAsNew_iff hruns]
  constructor
  · intro h
    have hold := h .SOCK_TYPE_TCP (some 0)
    by_contra hkept
    apply hold
    by_cases hstatus : (s.socks i).mStatus = .SOCK_STATUS_DISCONNECTED
    case neg =>
      refine toldApart_of_mStatus (i := i) hruns hruns ?_
      rw [setSock_self, setSock_self]
      exact hstatus
    by_cases hreg : (s.socks i).mIsReg = true
    · refine toldApart_of_mIsReg (i := i) hruns hruns ?_ ?_ (setSock_self ..) <;> rw [setSock_self]
      · rfl
      · exact hreg
    have hreg : (s.socks i).mIsReg = false := by
      simpa using hreg
    have hlisten : (s.socks i).mIsListen = true := by
      by_contra hlisten
      exact hkept ⟨by simpa using hlisten, hreg, hstatus⟩
    refine toldApart_of_mIsListen hevt ?_
    rw [EdSocket.openSock_eq (hevt i) hreg hstatus hbinded, hlisten]
  · rintro ⟨hlisten, hreg, hstatus⟩ type fd ⟨as, has⟩
    rw [EdSocket.openSock_eq (hevt i) hreg hstatus hbinded, hlisten] at has
    exact has rfl

end TaskSockets

/-- A closed socket; `p` says that all it has kept is that of a new one. -/
structure EdSocket.Closed (p : Prop) (k : EdSocket) : Prop where
  mFd : k.mFd = none
  mIsBinded : k.mIsBinded = false
  likeNew : k.LikeNew ↔ p

lemma EdSocket.Closed.of_close (k : EdSocket) : k.close.Closed k.Reusable where
  mFd := close_mFd k
  mIsBinded := rfl
  likeNew := close_likeNew

namespace TaskSockets

variable {s t : TaskSockets} {a : SockAction} {ev : Option (Nat × SockEvent)} {i : Nat} {p : Prop}

/-- Without a call on it a closed socket keeps what tells it from a new one. -/
lemma closed_run (h : (s.socks i).Closed p) (hevt : (s.socks i).EvtReg)
    (hs : s.run a = some (t, ev)) (hoff : a.sock ≠ some i) : (t.socks i).Closed p := by
  generalize ht : t.socks = socks
  have hstep := run_socks hs
  rw [ht] at hstep
  cases hstep with
  | same => exact h
  | closed j =>
    by_cases hj : i = j
    · rw [← hj, Function.update_self, EdSocket.close_none h.mFd]
      exact ⟨h.mFd, rfl, h.likeNew⟩
    · rw [Function.update_of_ne hj]
      exact h
  | completed j k hne hk =>
    by_cases hj : i = j
    · rw [← hj] at hne hk
      obtain ⟨r, hr⟩ := Option.ne_none_iff_exists'.mp hne
      rw [EdSocket.completeConnection_some hr] at hk
      cases hk
      rw [← hj, Function.update_self]
      refine ⟨h.mFd, h.mIsBinded, fun hlike => ?_, fun hp => ?_⟩
      · cases hlike.2.2
      · -- an event needs a registration
        have hreg := hevt hne
        rw [(h.likeNew.mpr hp).2.1] at hreg
        cases hreg
    · rw [Function.update_of_ne hj]
      exact h
  | called j k hk =>
    have hj : i ≠ j := by
      rintro rfl
      exact hoff (SockAction.call_sock hk)
    rw [Function.update_of_ne hj]
    exact h

/-- The runs in which nobody calls socket `i`. -/
abbrev leavesAlone (i : Nat) : System TaskSockets SockAction :=
  taskSockets.restrict (fun _ a => a.sock ≠ some i)

lemma closed_leads (hevt : ∀ j, (s.socks j).EvtReg) (h : (s.socks i).Closed p)
    (hl : (leavesAlone i).Leads s t) : (∀ j, (t.socks j).EvtReg) ∧ (t.socks i).Closed p := by
  induction hl with
  | refl => exact ⟨hevt, h⟩
  | step _ hs ih =>
    obtain ⟨hevt, h⟩ := ih
    simp only [System.restrict, Option.ite_none_right_eq_some, decide_eq_true_eq] at hs
    obtain ⟨ev, hrun⟩ := step_run hs.2
    exact ⟨evtReg_run hevt hrun, closed_run h (hevt i) hrun hs.1⟩

end TaskSockets

/-- A socket that is closed in `s` and opened in `t` is used like a new one if and only if nothing
that `close` leaves was set: it was never asked to listen and, had it no descriptor then, it had no
registration and was not connecting or connected. -/
theorem reuse_iff {s t : TaskSockets} {i : Nat} (hr : taskSockets.Reachable s)
    (hruns : s.userRuns = true) (hl : (TaskSockets.leavesAlone i).Leads (s.userClose i) t)
    (ht : t.userRuns = true) : SameAsNew t i ↔ (s.socks i).Reusable := by
  have hrun : s.run (.close i) = some (s.userClose i, none) := by
    simp [TaskSockets.run, TaskSockets.user, hruns]
  have hevt := TaskSockets.evtReg_run (TaskSockets.reachable_evtReg hr) hrun
  have hclosed : ((s.userClose i).socks i).Closed (s.socks i).Reusable := by
    rw [TaskSockets.userClose_socks, Function.update_self]
    exact .of_close _
  obtain ⟨hevt, hclosed⟩ := TaskSockets.closed_leads hevt hclosed hl
  rw [TaskSockets.sameAsNew_likeNew hevt ht hclosed.mIsBinded, hclosed.likeNew]

theorem reuse_iff_connected : ∃ s, taskSockets.Reachable s ∧ s.userRuns = true ∧
    (s.socks 0).mStatus = .SOCK_STATUS_CONNECTING ∧ SameAsNew (s.userClose 0) 0 := by
  obtain ⟨s, hr, hs⟩ := System.exists_of_exec (M := taskSockets)
    (f := fun s => (s.userRuns, (s.socks 0).mFd, (s.socks 0).mIsListen, (s.socks 0).mStatus))
    (s := .new) rfl (b := (true, some 5, false, .SOCK_STATUS_CONNECTING))
    (l := userRun [.openSock 0 .SOCK_TYPE_TCP (some 5), .connectIp 0 none true])
    (by decide +kernel)
  simp only [Prod.mk.injEq] at hs
  obtain ⟨hruns, hfd, hlisten, hstatus⟩ := hs
  have hclose : (s.userClose 0).userRuns = true := by
    rw [TaskSockets.userClose_userRuns, hruns]
  refine ⟨s, hr, hruns, hstatus, (reuse_iff hr hruns .refl hclose).mpr ⟨hlisten, .inl ?_⟩⟩
  simp [hfd]

/-- The second connection of a socket that could not listen; its data comes as a connection. -/
def connectAgain : List SockInput :=
  [.step (.openSock 0 .SOCK_TYPE_TCP (some 6)) 0, .step (.connectIp 0 none true) (-1),
    .step .listenerReturn 0, .step (.esMain 0) 0,
    .step (.epoll_wait [.sock ⟨0, 1, ⟨false, false, false, false, true⟩⟩]) 0,
    .step (.esMain 0) 0, .step (.esMain 0) 0, .step (.esMain 0) 0, .step (.esMain 0) 0,
    .step .listenerReturn 0, .step (.esMain 0) 0, .step (.esMain 0) 0,
    .step (.epoll_wait [.sock (TaskSockets.readable 0 1)]) 0, .step (.esMain 0) 0,
    .step (.esMain 0) 0]

theorem not_reuse : ¬ ∀ s t i, taskSockets.Reachable s → s.userRuns = true →
    (TaskSockets.leavesAlone i).Leads (s.userClose i) t → t.userRuns = true → SameAsNew t i := by
  intro h
  obtain ⟨s, hr, hs⟩ := System.exists_of_exec (M := taskSockets)
    (f := fun s => (s.userRuns, decide (sockMachine.outputs (s.userClose 0) connectAgain =
      sockMachine.outputs ((s.userClose 0).setSock 0 .new) connectAgain)))
    (s := .new) rfl (b := (true, false))
    (l := userRun [.openSock 0 .SOCK_TYPE_TCP (some 5), .listenSock 0 none false false true])
    (by decide +kernel)
  simp only [Prod.mk.injEq] at hs
  obtain ⟨hruns, hne⟩ := hs
  have hsame := h s _ 0 hr hruns .refl (by rw [TaskSockets.userClose_userRuns, hruns])
    .SOCK_TYPE_TCP (some 6) 0 connectAgain.tail
  have hword : connectAgain = .step (.openSock 0 .SOCK_TYPE_TCP (some 6)) 0 :: connectAgain.tail :=
    rfl
  rw [← hword] at hsame
  exact of_decide_eq_false hne hsame

end EdNio.Net
