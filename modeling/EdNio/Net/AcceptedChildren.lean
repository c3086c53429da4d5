import EdNio.Net.TaskSockets
import Mathlib.Logic.Function.Basic

/-!
# The listeners of accepted sockets

The sockets of a task with their `mLis`. `acceptSock` gives its listener to the listening socket
and to the accepted one.
-/

namespace EdNio.Net
open Transition
open Receive (SockEvent)

/-- Listeners are numbered, and none is NULL. -/
structure AcceptTask where
  tasks : TaskSockets
  mLis : Nat → Option Nat

/-- A call with a listener, except `acceptSock`, is a `setOnListener` and the call without it. -/
inductive AcceptAction
  | task (a : SockAction)
  | setOnListener (i : Nat) (dg : Option Nat)
  | acceptSock (i pchild : Nat) (lis : Option Nat) (fd : Option Nat) (added : Bool)
deriving DecidableEq, Repr

/-- A listener is given to a socket itself, or an event of a socket goes to a listener. -/
inductive Routing
  | given (i : Nat) (lis : Option Nat)
  | delivered (i : Nat) (event : SockEvent) (lis : Option Nat)
deriving DecidableEq, Repr

namespace AcceptTask

variable (s : AcceptTask)

def new : AcceptTask := ⟨.new, fun _ => none⟩

def setOnListener (i : Nat) (dg : Option Nat) : AcceptTask :=
  { s with mLis := Function.update s.mLis i dg }

/-- `if(lis) mLis = lis`. -/
def giveLis (i : Nat) (lis : Option Nat) : AcceptTask :=
  if lis.isSome then s.setOnListener i lis else s

/-- `fd` is the result of `accept`. -/
def acceptSock (i pchild : Nat) (lis : Option Nat) (fd : Option Nat) (added : Bool) :
    Option AcceptTask :=
  let s := s.giveLis i lis
  match fd with
  | none => some s
  | some fd =>
    (s.tasks.run (.openChildSock pchild fd added)).map (fun (t, _) =>
      giveLis { s with tasks := t } pchild lis)

/-- A descriptor comes from a socket that listens, and is not that of another socket. -/
def accepts (i : Nat) (fd : Option Nat) : Bool :=
  fd.all (fun fd => (s.tasks.socks i).mFd.isSome && (s.tasks.socks i).mIsListen &&
    (s.tasks.socks i).mFd ≠ some fd)

def step : AcceptAction → Option AcceptTask
  | .task a => (s.tasks.run a).map (fun (t, _) => { s with tasks := t })
  | .setOnListener i dg => if s.tasks.userRuns then some (s.setOnListener i dg) else none
  | .acceptSock i pchild lis fd added =>
    -- a listening socket is no child of its own
    if s.tasks.userRuns ∧ pchild ≠ i ∧ s.accepts i fd then s.acceptSock i pchild lis fd added
    else none

/-- The events go to the listener that the socket has; the accepted socket is given one. -/
def record : AcceptAction → Option Routing
  | .task a =>
    match s.tasks.run a with
    | some (_, some (i, event)) => some (.delivered i event (s.mLis i))
    | _ => none
  | .setOnListener i dg => some (.given i dg)
  | .acceptSock _ pchild (some lis) (some _) _ => some (.given pchild (some lis))
  | _ => none

end AcceptTask

def acceptTask : System AcceptTask AcceptAction where
  init s := s = .new
  step := AcceptTask.step

/-- The listener that each socket itself was given last. -/
def lastGiven (log : List Routing) : Nat → Option Nat :=
  log.foldl (fun f e =>
    match e with
    | .given i lis => Function.update f i lis
    | .delivered _ _ _ => f) (fun _ => none)

/-- An event goes to the listener that its socket was given. -/
def GoesToOwn (before : List Routing) : Routing → Prop
  | .given _ _ => True
  | .delivered i _ lis => lis = lastGiven before i

/-- Every event has gone to the listener of its socket, and so will the next one. -/
structure OwnEvents (s : Recorded AcceptTask Routing) : Prop where
  log : Always GoesToOwn s.log
  next : ∀ i, s.state.mLis i = lastGiven s.log i

/-- `acceptSock` is called without a listener or with that of the listening socket. -/
def keepsLis (s : Recorded AcceptTask Routing) : AcceptAction → Bool
  | .acceptSock i _ lis _ _ => lis.isNone || lis = s.state.mLis i
  | _ => true

/-- The listening socket is given the listener, and then the accepted one. -/
lemma AcceptTask.acceptSock_mLis {s t : AcceptTask} {i pchild : Nat} {lis fd : Option Nat}
    {added : Bool} (h : s.acceptSock i pchild lis fd added = some t) (j : Nat) :
    t.mLis j =
      if fd.isSome = true ∧ lis.isSome = true ∧ j = pchild then lis
      else if lis.isSome = true ∧ j = i then lis else s.mLis j := by
  have hgive : ∀ (u : AcceptTask) k, (u.giveLis k lis).mLis j =
      if lis.isSome = true ∧ j = k then lis else u.mLis j := by
    intro u k
    unfold giveLis setOnListener
    cases lis with
    | none => simp
    | some lis => simp [Function.update_apply]
  cases fd with
  | none =>
    obtain rfl := Option.some.inj h
    rw [hgive]
    simp
  | some fd =>
    obtain ⟨⟨u, ev⟩, -, rfl⟩ := Option.map_eq_some_iff.mp h
    rw [hgive, hgive]
    simp

lemma lastGiven_given (log : List Routing) (i : Nat) (lis : Option Nat) :
    lastGiven (log ++ [.given i lis]) = Function.update (lastGiven log) i lis := by
  rw [lastGiven, List.foldl_append]
  rfl

lemma lastGiven_delivered (log : List Routing) (i : Nat) (event : SockEvent)
    (lis : Option Nat) : lastGiven (log ++ [.delivered i event lis]) = lastGiven log := by
  rw [lastGiven, List.foldl_append]
  rfl

lemma AcceptTask.acceptSock_given (s : AcceptTask) (i pchild : Nat) (lis fd : Option Nat)
    (added : Bool) (log : List Routing) (j : Nat) :
    lastGiven (log ++ (s.record (.acceptSock i pchild lis fd added)).toList) j =
      if fd.isSome = true ∧ lis.isSome = true ∧ j = pchild then lis else lastGiven log j := by
  cases lis with
  | none => simp [record]
  | some lis =>
    cases fd with
    | none => simp [record]
    | some fd => simp [record, lastGiven_given, Function.update_apply]

namespace OwnEvents

variable {s t : Recorded AcceptTask Routing} {a : AcceptAction}

lemma log_step (h : OwnEvents s) (hs : (acceptTask.recorded AcceptTask.record).step s a = some t) :
    Always GoesToOwn t.log := by
  rw [(recorded_step hs).2]
  cases he : s.state.record a with
  | none => simpa using h.log
  | some e =>
    refine always_concat.mpr ⟨h.log, ?_⟩
    cases e with
    | given i lis => trivial
    | delivered i event lis =>
      cases a with
      | task a =>
        simp only [AcceptTask.record] at he
        split at he
        · cases he
          exact h.next i
        · cases he
      | setOnListener i dg => cases he
      | acceptSock i pchild lis fd added =>
        cases lis with
        | none => cases he
        | some lis =>
          cases fd with
          | none => cases he
          | some fd => cases he

lemma next_step (h : OwnEvents s)
    (hs : (acceptTask.recorded AcceptTask.record).step s a = some t) :
    (∀ i, t.state.mLis i = lastGiven t.log i) ↔ keepsLis s a = true := by
  have hown : s.state.mLis = lastGiven s.log := funext h.next
  obtain ⟨hstep, hlog⟩ := recorded_step hs
  cases a with
  | task a =>
    refine iff_of_true (fun i => ?_) rfl
    obtain ⟨⟨u, ev⟩, -, ht⟩ := Option.map_eq_some_iff.mp hstep
    rw [hlog, ← ht]
    simp only [AcceptTask.record]
    split
    · rw [Option.toList_some, lastGiven_delivered]
      exact h.next i
    · rw [Option.toList_none, List.append_nil]
      exact h.next i
  | setOnListener i dg =>
    refine iff_of_true (fun j => ?_) rfl
    obtain ⟨-, ht⟩ := Option.ite_none_right_eq_some.mp hstep
    rw [hlog, ← Option.some.inj ht]
    simp only [AcceptTask.record, Option.toList_some, lastGiven_given]
    rw [← hown]
    rfl
  | acceptSock i pchild lis fd added =>
    obtain ⟨⟨-, hne, -⟩, ht⟩ := Option.ite_none_right_eq_some.mp hstep
    have hlis := AcceptTask.acceptSock_mLis ht
    have hgiven := fun j => AcceptTask.acceptSock_given s.state i pchild lis fd added s.log j
    rw [← hlog, ← hown] at hgiven
    have hkeep : keepsLis s (.acceptSock i pchild lis fd added) = true ↔
        (lis.isSome = true → lis = s.state.mLis i) := by
      cases lis <;> simp [keepsLis]
    rw [hkeep]
    constructor
    · intro hall hsome
      have hi := hall i
      rwa [hlis, hgiven, if_neg (fun hc => hne hc.2.2.symm), if_pos ⟨hsome, rfl⟩,
        if_neg (fun hc => hne hc.2.2.symm)] at hi
    · intro hsame j
      rw [hlis, hgiven]
      split
      · rfl
      · split
        · rename_i hj
          rw [hj.2]
          exact hsame hj.1
        · rfl

end OwnEvents

/-- In every run in which `acceptSock` is called without a listener or with that of the listening
socket, each event goes to the listener that its socket was given, and the first call with another
one takes the listening socket over. -/
theorem ownEvents_exact {s : Recorded AcceptTask Routing}
    (h : (acceptTask.recorded AcceptTask.record).Reaches (fun s a => keepsLis s a = true) s) :
    OwnEvents s ∧ ∀ a t, (acceptTask.recorded AcceptTask.record).step s a = some t →
      (OwnEvents t ↔ keepsLis s a = true) := by
  refine h.exact (I := OwnEvents) ?_ ?_ (fun _ hI => hI) ?_
  · rintro ⟨s, log⟩ ⟨h0, hlog⟩
    have h0' : s = .new := h0
    subst h0' hlog
    exact ⟨.nil, fun _ => rfl⟩
  · exact fun s a t hI hok hs => ⟨hI.log_step hs, (hI.next_step hs).mpr hok⟩
  · exact fun s a t hI hbad hs hP => hbad ((hI.next_step hs).mp hP.next)

/-- Socket 0 listens with listener 1, and has an incoming connection. -/
def incoming : List AcceptAction :=
  [.task (.epoll_wait [.other]), .task (.esMain 0), .setOnListener 0 (some 1),
    .task (.listenSock 0 (some 3) true true true), .task .listenerReturn, .task (.esMain 0),
    .task (.epoll_wait [.sock ⟨0, 0, ⟨true, false, false, false, false⟩⟩]), .task (.esMain 0),
    .task (.esMain 0)]

/-- The listener returns, and there is another connection. -/
def incomingAgain : List AcceptAction :=
  [.task .listenerReturn, .task (.esMain 0), .task (.esMain 0), .task (.esMain 0),
    .task (.esMain 0), .task (.epoll_wait [.sock ⟨0, 0, ⟨true, false, false, false, false⟩⟩]),
    .task (.esMain 0), .task (.esMain 0)]

/-- A child with the listener of the listening socket. -/
theorem ownEvents_same : ∃ s, (acceptTask.recorded AcceptTask.record).Reachable s ∧
    s.log = [.given 0 (some 1), .delivered 0 .SOCK_EVENT_INCOMING_ACCEPT (some 1),
      .given 1 (some 1), .delivered 0 .SOCK_EVENT_INCOMING_ACCEPT (some 1)] ∧ OwnEvents s := by
  obtain ⟨s, hr, hs⟩ := System.exists_of_exec_restrict (M := acceptTask.recorded AcceptTask.record)
    (T := keepsLis) (f := fun s => s.log) (s := ⟨.new, []⟩) ⟨rfl, rfl⟩
    (b := [.given 0 (some 1), .delivered 0 .SOCK_EVENT_INCOMING_ACCEPT (some 1),
      .given 1 (some 1), .delivered 0 .SOCK_EVENT_INCOMING_ACCEPT (some 1)])
    (l := incoming ++ .acceptSock 0 1 (some 1) (some 4) true :: incomingAgain) (by decide +kernel)
  exact ⟨s, hr.reachable, hs, (ownEvents_exact hr).1⟩

/-- The second connection is told to the listener of the first child. -/
theorem not_ownEvents : ¬ ∀ s, (acceptTask.recorded AcceptTask.record).Reachable s →
    Always GoesToOwn s.log := by
  intro hall
  obtain ⟨s, hr, hs⟩ := System.exists_of_exec (M := acceptTask.recorded AcceptTask.record)
    (f := fun s => s.log) (s := ⟨.new, []⟩) ⟨rfl, rfl⟩
    (b := [.given 0 (some 1), .delivered 0 .SOCK_EVENT_INCOMING_ACCEPT (some 1),
      .given 1 (some 2), .delivered 0 .SOCK_EVENT_INCOMING_ACCEPT (some 2)])
    (l := incoming ++ .acceptSock 0 1 (some 2) (some 4) true :: incomingAgain) (by decide +kernel)
  have hgoes := hall s hr [.given 0 (some 1), .delivered 0 .SOCK_EVENT_INCOMING_ACCEPT (some 1),
    .given 1 (some 2)] (.delivered 0 .SOCK_EVENT_INCOMING_ACCEPT (some 2)) [] hs
  have hlis : some 2 = some 1 := hgoes
  exact absurd hlis (by decide)

end EdNio.Net
