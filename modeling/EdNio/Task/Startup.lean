import EdNio.Library.History
import EdNio.Task.Payload
import EdNio.Task.SendResult

/-!
# Start of a task

`run` and `runMain` open the eventfd in `initMsg`, from where the messages of other threads
are accepted, and enqueue `EDM_INIT` later. `run` starts the task thread in between.
-/

namespace EdNio.Task
open Transition

inductive Entry
  | run
  | runMain
deriving DecidableEq, Repr

/-- Where `run` or `runMain` stands; `sending` is in `sendMsg` or `postMsg`. -/
inductive StartPc
  | called
  | initialised
  | threadStarted
  | sending (c : CallId)
  | taskMain
deriving DecidableEq, Repr

/-- `timers` tells whether the task has had a task timer. -/
structure Launch where
  proc : Proc
  pc : StartPc
  timers : Bool

/-- `call` is a call of `postMsg`, `sendMsg` or `postObj` in any thread. -/
inductive LaunchAction
  | initMsg (fd : Int)
  | startThread
  | sendInit (p1 p2 : UInt32)
  | taskMain
  | call (a : CallArgs)
  | setTimer
  | proc (a : ProcAction)
deriving DecidableEq, Repr

/-- The steps of the task thread. -/
def Action.byTask : Action → Bool
  | .initMsg _ | .call _ | .enter _ | .write _ | .wait _ | .spuriousWake _ | .resume _
  | .createTaskMsgQue _ _ | .destroyTaskMsgQue _ => false
  | _ => true

/-- `task_thread` has been entered. -/
def Launch.taskRuns (x : Launch) (entry : Entry) : Bool :=
  match x.pc with
  | .called | .initialised => false
  | .threadStarted | .taskMain => true
  | .sending _ => entry == .run

def Proc.inHandler (x : Proc) : Bool :=
  x.stack.isSome ||
    match x.queue.pc with
    | .hand _ _ (.running _) => true
    | _ => false

/-- The steps of the threads on their own: `initMsg` and new calls are made by the others. -/
def Launch.permits (x : Launch) (entry : Entry) : ProcAction → Bool
  | .queue (.initMsg _) | .queue (.call _) => false
  | .queue a => !a.byTask || x.taskRuns entry
  | .OnTimer _ _ => x.taskRuns entry && x.timers
  | _ => x.taskRuns entry

/-- The point from which `EDM_INIT` is sent, and how. -/
def Entry.sendsFrom : Entry → StartPc
  | .run => .threadStarted
  | .runMain => .initialised

def Entry.initArgs (p1 p2 : UInt32) : Entry → CallArgs
  | .run => sendMsg EDM_INIT p1 p2
  | .runMain => postMsg EDM_INIT p1 p2

def launchStep (mMaxMsqQueSize : Int) (entry : Entry) (x : Launch) : LaunchAction → Option Launch
  | .initMsg fd =>
    if x.pc = .called then
      (procStep mMaxMsqQueSize x.proc (.queue (.initMsg fd))).map
        (fun p => { x with proc := p, pc := .initialised })
    else none
  | .startThread =>
    if entry = .run ∧ x.pc = .initialised then some { x with pc := .threadStarted } else none
  | .sendInit p1 p2 =>
    if x.pc = entry.sendsFrom then
      (procStep mMaxMsqQueSize x.proc (.queue (.call (entry.initArgs p1 p2)))).map
        (fun p => { x with proc := p, pc := .sending x.proc.queue.calls.length })
    else none
  | .taskMain =>
    match x.pc with
    | .sending c =>
      match x.proc.queue.callPc c with
      | some (.returned _) => if entry = .runMain then some { x with pc := .taskMain } else none
      | _ => none
    | _ => none
  | .call a =>
    (procStep mMaxMsqQueSize x.proc (.queue (.call a))).map (fun p => { x with proc := p })
  | .setTimer => if x.proc.inHandler then some { x with timers := true } else none
  | .proc a =>
    if x.permits entry a then
      (procStep mMaxMsqQueSize x.proc a).map (fun p => { x with proc := p })
    else none

def launch (mMaxMsqQueSize : Int) (entry : Entry) : System Launch LaunchAction where
  init x := x = ⟨⟨State.init, none, false⟩, .called, false⟩
  step := launchStep mMaxMsqQueSize entry

/-- The message that a step gives to `OnEventProc`. -/
def given (x : Launch) : LaunchAction → Option UInt16
  | .proc (.queue .branch) =>
    match x.proc.queue.pc with
    | .hand slot _ .popped =>
      let m := x.proc.queue.msg slot
      if m.msgid ≠ EDM_EXIT ∧ m.taskque_handle = 0 then some m.msgid else none
    | _ => none
  | .proc (.OnTimer _ _) => some EDM_TIMER
  | .proc (.callMsgClose _) => some EDM_CLOSE
  | _ => none

/-- The first message that is accepted is `EDM_INIT`. -/
def initFirst (mMaxMsqQueSize : Int) (x : Launch) : LaunchAction → Bool
  | .proc (.queue (.enter c)) =>
    let s := x.proc.queue
    match s.calls[c]? with
    | some k =>
      !(s.accepted.isEmpty && decide (0 ≤ s.mMsgFd) && (s.allocMsgObj mMaxMsqQueSize).isSome) ||
        (k.args.msgid == EDM_INIT && k.args.handle == 0)
    | none => true
  | _ => true

/-- What the dispatcher reads of a message to choose its handler. -/
def Header (_ : CallId) (b : CallArgs) (m : EdMsg) : Prop :=
  m.msgid = b.msgid ∧ m.taskque_handle = b.handle

variable {N : Int} {s s' : State} {a : Action}

lemma Header.fillPost {c : CallId} {b : CallArgs} {m : EdMsg} : Header c b (m.fillPost b) := by
  simp [Header, EdMsg.fillPost]

lemma Header.fillSend {c : CallId} {b : CallArgs} {m : EdMsg} : Header c b (m.fillSend c b) := by
  simp [Header, EdMsg.fillSend]

theorem reachable_header (h : (queue N).Reachable s) :
    Filled Header (s.pc.unread ++ s.mQuedMsgs) s :=
  h.invariant (I := fun s => Filled Header (s.pc.unread ++ s.mQuedMsgs) s)
    (by
      rintro _ rfl slot hslot
      cases hslot)
    (fun _ _ _ hr hI _ hs => hI.unread (reachable_slots hr)
      (fun _ _ _ _ _ _ _ _ _ _ => ⟨Header.fillPost, Header.fillSend⟩) (step_cases hs))

lemma Alloc.isSome {slot fresh : Slot} {m : EdMsg} {empty : List Slot}
    (h : Alloc N s slot m empty fresh) : (s.allocMsgObj N).isSome = true := by
  cases h with
  | recycled he => simp [State.allocMsgObj, he]
  | new he hlt => simp [State.allocMsgObj, he, hlt]

lemma Step.accepted (h : Step N s a s') :
    s'.accepted = s.accepted ∨
      ∃ c k, a = .enter c ∧ s.calls[c]? = some k ∧ 0 ≤ s.mMsgFd ∧
        (s.allocMsgObj N).isSome = true ∧ s'.accepted = s.accepted ++ [c] := by
  cases h with
  | posted c k slot m empty fresh hk hpc hm hfd ha hal
  | pushed c k slot m empty fresh hk hpc hm hfd ha hal =>
    exact .inr ⟨c, k, rfl, hk, hfd, hal.isSome, rfl⟩
  | _ => exact .inl rfl

/-- No handler has been called yet. -/
def TaskPc.early : TaskPc → Bool
  | .created | .idle | .loop _ | .hand _ _ .popped => true
  | _ => false

/-- The dispatcher has at most its first message in hand. -/
structure Early (s : State) : Prop where
  pc : s.pc.early = true
  exit_flag : s.exit_flag = false
  dispatched : s.dispatched = s.pc.inHand.map s.owner

lemma Early.step (hS : SlotsInv s) (hI : Early s) (hne : a ≠ .branch) (h : Step N s a s') :
    Early s' := by
  obtain ⟨hearly, hexit, hdisp⟩ := hI
  cases h with
  | posted c k slot m empty fresh hk hpc hm hfd ha hal
  | pushed c k slot m empty fresh hk hpc hm hfd ha hal =>
    refine ⟨hearly, hexit, hdisp.trans (List.map_congr_left (fun x hx => ?_))⟩
    have hx : x ≠ slot := by
      rintro rfl
      exact (hal.not_busy hS).1 hx
    simp [hx]
  | popped left slot rest hpc hm hq =>
    refine ⟨rfl, hexit, ?_⟩
    simp [hdisp, hpc, TaskPc.inHand]
  | initMsg fd hpc hfd => exact ⟨rfl, hexit, by simpa [hpc, TaskPc.inHand] using hdisp⟩
  | read hpc hx he => exact ⟨rfl, hexit, by simpa [hpc, TaskPc.inHand] using hdisp⟩
  | queError left hpc hm hq => exact ⟨rfl, hexit, by simpa [hpc, TaskPc.inHand] using hdisp⟩
  | endLoop hpc => exact ⟨rfl, hexit, by simpa [hpc, TaskPc.inHand] using hdisp⟩
  | leaveLoop hpc hx =>
    rw [hexit] at hx
    cases hx
  | exitMsg | onEventProc | find => exact absurd rfl hne
  | setSendMsgResult slot left t code hpc =>
    simp [hpc, TaskPc.early] at hearly
  | editMsg slot left t v hpc => simp [hpc, TaskPc.early] at hearly
  | createTaskMsgQue | destroyTaskMsgQue => exact ⟨hearly, hexit, hdisp⟩
  | _ =>
    first
      | exact ⟨hearly, hexit, hdisp⟩
      | simp_all [TaskPc.early]

lemma Early.head (hr : (queue N).Reachable s) (hI : Early s) {slot : Slot} {left : Nat}
    (hpc : s.pc = .hand slot left .popped) : s.accepted.head? = some (s.owner slot) := by
  have hdisp := hI.dispatched
  rw [hpc] at hdisp
  rw [(reachable_history hr).order, hdisp]
  simp [TaskPc.inHand]

/-- The initial message is, or will be, the first one. -/
def InitLeads (s : State) : Prop :=
  ∀ c, s.accepted.head? = some c → ∃ b, s.callArgs c = some b ∧ b.msgid = EDM_INIT ∧ b.handle = 0

lemma InitLeads.step (hI : InitLeads s) (h : Step N s a s')
    (hok : ∀ c k, a = .enter c → s.calls[c]? = some k → s.accepted = [] → 0 ≤ s.mMsgFd →
      (s.allocMsgObj N).isSome = true → k.args.msgid = EDM_INIT ∧ k.args.handle = 0) :
    InitLeads s' := by
  have hold : ∀ c, s.accepted.head? = some c →
      ∃ b, s'.callArgs c = some b ∧ b.msgid = EDM_INIT ∧ b.handle = 0 := by
    intro c hc
    obtain ⟨b, hb, hinit⟩ := hI c hc
    exact ⟨b, h.callArgs hb, hinit⟩
  intro c hc
  rcases h.accepted with hacc | ⟨d, k, ha, hk, hfd, hal, hacc⟩
  · exact hold c (hacc ▸ hc)
  · rw [hacc] at hc
    by_cases hempty : s.accepted = []
    · rw [hempty] at hc
      obtain rfl := Option.some.inj hc
      refine ⟨k.args, h.callArgs ?_, hok d k ha hk hempty hfd hal⟩
      simp [State.callArgs, hk]
    · rw [List.head?_append_of_ne_nil _ hempty] at hc
      exact hold c hc

/-- What is kept until the first message is given to `OnEventProc`. -/
structure Waits (N : Int) (x : Launch) : Prop where
  reachable : (queue N).Reachable x.proc.queue
  leads : InitLeads x.proc.queue
  early : Early x.proc.queue
  stack : x.proc.stack = none
  timers : x.timers = false

variable {entry : Entry} {x y : Launch}

lemma Waits.queue (hI : Waits N x) {p : Proc} (hne : a ≠ .branch)
    (hok : ∀ c k, a = .enter c → x.proc.queue.calls[c]? = some k → x.proc.queue.accepted = [] →
      0 ≤ x.proc.queue.mMsgFd → (x.proc.queue.allocMsgObj N).isSome = true →
      k.args.msgid = EDM_INIT ∧ k.args.handle = 0)
    (hs : procStep N x.proc (.queue a) = some p) (pc : StartPc) : Waits N ⟨p, pc, x.timers⟩ := by
  simp only [procStep, Option.ite_none_left_eq_some, Option.map_eq_some_iff] at hs
  obtain ⟨-, s, hstep, rfl⟩ := hs
  have h := step_cases hstep
  exact ⟨.step hI.reachable trivial hstep, hI.leads.step h hok,
    hI.early.step (reachable_slots hI.reachable) hne h, hI.stack, hI.timers⟩

lemma Waits.branch (hI : Waits N x) {slot : Slot} {left : Nat}
    (hpc : x.proc.queue.pc = .hand slot left .popped) :
    given x (.proc (.queue .branch)) = some EDM_INIT := by
  obtain ⟨b, hb, hid, hhandle⟩ := hI.leads _ (hI.early.head hI.reachable hpc)
  obtain ⟨b', hb', hheader⟩ := reachable_header hI.reachable slot (by simp [hpc, TaskPc.unread])
  obtain rfl := Option.some.inj (hb.symm.trans hb')
  have hmsgid := hheader.1.trans hid
  have hqueue := hheader.2.trans hhandle
  simp only [given, hpc, hmsgid, hqueue]
  decide

theorem Waits.step (hI : Waits N x) {a : LaunchAction} (hok : initFirst N x a = true)
    (hs : launchStep N entry x a = some y) :
    given x a = some EDM_INIT ∨ given x a = none ∧ Waits N y := by
  cases a with
  | initMsg fd =>
    simp only [launchStep, Option.ite_none_right_eq_some, Option.map_eq_some_iff] at hs
    obtain ⟨-, p, hp, rfl⟩ := hs
    exact .inr ⟨rfl, hI.queue (by simp) (by simp) hp _⟩
  | startThread =>
    simp only [launchStep, Option.ite_none_right_eq_some, Option.some.injEq] at hs
    obtain ⟨-, rfl⟩ := hs
    exact .inr ⟨rfl, hI.reachable, hI.leads, hI.early, hI.stack, hI.timers⟩
  | sendInit p1 p2 =>
    simp only [launchStep, Option.ite_none_right_eq_some, Option.map_eq_some_iff] at hs
    obtain ⟨-, p, hp, rfl⟩ := hs
    exact .inr ⟨rfl, hI.queue (by simp) (by simp) hp _⟩
  | taskMain =>
    refine .inr ⟨rfl, ?_⟩
    simp only [launchStep] at hs
    split at hs
    · split at hs
      · simp only [Option.ite_none_right_eq_some, Option.some.injEq] at hs
        obtain ⟨-, rfl⟩ := hs
        exact ⟨hI.reachable, hI.leads, hI.early, hI.stack, hI.timers⟩
      · cases hs
    · cases hs
  | call b =>
    simp only [launchStep, Option.map_eq_some_iff] at hs
    obtain ⟨p, hp, rfl⟩ := hs
    exact .inr ⟨rfl, hI.queue (by simp) (by simp) hp _⟩
  | setTimer =>
    -- only a handler sets a timer
    obtain ⟨hin, -⟩ := Option.ite_none_right_eq_some.mp hs
    have hearly := hI.early.pc
    simp only [Proc.inHandler, hI.stack, Option.isSome_none, Bool.false_or] at hin
    split at hin
    · rename_i hpc
      simp [hpc, TaskPc.early] at hearly
    · cases hin
  | proc a =>
    simp only [launchStep, Option.ite_none_right_eq_some, Option.map_eq_some_iff] at hs
    obtain ⟨hper, p, hp, rfl⟩ := hs
    cases a with
    | queue a =>
      by_cases hb : a = .branch
      · subst hb
        simp only [procStep, Option.ite_none_left_eq_some, Option.map_eq_some_iff, step] at hp
        obtain ⟨-, s, hstep, -⟩ := hp
        split at hstep
        · rename_i slot left hpc
          exact .inl (hI.branch hpc)
        · cases hstep
      · refine .inr ⟨by cases a <;> first | rfl | exact absurd rfl hb, hI.queue hb ?_ hp _⟩
        rintro c k rfl hk hacc hfd hal
        simpa [initFirst, hk, hacc, hfd, hal] using hok
    | OnTimer timerId junk => simp [Launch.permits, hI.timers] at hper
    | callMsgClose junk =>
      simp only [procStep, Option.ite_none_right_eq_some] at hp
      have hearly := hI.early.pc
      simp [hp.1.1, TaskPc.early] at hearly
    | setSendMsgResult code => simp [procStep, hI.stack] at hp
    | handlerReturn => simp [procStep, hI.stack] at hp

lemma Waits.init : Waits N ⟨⟨State.init, none, false⟩, .called, false⟩ where
  reachable := .init rfl
  leads := by
    intro c hc
    cases hc
  early := ⟨rfl, rfl, rfl⟩
  stack := rfl
  timers := rfl

/-- The first message given to `OnEventProc` is `EDM_INIT`, if no other message is accepted
before it. -/
theorem edm_init_first {x : Recorded Launch UInt16}
    (hr : ((launch N entry).recorded given).Reaches (fun x a => initFirst N x.state a = true) x) :
    ∀ m, x.log.head? = some m → m = EDM_INIT := by
  have hinv : (x.log = [] → Waits N x.state) ∧ ∀ m, x.log.head? = some m → m = EDM_INIT := by
    refine hr.invariant (I := fun x => (x.log = [] → Waits N x.state) ∧
      ∀ m, x.log.head? = some m → m = EDM_INIT) ?_ (fun x a y _ hI hok hs => ?_)
    · rintro x ⟨hx, hlog⟩
      rw [hlog]
      exact ⟨fun _ => hx ▸ Waits.init, by simp⟩
    · obtain ⟨hstep, hlog⟩ := recorded_step hs
      rw [hlog]
      by_cases hempty : x.log = []
      · rcases (hI.1 hempty).step hok hstep with hgiven | ⟨hgiven, hwaits⟩
        · simp [hempty, hgiven]
        · simp [hempty, hgiven, hwaits]
      · simpa [hempty, List.head?_append_of_ne_nil] using hI.2
  exact hinv.2

/-- `runMain`, with messages of another thread before and after. -/
def runMainRun : List LaunchAction :=
  [.call (postMsg 1000 0 0), .proc (.queue (.enter 0)), .initMsg 3, .sendInit 1 2,
    .proc (.queue (.enter 1)), .call (postMsg 1001 0 0), .proc (.queue (.enter 2)), .taskMain,
    .proc (.queue .msgevent_cb), .proc (.queue .popMsg), .proc (.queue .branch),
    .proc (.queue .handlerReturn), .proc (.queue .checkSync), .proc (.queue .recycle),
    .proc (.queue .popMsg), .proc (.queue .branch)]

theorem edm_init_first_runMain :
    ∃ x, ((launch 1000 .runMain).recorded given).Reaches
      (fun x a => initFirst 1000 x.state a = true) x ∧
      x.log = [EDM_INIT, 1001] ∧ ∀ m, x.log.head? = some m → m = EDM_INIT := by
  obtain ⟨x, hr, hx⟩ := System.exists_of_exec_restrict
    (M := (launch 1000 .runMain).recorded given) (T := fun x a => initFirst 1000 x.state a)
    (f := Recorded.log) (s := ⟨⟨⟨State.init, none, false⟩, .called, false⟩, []⟩) ⟨rfl, rfl⟩
    (b := [EDM_INIT, 1001]) (l := runMainRun) (by decide +kernel)
  exact ⟨x, hr, hx, edm_init_first hr⟩

/-- Another thread posts between `initMsg` and `EDM_INIT`. -/
def overtakenRun : List LaunchAction :=
  [.initMsg 3, .call (postMsg 1000 0 0), .proc (.queue (.enter 0)), .startThread, .sendInit 1 2,
    .proc (.queue (.enter 1)), .proc (.queue .msgevent_cb), .proc (.queue .popMsg),
    .proc (.queue .branch)]

theorem not_edm_init_first :
    ¬ ∀ x, ((launch 1000 .run).recorded given).Reachable x →
      ∀ m, x.log.head? = some m → m = EDM_INIT := by
  intro h
  obtain ⟨x, hr, hx⟩ := System.exists_of_exec
    (M := (launch 1000 .run).recorded given) (f := fun x => x.log.head?)
    (s := ⟨⟨⟨State.init, none, false⟩, .called, false⟩, []⟩) ⟨rfl, rfl⟩
    (b := some 1000) (l := overtakenRun) (by decide +kernel)
  have hfirst := h x hr 1000 hx
  exact absurd hfirst (by decide)

end EdNio.Task
