import EdNio.Task.SyncSend

/-!
# Results of synchronous sends

`setSendMsgResult` writes through a pointer of its message. The message comes from a slot of
the queue, or it is a local of `TaskTimer::OnTimer` or `callMsgClose`, which do not assign
`sync` and `psend_result`.
-/

namespace EdNio.Task
open Transition

def EDM_CLOSE : UInt16 := 2
def EDM_TIMER : UInt16 := 3

/-- The message of `callMsgClose`; `junk` is what was on the stack. -/
def closeMessage (junk : EdMsg) : EdMsg :=
  { junk with msgid := EDM_CLOSE, msgobj := none }

/-- The message of `TaskTimer::OnTimer`; `p1` is the lower half of `data`. -/
def timerMessage (timerId : UInt32) (junk : EdMsg) : EdMsg :=
  { junk with
    msgid := EDM_TIMER
    data := OBJECT_MSG timerId (junk.data >>> 32).toUInt32
    msgobj := none }

/-- A task with its queue; `stack` is the local message that a handler has been given. -/
structure Proc where
  queue : State
  stack : Option EdMsg
  closeCalled : Bool

inductive ProcAction
  | queue (a : Action)
  | OnTimer (timerId : UInt32) (junk : EdMsg)
  | callMsgClose (junk : EdMsg)
  | setSendMsgResult (code : Int)
  | handlerReturn
deriving DecidableEq, Repr

/-- The task thread begins to dispatch or to close only when it is in no other handler, and
`closeMsg` comes after `callMsgClose`. -/
def Proc.busy (x : Proc) : Action → Bool
  | .msgevent_cb => x.stack.isSome
  | .leaveLoop => x.stack.isSome
  | .closeMsg => x.stack.isSome || !x.closeCalled
  | _ => false

/-- `*msg.psend_result = code` if `msg.sync`, for a message on the stack. -/
def Proc.storeResult (x : Proc) (m : EdMsg) (code : Int) : Proc :=
  if m.sync ≠ 0 then
    match m.psend_result with
    | some c =>
      { x with queue := { x.queue with
          calls := x.queue.calls.modify c (fun k => { k with result := code }) } }
    | none => x
  else x

def procStep (mMaxMsqQueSize : Int) (x : Proc) : ProcAction → Option Proc
  | .queue a =>
    if x.busy a then none
    else (step mMaxMsqQueSize x.queue a).map (fun s => { x with queue := s })
  | .OnTimer timerId junk =>
    if x.queue.pc = .idle ∧ x.stack = none then
      some { x with stack := some (timerMessage timerId junk) }
    else none
  | .callMsgClose junk =>
    if x.queue.pc = .exited ∧ x.stack = none ∧ x.closeCalled = false then
      some { x with stack := some (closeMessage junk), closeCalled := true }
    else none
  | .setSendMsgResult code => x.stack.map (fun m => x.storeResult m code)
  | .handlerReturn => x.stack.map (fun _ => { x with stack := none })

def proc (mMaxMsqQueSize : Int) : System Proc ProcAction where
  init x := x = ⟨State.init, none, false⟩
  step := procStep mMaxMsqQueSize

/-- The call that filled the slot is a `sendEdMsg` that has not returned. -/
def State.Sending (s : State) (slot : Slot) : Prop :=
  ∃ k, s.calls[s.owner slot]? = some k ∧ k.args.api = .sendEdMsg ∧ ∀ o, k.pc ≠ .returned o

/-- In a handler `sync` tells whether the message has a sender that waits for it, and then the
result is stored for this sender. -/
structure Confined (x : Proc) : Prop where
  slot : ∀ slot left t, x.queue.pc = .hand slot left (.running t) →
    ((x.queue.msg slot).sync ≠ 0 ↔ x.queue.Sending slot)
  writes : ∀ slot left t code, x.queue.pc = .hand slot left (.running t) →
    x.queue.Sending slot → (x.queue.setSendMsgResult slot code).calls =
      x.queue.calls.modify (x.queue.owner slot) (fun k => { k with result := code })
  noWrite : ∀ slot left t code, x.queue.pc = .hand slot left (.running t) →
    ¬ x.queue.Sending slot → (x.queue.setSendMsgResult slot code).calls = x.queue.calls
  stack : ∀ m, x.stack = some m → m.sync = 0 ∧ ∀ code, x.storeResult m code = x

/-- The message of `c` is queued, or in hand and not handled yet. -/
def State.Unhandled (s : State) (c : CallId) : Prop :=
  c ∈ (s.pc.inHandler ++ s.mQuedMsgs).map s.owner

instance (s : State) (c : CallId) : Decidable (s.Unhandled c) :=
  inferInstanceAs (Decidable (c ∈ (s.pc.inHandler ++ s.mQuedMsgs).map s.owner))

/-- `sync` of a message on the stack happens to be zero, and `cv.wait` does not return before
the message of its call has been handled. -/
def clears (x : Proc) : ProcAction → Bool
  | .queue (.spuriousWake c) => !decide (x.queue.Unhandled c)
  | .OnTimer _ junk => junk.sync == 0
  | .callMsgClose junk => junk.sync == 0
  | _ => true

/-- A sender that has appended its message and has not been woken up. -/
def State.Blocked (s : State) (k : Call) : Prop :=
  (k.pc = .pushed ∧ 0 ≤ s.mMsgFd) ∨ k.pc = .written ∨ k.pc = .waiting

def SendersBlocked (s : State) : Prop :=
  ∀ c k, s.Unhandled c → s.calls[c]? = some k → k.args.api = .sendEdMsg → s.Blocked k

variable {N : Int} {s s' : State} {a : Action} {c : CallId}

lemma Step.closing (h : Step N s a s') (hc : s.pc.closing = true) : s'.pc.closing = true := by
  cases h with
  | _ => simp_all [TaskPc.closing, State.createTaskMsgQue, State.destroyTaskMsgQue]

/-- A step that changes call `c` by `f` and no other call, and leaves no more messages to be
handled than there were. -/
lemma SendersBlocked.modify (hI : SendersBlocked s) {f : Call → Call}
    (hcalls : s'.calls = s.calls.modify c f) (hargs : ∀ k, (f k).args = k.args)
    (hsub : ∀ d, s'.Unhandled d → s.Unhandled d) (hfd : 0 ≤ s.mMsgFd → 0 ≤ s'.mMsgFd)
    (hc : ∀ k, s.calls[c]? = some k → s'.Unhandled c → s.Blocked k → s'.Blocked (f k)) :
    SendersBlocked s' := by
  intro d k hd hk ha
  rw [hcalls] at hk
  rcases call_of_modify hk with ⟨rfl, k', hk', rfl⟩ | ⟨-, hk⟩
  · rw [hargs] at ha
    exact hc k' hk' hd (hI d k' (hsub d hd) hk' ha)
  · rcases hI d k (hsub d hd) hk ha with ⟨hpc, hge⟩ | hpc
    · exact .inl ⟨hpc, hfd hge⟩
    · exact .inr hpc

lemma SendersBlocked.frame (hI : SendersBlocked s) (hcalls : s'.calls = s.calls)
    (hsub : ∀ d, s'.Unhandled d → s.Unhandled d) (hfd : 0 ≤ s.mMsgFd → 0 ≤ s'.mMsgFd) :
    SendersBlocked s' := by
  intro d k hd hk ha
  rw [hcalls] at hk
  rcases hI d k (hsub d hd) hk ha with ⟨hpc, hge⟩ | hpc
  · exact .inl ⟨hpc, hfd hge⟩
  · exact .inr hpc

lemma SendersBlocked.accept (hI : SendersBlocked s) (hS : SlotsInv s) {slot fresh : Slot}
    {m : EdMsg} {empty : List Slot} (hal : Alloc N s slot m empty fresh) {f : Call → Call}
    (hcalls : s'.calls = s.calls.modify c f) (hargs : ∀ k, (f k).args = k.args)
    (hown : s'.owner = Function.update s.owner slot c)
    (hq : s'.mQuedMsgs = s.mQuedMsgs ++ [slot]) (hpc : s'.pc = s.pc)
    (hfd : s'.mMsgFd = s.mMsgFd)
    (hc : ∀ k, s.calls[c]? = some k → k.args.api = .sendEdMsg → s'.Blocked (f k)) :
    SendersBlocked s' := by
  obtain ⟨hhand, hqueue⟩ := hal.not_busy hS
  intro d k hd hk ha
  rw [hcalls] at hk
  rcases call_of_modify hk with ⟨rfl, k', hk', rfl⟩ | ⟨hdc, hk⟩
  · rw [hargs] at ha
    exact hc k' hk' ha
  · have hold : s.Unhandled d := by
      obtain ⟨x, hx, hxd⟩ := List.mem_map.mp hd
      rw [hpc, hq, ← List.append_assoc, List.mem_append, List.mem_singleton] at hx
      have hne : x ≠ slot := by
        rintro rfl
        rw [hown, Function.update_self] at hxd
        exact hdc hxd.symm
      rw [hown, Function.update_of_ne hne] at hxd
      exact List.mem_map.mpr ⟨x, hx.resolve_right hne, hxd⟩
    rcases hI d k hold hk ha with ⟨hp, hge⟩ | hp
    · exact .inl ⟨hp, hfd ▸ hge⟩
    · exact .inr hp

theorem SendersBlocked.step (hr : (queue N).Reachable s) (hI : SendersBlocked s)
    (hok : ∀ c, a = .spuriousWake c → ¬ s.Unhandled c) (h : Step N s a s')
    (hclosing : s'.pc.closing = false) : SendersBlocked s' := by
  have hS := reachable_slots hr
  have hH := reachable_history hr
  have hL := reachable_link hr
  cases h with
  | posted c k slot m empty fresh hk hpc hm hfd ha hal =>
    refine hI.accept hS hal (c := c) rfl (fun _ => rfl) rfl rfl rfl rfl (fun k' hk' ha' => ?_)
    rw [hk, Option.some.injEq] at hk'
    subst hk'
    rw [ha] at ha'
    cases ha'
  | pushed c k slot m empty fresh hk hpc hm hfd ha hal =>
    exact hI.accept hS hal (c := c) rfl (fun _ => rfl) rfl rfl rfl rfl
      (fun k' hk' ha' => .inl ⟨rfl, hfd⟩)
  | refused c k hk hpc | queueFull c k hk hpc =>
    refine hI.modify rfl (fun _ => rfl) (fun _ h => h) id (fun k' hk' _ hb => ?_)
    rw [hk, Option.some.injEq] at hk'
    subst hk'
    simp [State.Blocked, hpc] at hb
  | call b =>
    intro d k hd hk ha
    obtain ⟨slot, hslot, rfl⟩ := List.mem_map.mp hd
    have hact : slot ∈ s.pc.inHand ++ s.mQuedMsgs :=
      (List.mem_append.mp hslot).elim
        (fun h => List.mem_append_left _ (TaskPc.inHandler_subset h))
        (fun h => List.mem_append_right _ h)
    obtain ⟨k', hk', -⟩ := (reachable_accepted hr _).mp (hH.owner_accepted hact)
    have hlt := (List.getElem?_eq_some_iff.mp hk').1
    rw [List.getElem?_append_left hlt] at hk
    exact hI _ k hd hk ha
  | write c hpc hfd =>
    exact hI.modify rfl (fun _ => rfl) (fun _ h => h) id (fun _ _ _ _ => .inr (.inl rfl))
  | writeFails c hpc hfd =>
    obtain ⟨k, hk, hkpc⟩ := callPc_eq hpc
    refine hI.modify rfl (fun _ => rfl) (fun _ h => h) id (fun k' hk' _ hb => ?_)
    rw [hk, Option.some.injEq] at hk'
    subst hk'
    simp only [State.Blocked, hkpc] at hb
    simp at hb
    omega
  | wait c hpc =>
    exact hI.modify rfl (fun _ => rfl) (fun _ h => h) id (fun _ _ _ _ => .inr (.inr rfl))
  | spuriousWake c hpc =>
    exact hI.modify rfl Call.wake_args (fun _ h => h) id
      (fun _ _ hu _ => absurd hu (hok c rfl))
  | resume c hpc hm =>
    obtain ⟨k, hk, hkpc⟩ := callPc_eq hpc
    refine hI.modify rfl (fun _ => rfl) (fun _ h => h) id (fun k' hk' _ hb => ?_)
    rw [hk, Option.some.injEq] at hk'
    subst hk'
    simp [State.Blocked, hkpc] at hb
  | initMsg fd hpc hfd =>
    refine hI.frame rfl (fun d hd => ?_) (fun _ => Int.le_of_lt hfd)
    simpa [State.Unhandled, TaskPc.inHandler, hpc] using hd
  | setSendMsgResult slot left t code hpc =>
    by_cases hs : (s.msg slot).sync = 0
    · exact hI.frame (by simp [State.setSendMsgResult, hs]) (fun _ h => h) id
    · cases hres : (s.msg slot).psend_result with
      | none => exact hI.frame (by simp [State.setSendMsgResult, hs, hres]) (fun _ h => h) id
      | some c =>
        exact hI.modify (c := c) (f := fun k => { k with result := code })
          (by simp [State.setSendMsgResult, hs, hres]) (fun _ => rfl) (fun _ h => h) id
          (fun _ _ _ hb => hb)
  | notify slot left c hpc hc =>
    have hhand : slot ∈ s.pc.inHand := by simp [hpc, TaskPc.inHand]
    obtain ⟨b, -, hlink⟩ := hL.linked slot (List.mem_append_left _ hhand)
    have hs := hL.sync slot (by simp [hpc, TaskPc.signalling])
    have hcv : (s.msg slot).pcv = some (s.owner slot) := by
      rcases hlink with ⟨h0, -⟩ | ⟨-, -, -, hcv, -⟩
      · exact absurd h0 hs
      · exact hcv
    -- the message that is notified has been handled and is not queued any more
    obtain rfl := Option.some.inj (hc.symm.trans hcv)
    refine hI.modify rfl Call.wake_args (fun d hd => ?_) id (fun _ _ hu _ => ?_)
    · simpa [State.Unhandled, TaskPc.inHandler, hpc] using hd
    · simp only [State.Unhandled, TaskPc.inHandler, List.nil_append] at hu
      exact absurd hu (hH.hand_not_queued hhand)
  | lockMtx slot left c hpc | unlockMtx slot left c hpc =>
    refine hI.modify rfl (fun _ => rfl) (fun d hd => ?_) id (fun _ _ _ hb => hb)
    simpa [State.Unhandled, TaskPc.inHandler, hpc] using hd
  | closeMsg | closeEmpty | drainSync | drainPost | drainLock | drainNotify | drainUnlock
  | drainEnd =>
    simp_all [TaskPc.closing, State.closeFd]
  | _ =>
    refine hI.frame rfl (fun d hd => ?_) id
    simp_all [State.Unhandled, TaskPc.inHandler, State.deliver, State.finish,
      State.createTaskMsgQue, State.destroyTaskMsgQue]

/-- What is kept in the runs where no sender is woken up before its message has been handled. -/
structure ProcInv (N : Int) (x : Proc) : Prop where
  reachable : (queue N).Reachable x.queue
  blocked : x.queue.pc.closing = true ∨ SendersBlocked x.queue
  stack : ∀ m, x.stack = some m → m.sync = 0

variable {x y : Proc}

lemma storeResult_eq {m : EdMsg} (h : m.sync = 0) (code : Int) : x.storeResult m code = x :=
  if_neg (not_not_intro h)

lemma ProcInv.init : ProcInv N ⟨State.init, none, false⟩ where
  reachable := .init rfl
  blocked := .inr (fun c k hc => by simp [State.Unhandled, State.init, TaskPc.inHandler] at hc)
  stack m hm := by cases hm

theorem ProcInv.step (hI : ProcInv N x) {a : ProcAction} (hok : clears x a = true)
    (hs : procStep N x a = some y) : ProcInv N y := by
  cases a with
  | queue a =>
    simp only [procStep, Option.ite_none_left_eq_some, Option.map_eq_some_iff] at hs
    obtain ⟨-, s, hstep, rfl⟩ := hs
    refine ⟨.step hI.reachable trivial hstep, ?_, hI.stack⟩
    cases hclosing : s.pc.closing with
    | true => exact .inl rfl
    | false =>
      refine .inr ?_
      rcases hI.blocked with hcl | hb
      · rw [(step_cases hstep).closing hcl] at hclosing
        cases hclosing
      · refine hb.step hI.reachable ?_ (step_cases hstep) hclosing
        rintro c rfl
        simpa [clears] using hok
  | OnTimer timerId junk =>
    simp only [procStep, Option.ite_none_right_eq_some, Option.some.injEq] at hs
    obtain ⟨-, rfl⟩ := hs
    refine ⟨hI.reachable, hI.blocked, fun m hm => ?_⟩
    obtain rfl := Option.some.inj hm
    simpa [clears, timerMessage] using hok
  | callMsgClose junk =>
    simp only [procStep, Option.ite_none_right_eq_some, Option.some.injEq] at hs
    obtain ⟨-, rfl⟩ := hs
    refine ⟨hI.reachable, hI.blocked, fun m hm => ?_⟩
    obtain rfl := Option.some.inj hm
    simpa [clears, closeMessage] using hok
  | setSendMsgResult code =>
    obtain ⟨m, hm, rfl⟩ := Option.map_eq_some_iff.mp hs
    rw [storeResult_eq (hI.stack m hm)]
    exact hI
  | handlerReturn =>
    obtain ⟨m, -, rfl⟩ := Option.map_eq_some_iff.mp hs
    exact ⟨hI.reachable, hI.blocked, fun m hm => by cases hm⟩

lemma ProcInv.sync_iff (hI : ProcInv N x) {slot : Slot} {left : Nat} {t : Target}
    (hpc : x.queue.pc = .hand slot left (.running t)) :
    (x.queue.msg slot).sync ≠ 0 ↔ x.queue.Sending slot := by
  have hhand : slot ∈ x.queue.pc.inHand := by simp [hpc, TaskPc.inHand]
  have hact := List.mem_append_left x.queue.mQuedMsgs hhand
  obtain ⟨b, hb, hlink⟩ := (reachable_link hI.reachable).linked slot hact
  constructor
  · intro hs
    obtain ⟨-, ha, -⟩ := hlink.resolve_left (fun h => hs h.1)
    obtain ⟨k, hk, -⟩ := (reachable_accepted hI.reachable _).mp
      ((reachable_history hI.reachable).owner_accepted hact)
    have hka : k.args.api = .sendEdMsg := by
      rw [callArgs_eq hk hb]
      exact ha
    have hblocked := hI.blocked.resolve_left (by simp [hpc, TaskPc.closing])
    refine ⟨k, hk, hka, fun o ho => ?_⟩
    have hk' := hblocked _ k (by simp [State.Unhandled, hpc, TaskPc.inHandler]) hk hka
    simp [State.Blocked, ho] at hk'
  · rintro ⟨k, hk, hka, -⟩ hs
    rcases hlink with ⟨-, ha⟩ | ⟨hne, -⟩
    · rw [← callArgs_eq hk hb, hka] at ha
      cases ha
    · exact hne hs

/-- A handler's `setSendMsgResult` stores its code for the sender that waits for the message,
and nothing for a message without one. -/
theorem setSendMsgResult_confined
    (hr : (proc N).Reaches (fun x a => clears x a = true) x) : Confined x := by
  have hI : ProcInv N x := hr.invariant (I := ProcInv N) (by rintro _ rfl; exact ProcInv.init)
    (fun _ _ _ _ hI hok hs => hI.step hok hs)
  refine ⟨fun slot left t hpc => hI.sync_iff hpc, fun slot left t code hpc hlive => ?_,
    fun slot left t code hpc hlive => ?_, fun m hm => ⟨hI.stack m hm, fun code => ?_⟩⟩
  · have hs := (hI.sync_iff hpc).mpr hlive
    obtain ⟨b, -, hlink⟩ := (reachable_link hI.reachable).linked slot
      (List.mem_append_left _ (by simp [hpc, TaskPc.inHand]))
    obtain ⟨-, -, hres, -⟩ := hlink.resolve_left (fun h => hs h.1)
    simp [State.setSendMsgResult, hs, hres]
  · have hs := not_not.mp (mt (hI.sync_iff hpc).mp hlive)
    simp [State.setSendMsgResult, hs]
  · exact storeResult_eq (hI.stack m hm) code

/-- A synchronous send up to its handler. -/
def sendToHandler : List ProcAction :=
  [.queue (.initMsg 3), .queue (.call (sendMsg 1000 1 2)), .queue (.enter 0), .queue (.write 0),
    .queue (.wait 0), .queue .msgevent_cb, .queue .popMsg, .queue .branch]

theorem setSendMsgResult_confined_send :
    ∃ x, (proc 1000).Reaches (fun x a => clears x a = true) x ∧
      x.queue.pc = .hand 0 0 (.running .onEventProc) ∧ Confined x := by
  obtain ⟨x, hr, hx⟩ := System.exists_of_exec_restrict (M := proc 1000) (T := clears)
    (s := ⟨State.init, none, false⟩) rfl
    (show (((proc 1000).restrict clears).exec ⟨State.init, none, false⟩ sendToHandler).map
      (fun x => x.queue.pc) = some (.hand 0 0 (.running .onEventProc)) by decide +kernel)
  exact ⟨x, hr, hx, setSendMsgResult_confined hr⟩

/-- The message of a task timer whose `sync` happens not to be zero. -/
theorem not_setSendMsgResult_confined :
    ¬ ∀ x, (proc 1000).Reachable x → Confined x := by
  intro h
  obtain ⟨x, hr, hx⟩ := System.exists_of_exec (M := proc 1000)
    (f := fun x => x.stack.map EdMsg.sync) (s := ⟨State.init, none, false⟩) rfl
    (show ((proc 1000).exec ⟨State.init, none, false⟩
      [.queue (.initMsg 3), .OnTimer 1 { EdMsg.zero with sync := 1 }]).map
        (fun x => x.stack.map EdMsg.sync) = some (some 1) by decide +kernel)
  obtain ⟨m, hm, hsync⟩ := Option.map_eq_some_iff.mp hx
  have hzero := ((h x hr).stack m hm).1
  rw [hzero] at hsync
  cases hsync

end EdNio.Task
