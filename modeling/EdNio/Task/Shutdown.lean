import EdNio.Task.Count
import EdNio.Task.Wakeup

/-!
# Synchronous sends and the end of the task

The calls of `sendEdMsg` while the task thread leaves its loop and runs `closeMsg`.
-/

namespace EdNio.Task
open Transition

/-- `allocMsgObj` has a slot for each call of `sendEdMsg` that gets to it. -/
def roomForSend (N : Int) (s : State) : Action → Bool
  | .enter c =>
    match s.calls[c]? with
    | some k => k.args.api ≠ .sendEdMsg || s.mMsgFd < 0 || (s.allocMsgObj N).isSome
    | none => true
  | _ => true

/-- When `closeMsg` begins and takes `mQuedMsgs.size()` for 0 or less, no synchronous message
is queued. The size is an `int`, so that of `2 ^ 31` messages is negative. -/
def drainsSends (s : State) : Action → Bool
  | .closeMsg => 0 < State.size s.mQuedMsgs || s.mQuedMsgs.all (fun slot => (s.msg slot).sync = 0)
  | _ => true

def shutdownStep (N : Int) (s : State) (a : Action) : Bool :=
  calm a && quietClose s a && roomForSend N s a && drainsSends s a

abbrev ShutdownRun (N : Int) (s : State) : Prop :=
  (queue N).Reaches (fun s a => shutdownStep N s a = true) s

lemma ShutdownRun.sync {N : Int} {s : State} (h : ShutdownRun N s) : SyncRun N s := by
  refine h.mono (fun s a ha => ?_)
  simp only [shutdownStep, Bool.and_eq_true] at ha ⊢
  exact ha.1.1

def RoomInv (s : State) : Prop :=
  ∀ (c : CallId) (k : Call), s.calls[c]? = some k → k.pc = .returned .queueFull →
    k.args.api = .postEdMsg

lemma RoomInv.modify {s s' : State} (hI : RoomInv s) {d : CallId} {f : Call → Call}
    (hcalls : s'.calls = s.calls.modify d f)
    (hf : ∀ k, s.calls[d]? = some k → (f k).pc = .returned .queueFull →
      (f k).args.api = .postEdMsg ∨ k.pc = .returned .queueFull ∧ (f k).args = k.args) :
    RoomInv s' := by
  intro c k hk hpc
  rw [hcalls] at hk
  rcases call_of_modify hk with ⟨-, k', hk', rfl⟩ | ⟨-, hk⟩
  · rcases hf k' hk' hpc with h | ⟨h, ha⟩
    · exact h
    · rw [ha]
      exact hI d k' hk' h
  · exact hI c k hk hpc

lemma Call.wake_queueFull {k : Call} (h : k.wake.pc = .returned .queueFull) :
    k.pc = .returned .queueFull := by
  unfold Call.wake at h
  split at h
  · simp at h
  · exact h

theorem RoomInv.step {N : Int} {s s' : State} {a : Action} (hI : RoomInv s)
    (hok : roomForSend N s a = true) (h : Step N s a s') : RoomInv s' := by
  cases h with
  | call b =>
    intro c k hk hpc
    rcases call_of_append hk with hk | rfl
    · exact hI c k hk hpc
    · cases hpc
  | queueFull c k hk hpc hm hfd hal =>
    refine hI.modify rfl (fun k' hk' _ => .inl ?_)
    rw [hk, Option.some.injEq] at hk'
    subst hk'
    have hfd' : ¬ s.mMsgFd < 0 := Int.not_lt.mpr hfd
    cases ha : k.args.api with
    | postEdMsg => exact ha
    | sendEdMsg => simp [roomForSend, hk, hal, ha, hfd'] at hok
  | posted | pushed | refused | write | writeFails | wait | resume =>
    exact hI.modify rfl (fun k _ hpc => by simp [Call.leave, Call.push] at hpc)
  | spuriousWake | notify =>
    exact hI.modify rfl (fun k _ hpc => .inr ⟨Call.wake_queueFull hpc, k.wake_args⟩)
  | lockMtx | unlockMtx | drainLock | drainUnlock =>
    exact hI.modify rfl (fun k _ hpc => .inr ⟨hpc, rfl⟩)
  | drainNotify slot c d =>
    have h1 : RoomInv { s with calls := s.calls.modify c (fun k => { k with result := -1000 }) } :=
      hI.modify rfl (fun k _ hpc => .inr ⟨hpc, rfl⟩)
    exact h1.modify rfl (fun k _ hpc => .inr ⟨Call.wake_queueFull hpc, k.wake_args⟩)
  | setSendMsgResult slot left t code hpc =>
    by_cases hs : (s.msg slot).sync = 0
    · simpa [RoomInv, State.setSendMsgResult, hs] using hI
    · cases hr : (s.msg slot).psend_result with
      | none => simpa [RoomInv, State.setSendMsgResult, hs, hr] using hI
      | some d =>
        refine hI.modify (d := d) (f := fun k => { k with result := code })
          (by simp [State.setSendMsgResult, hs, hr]) (fun k _ hpc => .inr ⟨hpc, rfl⟩)
  | _ => exact hI

lemma ShutdownRun.room {N : Int} {s : State} (h : ShutdownRun N s) : RoomInv s := by
  refine h.invariant (fun s h0 => ?_) (fun s a s' _ hI hok hs => hI.step ?_ (step_cases hs))
  · rw [show s = State.init from h0]
    simp [RoomInv, State.init]
  · simp only [shutdownStep, Bool.and_eq_true] at hok
    exact hok.1.2

/-- What `closeMsg` has left in the queue waits for nobody. -/
def LeftInv (s : State) : Prop :=
  s.pc = .closed → ∀ slot ∈ s.mQuedMsgs, (s.msg slot).sync = 0

theorem LeftInv.step {N : Int} {s s' : State} {a : Action} (hI : LeftInv s) (hH : HistoryInv s)
    (hok : drainsSends s a = true) (h : Step N s a s') : LeftInv s' := by
  cases h with
  | posted c k slot m empty fresh hk hpc hm hfd | pushed c k slot m empty fresh hk hpc hm hfd =>
    -- after `closeMsg` the descriptor is closed
    intro hclosed
    exact absurd (hH.closedFd (congrArg TaskPc.closing hclosed)) (Int.not_lt.mpr hfd)
  | closeEmpty hpc hm hq =>
    intro _ slot hslot
    simp only [drainsSends, hq, decide_false, Bool.false_or, List.all_eq_true,
      decide_eq_true_eq] at hok
    exact hok slot hslot
  | drainEnd hpc hq =>
    intro _ slot hslot
    simp only [hq, List.not_mem_nil] at hslot
  | editMsg slot left t v hpc =>
    intro hclosed
    cases hpc.symm.trans hclosed
  | drainPost slot rest hpc =>
    intro hclosed
    cases hpc.symm.trans hclosed
  | initMsg | read | popped | queError | endLoop | exitMsg | onEventProc | find | invoke
  | noListener | handlerReturn | isSync | notSync | lockMtx | notify | unlockMtx | recycle
  | leaveLoop | closeMsg | drainSync | drainLock | drainNotify | drainUnlock =>
    intro hclosed
    cases hclosed
  | _ => exact hI

lemma ShutdownRun.left {N : Int} {s : State} (h : ShutdownRun N s) : LeftInv s := by
  refine h.invariant (fun s h0 hpc => ?_)
    (fun s a s' hr hI hok hs => hI.step (reachable_history hr.reachable) ?_ (step_cases hs))
  · rw [show s = State.init from h0] at hpc
    cases hpc
  · simp only [shutdownStep, Bool.and_eq_true] at hok
    exact hok.2

/-- What shutdown owes to the calls of `sendEdMsg`. -/
structure ShutdownSafe (s : State) : Prop where
  noError : ∀ k ∈ s.calls, k.pc ≠ .returned .sendError
  writes : ∀ k ∈ s.calls, k.pc = .pushed → 0 ≤ s.mMsgFd
  returned : ∀ c k o, s.calls[c]? = some k → k.args.api = .sendEdMsg → k.pc = .returned o →
    (o = .refused ∧ c ∉ s.accepted) ∨
    (o = .replied (s.lastStored c) ∧ c ∈ s.finished ∧ c ∉ s.drained) ∨
    (o = .replied (-1000) ∧ c ∈ s.drained)
  signals : ∀ slot stage, s.pc = .drain slot stage →
    ∃ c k, (s.msg slot).psend_result = some c ∧ (s.msg slot).pcv = some c ∧
      (s.msg slot).pmtx = some c ∧ s.calls[c]? = some k ∧ ∀ o, k.pc ≠ .returned o
  closed : s.pc = .closed → ∀ c k, s.calls[c]? = some k → k.args.api = .sendEdMsg →
    c ∈ s.accepted → (k.pc = .woken ∧ k.mtx = none) ∨ ∃ o, k.pc = .returned o

lemma ShutdownRun.safe {N : Int} {s : State} (h : ShutdownRun N s) : ShutdownSafe s := by
  have hI := sync_inv h.sync
  have hA := reachable_accepted h.reachable
  have hH := reachable_history h.reachable
  have hL := reachable_link h.reachable
  constructor
  · intro k hk hpc
    obtain ⟨c, hc⟩ := List.getElem?_of_mem hk
    have hp := hI.phase c k hc
    simp [State.Phase, hpc] at hp
  · intro k hk hpc
    obtain ⟨c, hc⟩ := List.getElem?_of_mem hk
    have hp := hI.phase c k hc
    simp only [State.Phase, hpc] at hp
    exact hp.2.2.2.2.2
  · intro c k o hk ha hpc
    have hp := hI.phase c k hk
    cases o with
    | refused =>
      refine .inl ⟨rfl, fun hacc => ?_⟩
      have hac := hA.pc hk hacc
      simp [hpc, CallPc.accepted] at hac
    | queueFull =>
      have hpost := h.room c k hk hpc
      simp [ha] at hpost
    | posted ret => simp [State.Phase, hpc, ha] at hp
    | sendError => simp [State.Phase, hpc] at hp
    | replied v =>
      right
      simp only [State.Phase, hpc] at hp
      obtain ⟨-, -, -, hset, hval, -⟩ := hp
      by_cases hd : c ∈ s.drained
      · right
        rw [hval]
        simp [State.reply, hd]
      · left
        rw [hval]
        simp only [State.reply, hd, if_false, not_false_eq_true, and_true, true_and]
        exact hset.resolve_right hd
  · intro slot stage hpc
    have hs := hL.sync slot (by simp [hpc, TaskPc.signalling])
    cases stage with
    | locking | locked =>
      obtain ⟨h1, h2, h3, -, k, hk, hb⟩ := hI.sender hA hH hL (by simp [hpc, TaskPc.pending]) hs
      exact ⟨_, k, h1, h2, h3, hk, fun o ho => by simp [ho] at hb⟩
    | notified =>
      obtain ⟨h1, h2, h3, k, hk, hw, -⟩ :=
        hI.notified hA hH hL (show slot ∈ s.pc.notified by simp [hpc, TaskPc.notified])
      exact ⟨_, k, h1, h2, h3, hk, by simp [hw]⟩
  · intro hpc c k hk ha hacc
    have hu : ¬ s.Unsettled c := by
      intro hu
      obtain ⟨slot, hslot, rfl⟩ := List.mem_map.mp hu
      simp only [hpc, TaskPc.pending, List.nil_append] at hslot
      have hpost := SyncInv.poster hL (List.mem_append_right _ hslot) (h.left hpc slot hslot) hk
      cases ha.symm.trans hpost
    have hn : ¬ s.Notified c := by simp [State.Notified, hpc, TaskPc.notified]
    rcases hI.accepted_phase hk ha (hA.pc hk hacc) with ⟨hu', -⟩ | ⟨-, hw, hm⟩ | ⟨-, -, v, hv⟩
    · exact absurd hu' hu
    · exact .inl ⟨hw, (hm.resolve_left (fun h => hn h.1)).2⟩
    · exact .inr ⟨_, hv⟩

/-- Steps `closeMsg` has left for the message in hand. -/
def TaskPc.drainRank : TaskPc → Nat
  | .drain _ .locking => 5
  | .drain _ .locked => 4
  | .drain _ .notified => 3
  | .draining => 1
  | _ => 0

section CloseRank

variable (c : CallId) (s : State)

/-- Steps `closeMsg` has left, with those of the senders it may wait for. -/
def State.closeRank : Nat :=
  6 * s.mQuedMsgs.length + s.pc.drainRank + s.calls.countP (fun k => k.pc = .written)

/-- The step that brings `closeMsg` closer to its end, and then `c` to its return. -/
def State.closeStep : Action :=
  match s.pc with
  | .draining => if s.mQuedMsgs = [] then .drainEnd else .drainPop
  | .drain slot .locking =>
    if s.callPc (s.owner slot) = some .written then .wait (s.owner slot) else .drainLock
  | .drain _ .locked => .drainNotify
  | .drain _ .notified => .drainUnlock
  | _ => .resume c

end CloseRank

/-- Steps of `closeMsg`, of the senders that are about to wait, and of `c`. -/
def ClosingAction (c : CallId) (a : Action) : Prop :=
  a ∈ [.drainPop, .drainLock, .drainNotify, .drainUnlock, .drainEnd, .resume c] ∨
    ∃ d, a = .wait d

lemma closeStep_closing (c : CallId) (s : State) : ClosingAction c (s.closeStep c) := by
  unfold State.closeStep ClosingAction
  repeat' split
  all_goals simp

/-- An accepted synchronous send during or after `closeMsg`. -/
structure Closing (c : CallId) (s : State) : Prop where
  closing : s.pc.closing = true
  accepted : c ∈ s.accepted
  api : ∃ b, s.callArgs c = some b ∧ b.api = .sendEdMsg

lemma ShutdownRun.closeStep_enabled {N : Int} {s : State} (h : ShutdownRun N s) {c : CallId}
    (hc : Closing c s) (hr : ¬ Replied c s) :
    ((queue N).step s (s.closeStep c)).isSome = true := by
  have hI := sync_inv h.sync
  have hA := reachable_accepted h.reachable
  have hH := reachable_history h.reachable
  have hL := reachable_link h.reachable
  have hclosing := hc.closing
  have hfd := hH.closedFd hclosing
  cases hpc : s.pc with
  | draining =>
    cases hq : s.mQuedMsgs with
    | nil => simp [State.closeStep, hpc, hq, queue, Task.step]
    | cons slot rest => simp [State.closeStep, hpc, hq, queue, Task.step]
  | drain slot stage =>
    have hs := hL.sync slot (by simp [hpc, TaskPc.signalling])
    cases stage with
    | locking =>
      obtain ⟨-, -, hmtx, -, k, hk, hb⟩ :=
        hI.sender hA hH hL (by simp [hpc, TaskPc.pending]) hs
      have hcall : s.callPc (s.owner slot) = some k.pc := by simp [State.callPc, hk]
      have hp := hI.phase _ k hk
      rcases hb with hb | hb | hb
      · simp only [State.Phase, hb] at hp
        exact absurd hp.2.2.2.2.2 (Int.not_le.mpr hfd)
      · simp [State.closeStep, hpc, hcall, hb, queue, Task.step]
      · have hl : ¬ s.Locked (s.owner slot) := by simp [State.Locked, hpc, TaskPc.locked]
        simp only [State.Phase, hb, hl, false_and, not_false_eq_true, true_and, false_or] at hp
        simp [State.closeStep, hpc, hcall, hb, queue, Task.step, State.lockPmtx, hmtx,
          State.callMtx, hk, hp.2.2.2]
    | locked =>
      obtain ⟨hres, hcv, -⟩ :=
        hI.sender hA hH hL (by simp [hpc, TaskPc.pending]) hs
      simp [State.closeStep, hpc, queue, Task.step, hres, State.notifyPcv, State.updCall, hcv]
    | notified =>
      obtain ⟨-, -, hmtx, -⟩ :=
        hI.notified hA hH hL (show slot ∈ s.pc.notified by simp [hpc, TaskPc.notified])
      simp [State.closeStep, hpc, queue, Task.step, State.unlockPmtx, hmtx]
  | closed =>
    obtain ⟨b, hb, ha⟩ := hc.api
    obtain ⟨k, hk, hkb⟩ := Option.map_eq_some_iff.mp hb
    have hka : k.args.api = .sendEdMsg := by
      rw [hkb]
      exact ha
    rcases h.safe.closed hpc c k hk hka hc.accepted with ⟨hw, hm⟩ | ⟨o, ho⟩
    · simp [State.closeStep, hpc, queue, Task.step, State.callPc, State.callMtx, hk, hw, hm]
    · have hcall : s.callPc c = some (.returned o) := by simp [State.callPc, hk, ho]
      rcases h.safe.returned c k o hk hka ho with ⟨-, hna⟩ | ⟨ho, -⟩ | ⟨ho, -⟩
      · exact absurd hc.accepted hna
      · exact absurd ⟨_, ho ▸ hcall⟩ hr
      · exact absurd ⟨_, ho ▸ hcall⟩ hr
  | _ => simp [hpc, TaskPc.closing] at hclosing

lemma Step.closing_mono {N : Int} {s s' : State} {a : Action} (h : Step N s a s')
    (hc : s.pc.closing = true) : s'.pc.closing = true := by
  cases h <;> simp_all [TaskPc.closing, State.createTaskMsgQue, State.destroyTaskMsgQue]

lemma Step.accepted_mono {N : Int} {s s' : State} {a : Action} (h : Step N s a s') {c : CallId}
    (hc : c ∈ s.accepted) : c ∈ s'.accepted := by
  cases h with
  | posted | pushed => exact List.mem_append_left _ hc
  | _ => exact hc

/-- `s'` is closer to the end of `closeMsg`, or the step that leads there is still to be
taken. -/
def Nearer (c : CallId) (s : State) (a : Action) (s' : State) : Prop :=
  s'.closeRank < s.closeRank ∨
    s'.closeRank = s.closeRank ∧ s'.closeStep c = s.closeStep c ∧ a ≠ s.closeStep c

lemma nearer_frame {c : CallId} {s s' : State} {a : Action}
    (heq : s'.pc = s.pc ∧ s'.mQuedMsgs = s.mQuedMsgs ∧ s'.owner = s.owner)
    (hw : (∀ x, s'.callPc x = some .written ↔ s.callPc x = some .written) ∧
      s'.calls.countP (fun k => k.pc = .written) = s.calls.countP (fun k => k.pc = .written))
    (ha : a ≠ s.closeStep c) : Nearer c s a s' := by
  obtain ⟨hpc, hq, hown⟩ := heq
  refine .inr ⟨?_, ?_, ha⟩
  · simp only [State.closeRank, hpc, hq, hw.2]
  · simp only [State.closeStep, hpc, hq, hown, hw.1]

lemma written_modify {s : State} {d : CallId} {f : Call → Call} {calls : List Call}
    (hcalls : calls = s.calls.modify d f)
    (hf : ∀ k, s.calls[d]? = some k → ((f k).pc = .written ↔ k.pc = .written)) :
    (∀ x, calls[x]?.map Call.pc = some .written ↔ s.callPc x = some .written) ∧
      calls.countP (fun k => k.pc = .written) = s.calls.countP (fun k => k.pc = .written) := by
  subst hcalls
  constructor
  · intro x
    by_cases hx : d = x
    · subst hx
      cases hk : s.calls[d]? with
      | none => simp [State.callPc, hk]
      | some k => simp [State.callPc, hk, hf k hk]
    · simp [State.callPc, hx]
  · exact countP_modify_same _ _ _ _ (fun k hk => by simpa using hf k hk)

lemma Call.wake_written (k : Call) : decide (k.wake.pc = .written) = decide (k.pc = .written) := by
  unfold Call.wake
  split
  · rename_i h
    simp [h]
  · rfl

lemma not_closeStep {c : CallId} {s : State} {a : Action} (ha : ¬ ClosingAction c a) :
    a ≠ s.closeStep c := by
  rintro rfl
  exact ha (closeStep_closing c s)

lemma ShutdownRun.closeStep_step {N : Int} {s s' : State} {a : Action} (h : ShutdownRun N s)
    {c : CallId} (hc : Closing c s) (hr : ¬ Replied c s) (hok : shutdownStep N s a = true)
    (hs : Step N s a s') (hr' : ¬ Replied c s') : Closing c s' ∧ Nearer c s a s' := by
  refine ⟨⟨hs.closing_mono hc.closing, hs.accepted_mono hc.accepted, ?_⟩, ?_⟩
  · obtain ⟨b, hb, ha⟩ := hc.api
    exact ⟨b, hs.callArgs hb, ha⟩
  have hclosing := hc.closing
  have hfd : s.mMsgFd < 0 := (reachable_history h.reachable).closedFd hclosing
  have hsafe := h.safe
  cases hs with
  | posted _ _ _ _ _ _ _ _ _ hfd' | pushed _ _ _ _ _ _ _ _ _ hfd' | queueFull _ _ _ _ _ hfd'
  | write _ _ hfd' =>
    exact absurd hfd (Int.not_lt.mpr hfd')
  | writeFails d hpc =>
    obtain ⟨k, hk, hp⟩ := callPc_eq hpc
    exact absurd hfd (Int.not_lt.mpr (hsafe.writes k (List.mem_of_getElem? hk) hp))
  | spuriousWake => simp [shutdownStep, calm] at hok
  | call b =>
    refine nearer_frame ⟨rfl, rfl, rfl⟩ ⟨fun x => ?_, by simp⟩
      (not_closeStep (by simp [ClosingAction]))
    rcases Nat.lt_trichotomy x s.calls.length with hx | hx | hx
    · simp [State.callPc, List.getElem?_append_left hx]
    · simp [State.callPc, hx]
    · simp [State.callPc, List.getElem?_eq_none (Nat.le_of_lt hx), List.getElem?_append_right
        (Nat.le_of_lt hx), Nat.sub_ne_zero_of_lt hx]
  | refused d k hk hpc =>
    refine nearer_frame ⟨rfl, rfl, rfl⟩ (written_modify rfl ?_)
      (not_closeStep (by simp [ClosingAction]))
    intro k' hk'
    rw [hk, Option.some.injEq] at hk'
    simp [← hk', hpc, Call.leave]
  | wait d hpc =>
    obtain ⟨k, hk, hp⟩ := callPc_eq hpc
    have hcount := countP_modify (fun k : Call => decide (k.pc = .written)) s.calls d
      (fun k => { k with pc := .waiting, mtx := none }) hk
    left
    simp only [hp, decide_true, if_true, reduceCtorEq, decide_false, Bool.false_eq_true,
      if_false] at hcount
    simp only [State.closeRank]
    omega
  | resume d hpc hm =>
    obtain ⟨k, hk, hp⟩ := callPc_eq hpc
    by_cases hd : d = c
    · subst hd
      exact absurd ⟨k.result, by simp [State.callPc, hk, Call.leave]⟩ hr'
    · refine nearer_frame ⟨rfl, rfl, rfl⟩ (written_modify rfl ?_)
        (not_closeStep (by simp [ClosingAction, hd]))
      intro k' hk'
      rw [hk, Option.some.injEq] at hk'
      simp [← hk', hp, Call.leave]
  | createTaskMsgQue | destroyTaskMsgQue =>
    exact nearer_frame ⟨rfl, rfl, rfl⟩ ⟨fun _ => Iff.rfl, rfl⟩
      (not_closeStep (by simp [ClosingAction]))
  | drainSync slot rest hpc hq | drainPost slot rest hpc hq =>
    left
    simp only [State.closeRank, hpc, hq, List.length_cons, TaskPc.drainRank]
    omega
  | drainLock slot d hpc =>
    have hcount := (written_modify (s := s) (d := d) (f := fun k => { k with mtx := some .task })
      rfl (fun _ _ => Iff.rfl)).2
    left
    simp only [State.closeRank, hpc, TaskPc.drainRank, hcount]
    omega
  | drainNotify slot d e hpc =>
    have hcount : ((s.calls.modify d (fun k => { k with result := -1000 })).modify e
        Call.wake).countP (fun k => k.pc = .written) =
        s.calls.countP (fun k => k.pc = .written) := by
      rw [countP_modify_same _ _ _ _ (fun k _ => k.wake_written)]
      exact (written_modify (f := fun k => { k with result := -1000 }) rfl
        (fun _ _ => Iff.rfl)).2
    left
    simp only [State.closeRank, hpc, TaskPc.drainRank, hcount]
    omega
  | drainUnlock slot d hpc =>
    have hcount := (written_modify (s := s) (d := d) (f := fun k => { k with mtx := none })
      rfl (fun _ _ => Iff.rfl)).2
    left
    simp only [State.closeRank, hpc, TaskPc.drainRank, hcount]
    omega
  | drainEnd hpc hq =>
    left
    simp [State.closeRank, hpc, TaskPc.drainRank]
  | _ => simp_all [TaskPc.closing]

/-- In the runs without spurious wake-ups and full queues in which no call is before its
write when `closeMsg` begins and no synchronous message is left by it, no synchronous send
fails, each returns its result or -1000, and `closeMsg` signals only calls that have not
returned; in a fair run each call accepted before `closeMsg` returns. -/
theorem sendEdMsg_shutdown {N : Int} :
    (∀ s, ShutdownRun N s → ShutdownSafe s) ∧
    ∀ (r : (queue N).Run) (c : CallId), r.All (fun s a => shutdownStep N s a = true) →
      (∀ a, ClosingAction c a → r.Fair a) → ∀ n, Closing c (r.state n) →
      ∃ m, n ≤ m ∧ Replied c (r.state m) := by
  refine ⟨fun s h => h.safe, fun r c hall hfair n hc => ?_⟩
  refine System.Run.eventually_of_rank hall (P := Closing c) State.closeRank (State.closeStep c)
    (fun s _ _ => hfair _ (closeStep_closing c s))
    (fun s hs hP hQ => ShutdownRun.closeStep_enabled hs hP hQ)
    (fun s a s' hs hP hQ hok hst hQ' => ?_) hc
  exact ShutdownRun.closeStep_step hs hP hQ hok (step_cases hst) hQ'

/-- The task exits, and a message appended before `closeMsg` is drained while its sender is
about to wait. -/
def drainedRun : List Action :=
  [.initMsg 5, .call (postMsg EDM_EXIT 0 0), .call (sendMsg 1000 1 2), .enter 0, .msgevent_cb,
    .popMsg, .branch, .checkSync, .recycle, .endLoop, .leaveLoop, .enter 1, .write 1, .closeMsg,
    .drainPop, .wait 1, .drainLock, .drainNotify, .drainUnlock, .drainEnd, .resume 1]

theorem sendEdMsg_shutdown_drainedRun : ∃ r : (queue 2).Run, Closing 1 (r.state 14) ∧
    (r.state 14).callPc 1 = some .written ∧ ShutdownSafe (r.state 14) ∧
    ∃ m, 14 ≤ m ∧ Replied 1 (r.state m) := by
  obtain ⟨t, ht, hobs⟩ := Option.map_eq_some_iff.mp
    (show (((queue 2).restrict (shutdownStep 2)).exec State.init drainedRun).map
      (fun s => (s.pc, s.calls.map Call.pc)) =
        some (.closed, [.returned (.posted 0), .returned (.replied (-1000))]) by decide)
  obtain ⟨r, hall, hact, htake, hend⟩ := System.exists_run_restrict (M := queue 2) rfl ht
  have h14 : (((queue 2).restrict (shutdownStep 2)).exec State.init (drainedRun.take 14)).map
      (fun s => (s.pc, s.accepted, s.callArgs 1, s.callPc 1)) =
        some (.draining, [0, 1], some (sendMsg 1000 1 2), some .written) := by decide
  rw [htake 14] at h14
  simp only [Option.map_some, Option.some.injEq, Prod.mk.injEq] at h14 hobs
  obtain ⟨hpc, hacc, hargs, hwr⟩ := h14
  have hclosing : Closing 1 (r.state 14) :=
    ⟨by rw [hpc]; rfl, by simp [hacc], _, hargs, rfl⟩
  have hcalls : ∀ d, t.callPc d = some .written ∨ t.callPc d = some .woken → False := by
    intro d hd
    have hget : t.callPc d = (t.calls.map Call.pc)[d]? := by simp [State.callPc]
    rw [hget, hobs.2] at hd
    rcases d with _ | _ | d <;> simp at hd
  have hfair : ∀ a, ClosingAction 1 a → r.Fair a := by
    intro a ha
    refine System.Run.Fair.of_disabled (k := drainedRun.length) (fun n hn => ?_)
    rw [hend n hn]
    rcases ha with ha | ⟨d, rfl⟩
    · simp only [List.mem_cons, List.not_mem_nil, or_false] at ha
      rcases ha with rfl | rfl | rfl | rfl | rfl | rfl
      · simp [queue, Task.step, hobs.1]
      · simp [queue, Task.step, hobs.1]
      · simp [queue, Task.step, hobs.1]
      · simp [queue, Task.step, hobs.1]
      · simp [queue, Task.step, hobs.1]
      · have hw : t.callPc 1 ≠ some .woken := fun h => hcalls 1 (.inr h)
        simp [queue, Task.step, hw]
    · have hw : t.callPc d ≠ some .written := fun h => hcalls d (.inl h)
      simp [queue, Task.step, hw]
  exact ⟨r, hclosing, hwr, sendEdMsg_shutdown.1 _ (hall.reaches 14),
    sendEdMsg_shutdown.2 r 1 hall hfair 14 hclosing⟩

/-- A call that appends its message just before `closeMsg`, and writes after it. -/
def lateWriteRun : List Action :=
  [.initMsg 5, .call (postMsg EDM_EXIT 0 0), .call (sendMsg 1000 1 2), .enter 0, .msgevent_cb,
    .popMsg, .branch, .checkSync, .recycle, .endLoop, .leaveLoop, .enter 1, .closeMsg, .write 1]

theorem not_sendEdMsg_shutdown : ¬ ∀ (N : Int) (s : State), (queue N).Reachable s →
    ShutdownSafe s := by
  intro h
  obtain ⟨s, hr, hs⟩ := System.exists_of_exec (M := queue 2) rfl
    (show ((queue 2).exec State.init lateWriteRun).map (fun s => s.calls[1]?) =
      some (some ⟨sendMsg 1000 1 2, .returned .sendError, 0, none⟩) by decide)
  exact (h 2 s hr).noError _ (List.mem_of_getElem? hs) rfl

end EdNio.Task
