import EdNio.Library.WaitsFor
import EdNio.Task.Driver
import EdNio.Task.Startup

/-!
# Tasks that send messages to one another

Any number of tasks, each with its queue. The code that runs on the thread of a task (a
handler, the callback of another event, the `EDM_CLOSE` handler) may call `postEdMsg` or
`sendEdMsg` of any task, and the thread does nothing else until the call returns. Tasks
whose synchronous sends form a cycle are stuck for good, and only those tasks are, and the
tasks that wait for them.
-/

namespace EdNio.Task
open Transition WaitsFor

variable {ι : Type}

/-- `calling i` is the call that the code on the thread of task `i` is in: the task it was
made on and its number there. -/
structure Tasks (ι : Type) where
  task : ι → State
  calling : ι → Option (ι × CallId)

/-- `step i` is a step of task `i` or of a call made on it, `call i j` the call that the code on
the thread of `i` makes on `j`, `leave i` its return. `gViewMap` belongs to all tasks. -/
inductive TasksAction (ι : Type)
  | step (i : ι) (a : Action)
  | call (i j : ι) (a : CallArgs)
  | leave (i : ι)
  | createTaskMsgQue (pTask lis : Nat)
  | destroyTaskMsgQue (handle : UInt32)

/-- The step is one on `gViewMap`. -/
def Action.onViews : Action → Bool
  | .createTaskMsgQue _ _ | .destroyTaskMsgQue _ => true
  | _ => false

/-- The thread of the task is in code of the user. In the state `idle` this is the callback of
another event, in `exited` the handler of `EDM_CLOSE`. -/
def TaskPc.userCode : TaskPc → Bool
  | .idle | .exited | .hand _ _ (.running _) => true
  | _ => false

section Model

variable [DecidableEq ι] (mMaxMsqQueSize : ι → Int)

def tasksStep (x : Tasks ι) : TasksAction ι → Option (Tasks ι)
  | .step i a =>
    if a.onViews || (a.byTask && (x.calling i).isSome) then none
    else (step (mMaxMsqQueSize i) (x.task i) a).map
      (fun s => { x with task := Function.update x.task i s })
  | .call i j a =>
    if (x.task i).pc.userCode && (x.calling i).isNone then
      let s := x.task j
      some {
        task := Function.update x.task j { s with calls := s.calls ++ [⟨a, .called, 0, none⟩] }
        calling := Function.update x.calling i (some (j, s.calls.length)) }
    else none
  | .leave i =>
    match x.calling i with
    | some (j, c) =>
      match (x.task j).callPc c with
      | some (.returned _) => some { x with calling := Function.update x.calling i none }
      | _ => none
    | none => none
  | .createTaskMsgQue pTask lis =>
    some { x with task := fun i => (x.task i).createTaskMsgQue pTask lis }
  | .destroyTaskMsgQue handle =>
    some { x with task := fun i => (x.task i).destroyTaskMsgQue handle }

def tasks : System (Tasks ι) (TasksAction ι) where
  init x := x = ⟨fun _ => State.init, fun _ => none⟩
  step := tasksStep mMaxMsqQueSize

end Model

/-- `cv.wait` returns only when notified, and no call is before its write when the `closeMsg` of
its task begins. -/
def calmTasks (x : Tasks ι) : TasksAction ι → Prop
  | .step i a => (calm a && quietClose (x.task i) a) = true
  | _ => True

/-- A new call. -/
def Action.isCall : Action → Bool
  | .call _ => true
  | _ => false

/-- `calmTasks`, for the calls that have been made: nobody makes a new one. -/
def goesOn (x : Tasks ι) : TasksAction ι → Prop
  | .step i a => (calm a && quietClose (x.task i) a) = true ∧ a.isCall = false
  | .leave _ => True
  | _ => False

lemma goesOn.calm {x : Tasks ι} {a : TasksAction ι} (h : goesOn x a) : calmTasks x a := by
  cases a with
  | step i a => exact h.1
  | _ => trivial

/-- Call `c` stands where `P` holds. -/
def State.At (s : State) (P : CallPc → Prop) (c : CallId) : Prop :=
  ∃ p, s.callPc c = some p ∧ P p

/-- A call of `sendEdMsg` whose message is queued and that was not woken. -/
def CallPc.unwoken : CallPc → Prop
  | .pushed | .written | .waiting => True
  | _ => False

/-- A call that was woken or has returned. -/
def CallPc.settled : CallPc → Prop
  | .woken | .returned _ => True
  | _ => False

instance (x : Tasks ι) : (a : TasksAction ι) → Decidable (calmTasks x a)
  | .step i a => inferInstanceAs (Decidable ((calm a && quietClose (x.task i) a) = true))
  | .call _ _ _ | .leave _ | .createTaskMsgQue _ _ | .destroyTaskMsgQue _ =>
    inferInstanceAs (Decidable True)

/-- Task `i` waits in `sendEdMsg` until the thread of `j` has handled its message. -/
def Tasks.Waits (x : Tasks ι) (i j : ι) : Prop :=
  ∃ c, x.calling i = some (j, c) ∧ (x.task j).At CallPc.unwoken c

/-- Task `i` is in a call of `sendEdMsg` on `j` that was not woken. -/
def Tasks.Sends (x : Tasks ι) (i j : ι) : Prop :=
  ∃ c k, x.calling i = some (j, c) ∧ (x.task j).calls[c]? = some k ∧ k.args.api = .sendEdMsg ∧
    ¬ CallPc.settled k.pc

lemma TaskPc.userCode_spec {pc : TaskPc} (h : pc.userCode = true) :
    pc = .idle ∨ pc = .exited ∨ ∃ slot left target, pc = .hand slot left (.running target) := by
  unfold TaskPc.userCode at h
  split at h <;> simp_all

section Queue

variable {N : Int} {s t : State} {a : Action} {c d : CallId} {P : CallPc → Prop} {f : Call → Call}

lemma State.At.of_calls (h : s.At P c) (hcalls : t.calls = s.calls) : t.At P c := by
  simpa only [State.At, State.callPc, hcalls] using h

lemma State.At.append (h : s.At P c) {k : Call} (hcalls : t.calls = s.calls ++ [k]) : t.At P c := by
  obtain ⟨p, hp, hP⟩ := h
  obtain ⟨k', hk', rfl⟩ := callPc_eq hp
  have hlt := (List.getElem?_eq_some_iff.mp hk').1
  exact ⟨k'.pc, by simp [State.callPc, hcalls, List.getElem?_append_left hlt, hk'], hP⟩

lemma State.At.modify (h : s.At P c) (hcalls : t.calls = s.calls.modify d f)
    (hf : ∀ k, s.calls[d]? = some k → P k.pc → P (f k).pc) : t.At P c := by
  obtain ⟨p, hp, hP⟩ := h
  obtain ⟨k, hk, rfl⟩ := callPc_eq hp
  by_cases hd : d = c
  · subst hd
    exact ⟨(f k).pc, by simp [State.callPc, hcalls, hk], hf k hk hP⟩
  · exact ⟨k.pc, by simp [State.callPc, hcalls, hd, hk], hP⟩

lemma setSendMsgResult_at (h : s.At P c) (slot : Slot) (code : Int) :
    (s.setSendMsgResult slot code).At P c := by
  unfold State.setSendMsgResult
  by_cases hs : (s.msg slot).sync = 0
  · exact h.of_calls (by simp [hs])
  · cases hr : (s.msg slot).psend_result with
    | none => exact h.of_calls (by simp [hs])
    | some e =>
      exact h.modify (d := e) (f := fun k => { k with result := code }) (by simp [hs])
        (fun _ _ h => h)

/-- While the thread of an open task stands still, nobody wakes a sender. -/
lemma Step.unwoken (h : Step N s a t) (ha : a.byTask = false) (hcalm : calm a = true)
    (hfd : 0 ≤ s.mMsgFd) (hc : s.At CallPc.unwoken c) : t.At CallPc.unwoken c := by
  cases h with
  | call => exact hc.append rfl
  | initMsg | createTaskMsgQue | destroyTaskMsgQue => exact hc.of_calls rfl
  | refused d k hk hpc | queueFull d k hk hpc | posted d k slot m empty fresh hk hpc =>
    refine hc.modify rfl (fun k' hk' hu => ?_)
    obtain rfl := Option.some.inj (hk.symm.trans hk')
    simp [hpc, CallPc.unwoken] at hu
  | pushed => exact hc.modify rfl (fun _ _ _ => trivial)
  | write => exact hc.modify rfl (fun _ _ _ => trivial)
  | writeFails d hpc hneg => exact absurd hfd (Int.not_le.mpr hneg)
  | wait => exact hc.modify rfl (fun _ _ _ => trivial)
  | resume d hpc =>
    refine hc.modify rfl (fun k hk hu => ?_)
    have hw : k.pc = .woken := by simpa [State.callPc, hk] using hpc
    simp [hw, CallPc.unwoken] at hu
  | spuriousWake => simp [calm] at hcalm
  | _ => simp [Action.byTask] at ha

lemma Call.wake_settled {k : Call} (h : CallPc.settled k.pc) : CallPc.settled k.wake.pc := by
  unfold Call.wake
  split
  · trivial
  · exact h

lemma Step.settled (h : Step N s a t) (hc : s.At CallPc.settled c) : t.At CallPc.settled c := by
  cases h with
  | call => exact hc.append rfl
  | refused | queueFull | posted | resume | writeFails => exact hc.modify rfl (fun _ _ _ => trivial)
  | pushed d k slot m empty fresh hk hpc =>
    refine hc.modify rfl (fun k' hk' hu => ?_)
    obtain rfl := Option.some.inj (hk.symm.trans hk')
    simp [hpc, CallPc.settled] at hu
  | write d hpc | wait d hpc =>
    refine hc.modify rfl (fun k hk hu => ?_)
    have hw := hpc
    simp only [State.callPc, hk, Option.map_some, Option.some.injEq] at hw
    simp [hw, CallPc.settled] at hu
  | spuriousWake | notify => exact hc.modify rfl (fun _ _ h => Call.wake_settled h)
  | lockMtx | unlockMtx | drainLock | drainUnlock => exact hc.modify rfl (fun _ _ h => h)
  | drainNotify slot d e =>
    have h1 : State.At { s with calls := s.calls.modify d (fun k => { k with result := -1000 }) }
      CallPc.settled c := hc.modify rfl (fun _ _ h => h)
    exact h1.modify rfl (fun _ _ h => Call.wake_settled h)
  | setSendMsgResult slot left target code => exact setSendMsgResult_at hc slot code
  | _ => exact hc.of_calls rfl

/-- The thread of a task in user code stays there while others take their steps. -/
lemma Step.userCode (h : Step N s a t) (ha : a.byTask = false) (hu : s.pc.userCode = true) :
    t.pc = s.pc := by
  cases h with
  | initMsg fd hpc => simp [hpc, TaskPc.userCode] at hu
  | call | refused | queueFull | posted | pushed | write | writeFails | wait | spuriousWake
  | resume | createTaskMsgQue | destroyTaskMsgQue => rfl
  | _ => simp [Action.byTask] at ha

lemma Step.length_calls (h : Step N s a t) (hc : c < s.calls.length) : c < t.calls.length := by
  have hk := h.callArgs (show s.callArgs c = some s.calls[c].args by simp [State.callArgs, hc])
  obtain ⟨k, hk, -⟩ := Option.map_eq_some_iff.mp hk
  exact (List.getElem?_eq_some_iff.mp hk).1

/-- In a task whose thread is in user code, a `postEdMsg` and a call that was woken return
without a step of the thread. -/
lemma SyncRun.returns_at_once (h : SyncRun N s) (hu : s.pc.userCode = true) {k : Call}
    (hk : s.calls[c]? = some k) (hc : k.args.api = .postEdMsg ∨ CallPc.settled k.pc) :
    ∃ t o, (queue N).LeadsBy (fun _ a => a = .enter c ∨ a = .resume c) s t ∧
      t.callPc c = some (.returned o) := by
  have hcall : s.callPc c = some k.pc := by simp [State.callPc, hk]
  have hp := (sync_inv h).phase c k hk
  have hn : ¬ s.Notified c := by
    rcases TaskPc.userCode_spec hu with hpc | hpc | ⟨slot, left, target, hpc⟩ <;>
      simp [State.Notified, TaskPc.notified, hpc]
  cases hpc : k.pc with
  | returned o => exact ⟨s, o, .refl, by rw [hcall, hpc]⟩
  | woken =>
    simp only [State.Phase, hpc, hn, false_and, not_false_eq_true, true_and, false_or] at hp
    have hstep : (queue N).step s (.resume c) =
        some (s.updCall c (fun k => k.leave (.replied k.result))) := by
      simp [queue, step, hcall, hpc, State.callMtx, hk, hp.2.2.2.2]
    refine ⟨_, .replied k.result, .single (.inr rfl) hstep, ?_⟩
    simp [State.callPc, State.updCall, hk, Call.leave]
  | called =>
    have hapi : k.args.api = .postEdMsg := by simpa [hpc, CallPc.settled] using hc
    have hm : s.mMsgMutex = false := by
      rw [(reachable_gate h.reachable).mutex]
      rcases TaskPc.userCode_spec hu with hpc | hpc | ⟨slot, left, target, hpc⟩ <;>
        simp [TaskPc.locking, hpc]
    obtain ⟨t, ht⟩ : ∃ t, (queue N).step s (.enter c) = some t := by
      simp [queue, step, hk, hpc, hm, hapi]
    have hen : Step N s (.enter c) t := step_cases ht
    obtain ⟨k', hk', hstart⟩ := hen.entered
    have hapi' : k'.args.api = .postEdMsg := by
      have hb := hen.callArgs (show s.callArgs c = some k.args by simp [State.callArgs, hk])
      rw [callArgs_eq hk' hb]
      exact hapi
    have hp' := (sync_inv (.step h rfl ht)).phase c k' hk'
    have hcall' : t.callPc c = some k'.pc := by simp [State.callPc, hk']
    cases hpc' : k'.pc with
    | returned o => exact ⟨t, o, .single (.inl rfl) ht, by rw [hcall', hpc']⟩
    | called => exact absurd hpc' hstart
    | _ => simp [State.Phase, hpc', hapi'] at hp'
  | _ => simp_all [State.Phase, CallPc.settled]

end Queue

section Tasks

variable [DecidableEq ι] {N : ι → Int} {x y : Tasks ι} {a : TasksAction ι} {i j : ι} {c : CallId}

/-- What a step does to task `k`: nothing, or a step of its queue, which is one of its thread only
while that is in no call. -/
lemma tasks_task (h : (tasks N).step x a = some y) (k : ι) : y.task k = x.task k ∨
    ∃ b, (queue (N k)).step (x.task k) b = some (y.task k) ∧
      (b.byTask = true → x.calling k = none ∧ a = .step k b) ∧
      (calmTasks x a → (calm b && quietClose (x.task k) b) = true) := by
  cases a with
  | step i b =>
    simp only [tasks, tasksStep] at h
    split at h
    · cases h
    · rename_i hg
      obtain ⟨s, hs, rfl⟩ := Option.map_eq_some_iff.mp h
      by_cases hk : k = i
      · subst hk
        refine .inr ⟨b, by simpa [queue] using hs, fun hb => ⟨?_, rfl⟩, fun hcalm => hcalm⟩
        simp only [hb, Bool.true_and, Bool.or_eq_true, not_or, Bool.not_eq_true,
          Option.isSome_eq_false_iff, Option.isNone_iff_eq_none] at hg
        exact hg.2
      · exact .inl (by simp [hk])
  | call i j b =>
    simp only [tasks, tasksStep, Option.ite_none_right_eq_some, Option.some.injEq] at h
    obtain ⟨-, rfl⟩ := h
    by_cases hk : k = j
    · subst hk
      exact .inr ⟨.call b, by simp [queue, step], by simp [Action.byTask], fun _ => rfl⟩
    · exact .inl (by simp [hk])
  | leave i =>
    simp only [tasks, tasksStep] at h
    split at h
    · split at h
      · obtain rfl := Option.some.inj h
        exact .inl rfl
      · cases h
    · cases h
  | createTaskMsgQue pTask lis =>
    obtain rfl := Option.some.inj h
    exact .inr ⟨.createTaskMsgQue pTask lis, rfl, by simp [Action.byTask], fun _ => rfl⟩
  | destroyTaskMsgQue handle =>
    obtain rfl := Option.some.inj h
    exact .inr ⟨.destroyTaskMsgQue handle, rfl, by simp [Action.byTask], fun _ => rfl⟩

/-- Each task of a run goes through a run of its queue. -/
theorem tasks_reachable (h : (tasks N).Reachable x) (k : ι) :
    (queue (N k)).Reachable (x.task k) := by
  refine h.project (f := fun x => x.task k) (fun x h0 => ?_) (fun x a y _ _ hs => ?_)
  · rw [show x = ⟨fun _ => State.init, fun _ => none⟩ from h0]
    rfl
  · rcases tasks_task hs k with heq | ⟨b, hb, -, -⟩
    · exact .inl heq
    · exact .inr ⟨b, trivial, hb⟩

theorem tasks_syncRun (h : (tasks N).Reaches calmTasks x) (k : ι) : SyncRun (N k) (x.task k) := by
  refine h.project (f := fun x => x.task k) (fun x h0 => ?_) (fun x a y _ hok hs => ?_)
  · rw [show x = ⟨fun _ => State.init, fun _ => none⟩ from h0]
    rfl
  · rcases tasks_task hs k with heq | ⟨b, hb, -, hcalm⟩
    · exact .inl heq
    · exact .inr ⟨b, hcalm hok, hb⟩

lemma tasks_calling (h : (tasks N).step x a = some y) (k : ι) : y.calling k = x.calling k ∨
    (y.calling k = none ∧ ∃ j c, x.calling k = some (j, c) ∧ (x.task j).At CallPc.settled c) ∨
    (x.calling k = none ∧ (x.task k).pc.userCode = true ∧ ∃ j b, a = .call k j b ∧
      y.calling k = some (j, (x.task j).calls.length) ∧
      (y.task j).calls = (x.task j).calls ++ [⟨b, .called, 0, none⟩]) := by
  cases a with
  | step i b =>
    simp only [tasks, tasksStep] at h
    split at h
    · cases h
    · obtain ⟨s, hs, rfl⟩ := Option.map_eq_some_iff.mp h
      exact .inl rfl
  | call i j b =>
    simp only [tasks, tasksStep, Option.ite_none_right_eq_some, Option.some.injEq] at h
    obtain ⟨hg, rfl⟩ := h
    by_cases hk : k = i
    · subst hk
      have hg := Bool.and_eq_true_iff.mp hg
      exact .inr (.inr ⟨by simpa using hg.2, hg.1, j, b, rfl, by simp, by simp⟩)
    · exact .inl (by simp [hk])
  | leave i =>
    simp only [tasks, tasksStep] at h
    split at h
    · rename_i j c hc
      split at h
      · rename_i o ho
        obtain rfl := Option.some.inj h
        by_cases hk : k = i
        · subst hk
          exact .inr (.inl ⟨by simp, j, c, hc, _, ho, trivial⟩)
        · exact .inl (by simp [hk])
      · cases h
    · cases h
  | createTaskMsgQue pTask lis =>
    obtain rfl := Option.some.inj h
    exact .inl rfl
  | destroyTaskMsgQue handle =>
    obtain rfl := Option.some.inj h
    exact .inl rfl

/-- The thread of a task in user code stays where it is unless it takes the step. -/
lemma tasks_userCode (h : (tasks N).step x a = some y) {k : ι}
    (hu : (x.task k).pc.userCode = true) (hne : (x.calling k).isSome = true ∨ ∀ b, a ≠ .step k b) :
    (y.task k).pc = (x.task k).pc := by
  rcases tasks_task h k with heq | ⟨b, hb, hby, -⟩
  · rw [heq]
  · refine (step_cases hb).userCode (Bool.eq_false_iff.mpr (fun hb' => ?_)) hu
    obtain ⟨hnone, rfl⟩ := hby hb'
    rcases hne with hsome | hne
    · simp [hnone] at hsome
    · exact hne b rfl

lemma calling_inv (h : (tasks N).Reachable x) : ∀ i j c, x.calling i = some (j, c) →
    (x.task i).pc.userCode = true ∧ c < (x.task j).calls.length := by
  refine h.invariant (I := fun x => ∀ i j c, x.calling i = some (j, c) →
    (x.task i).pc.userCode = true ∧ c < (x.task j).calls.length) (fun x h0 i j c hc => ?_)
    (fun x a y _ hI _ hs i j c hc => ?_)
  · rw [show x = ⟨fun _ => State.init, fun _ => none⟩ from h0] at hc
    cases hc
  rcases tasks_calling hs i with heq | ⟨hnone, -⟩ | ⟨-, hu, k, b, rfl, hnew, hcalls⟩
  · rw [heq] at hc
    obtain ⟨hu, hlt⟩ := hI i j c hc
    refine ⟨by rw [tasks_userCode hs hu (.inl (by simp [hc]))]; exact hu, ?_⟩
    rcases tasks_task hs j with heq | ⟨b, hb, -, -⟩
    · rw [heq]
      exact hlt
    · exact (step_cases hb).length_calls hlt
  · rw [hnone] at hc
    cases hc
  · rw [hnew, Option.some.injEq, Prod.mk.injEq] at hc
    obtain ⟨rfl, rfl⟩ := hc
    refine ⟨?_, by simp [hcalls]⟩
    rw [tasks_userCode hs hu (.inr (by simp))]
    exact hu

lemma waits_kept (h : (tasks N).Reaches calmTasks x) (hok : calmTasks x a)
    (hs : (tasks N).step x a = some y) (hij : x.Waits i j) (hj : (x.calling j).isSome = true) :
    y.Waits i j := by
  obtain ⟨c, hc, hat⟩ := hij
  have hold : y.calling i = some (j, c) := by
    rcases tasks_calling hs i with heq | ⟨-, j', c', hc', hset⟩ | ⟨hnone, -⟩
    · rw [heq, hc]
    · rw [hc, Option.some.injEq, Prod.mk.injEq] at hc'
      obtain ⟨rfl, rfl⟩ := hc'
      obtain ⟨p, hp, hu⟩ := hat
      obtain ⟨q, hq, hset⟩ := hset
      rw [hp, Option.some.injEq] at hq
      subst hq
      cases p <;> simp [CallPc.unwoken, CallPc.settled] at hu hset
    · rw [hnone] at hc
      cases hc
  refine ⟨c, hold, ?_⟩
  rcases tasks_task hs j with heq | ⟨b, hb, hby, hcalm⟩
  · rw [heq]
    exact hat
  obtain ⟨⟨k, d⟩, hk⟩ := Option.isSome_iff_exists.mp hj
  have hu := (calling_inv h.reachable j k d hk).1
  have hG := reachable_gate (tasks_reachable h.reachable j)
  have hfd : 0 ≤ (x.task j).mMsgFd := by
    rcases TaskPc.userCode_spec hu with hpc | hpc | ⟨slot, left, target, hpc⟩ <;>
      exact hG.alive (by simp [hpc]) (by simp [hpc, TaskPc.closing])
  refine (step_cases hb).unwoken ?_ (Bool.and_eq_true_iff.mp (hcalm hok)).1 hfd hat
  refine Bool.eq_false_iff.mpr (fun hb' => ?_)
  simp [(hby hb').1] at hj

/-- A task whose waits end in a cycle never gets out of its call. -/
theorem deadlock_stays [Finite ι] (h : (tasks N).Reaches calmTasks x) (hd : Deadlocked x.Waits i)
    (hl : (tasks N).LeadsBy calmTasks x y) : Deadlocked y.Waits i := by
  induction hl with
  | refl => exact hd
  | step hl hok hs ih =>
    refine ih.of_kept (fun k j hkj hj => waits_kept (h.leadsBy hl) hok hs hkj ?_)
    obtain ⟨l, ⟨c, hc, -⟩, -⟩ := hj.waits
    simp [hc]

/-- A run of one queue is a run of the tasks if its thread is free for its own steps. -/
lemma tasks_lift {ok : State → Action → Prop} {s : State}
    (hok : ∀ s a, ok s a → (calm a && quietClose s a) = true ∧ a.isCall = false ∧
      a.onViews = false ∧ (a.byTask = true → x.calling j = none))
    (hl : (queue (N j)).LeadsBy ok (x.task j) s) :
    (tasks N).LeadsBy goesOn x { x with task := Function.update x.task j s } := by
  induction hl with
  | refl =>
    rw [Function.update_eq_self]
    exact .refl
  | @step t u a _ ha hs ih =>
    obtain ⟨hcalm, hcall, hview, hby⟩ := hok t a ha
    refine .step ih (a := .step j a) ⟨by simpa using hcalm, hcall⟩ ?_
    have hg : ¬ (a.onViews || (a.byTask && (x.calling j).isSome)) = true := by
      cases hb : a.byTask with
      | false => simp [hview]
      | true => simp [hview, hby hb]
    have hs' : step (N j) t a = some u := hs
    simp [tasks, tasksStep, hg, hs']

/-- The call that task `i` is in has returned, so the task gets out of it. -/
lemma leaves (hc : x.calling i = some (j, c)) {o : Outcome}
    (ho : (x.task j).callPc c = some (.returned o)) :
    (tasks N).step x (.leave i) = some { x with calling := Function.update x.calling i none } := by
  simp [tasks, tasksStep, hc, ho]

/-- If the call of task `i` can return, the task gets out of it, and no other task changes its
call. -/
lemma gets_out_of {ok : State → Action → Prop} (hc : x.calling i = some (j, c))
    (hok : ∀ s a, ok s a → (calm a && quietClose s a) = true ∧ a.isCall = false ∧
      a.onViews = false ∧ (a.byTask = true → x.calling j = none))
    (hr : ∃ s o, (queue (N j)).LeadsBy ok (x.task j) s ∧ s.callPc c = some (.returned o)) :
    ∃ y, (tasks N).LeadsBy goesOn x y ∧ y.calling = Function.update x.calling i none := by
  obtain ⟨s, o, hl, ho⟩ := hr
  have hleave := leaves (N := N) (x := { x with task := Function.update x.task j s }) hc
    (by simpa using ho)
  exact ⟨_, .step (tasks_lift hok hl) (show goesOn _ (.leave i) from trivial) hleave, rfl⟩

lemma settled_stays (hl : (tasks N).LeadsBy calmTasks x y) (hc : (x.task j).At CallPc.settled c) :
    (y.task j).At CallPc.settled c := by
  refine hl.invariant (I := fun y => (y.task j).At CallPc.settled c) hc (fun y a z hy _ hs => ?_)
  rcases tasks_task hs j with heq | ⟨b, hb, -, -⟩
  · rw [heq]
    exact hy
  · exact (step_cases hb).settled hy

lemma callArgs_stays {b : CallArgs} (hl : (tasks N).LeadsBy calmTasks x y)
    (hc : (x.task j).callArgs c = some b) : (y.task j).callArgs c = some b := by
  refine hl.invariant (I := fun y => (y.task j).callArgs c = some b) hc (fun y a z hy _ hs => ?_)
  rcases tasks_task hs j with heq | ⟨b, hb, -, -⟩
  · rw [heq]
    exact hy
  · exact (step_cases hb).callArgs hy

/-- No task of `y` is in another call than in `x`. -/
def Tasks.Fewer (y x : Tasks ι) : Prop :=
  ∀ k, y.calling k = x.calling k ∨ y.calling k = none

omit [DecidableEq ι] in
lemma Tasks.Fewer.trans {z : Tasks ι} (h : z.Fewer y) (h' : y.Fewer x) : z.Fewer x := by
  intro k
  rcases h k with hk | hk
  · rw [hk]
    exact h' k
  · exact .inr hk

lemma fewer_update (h : y.calling = Function.update x.calling i none) :
    y.calling i = none ∧ y.Fewer x := by
  refine ⟨by simp [h], fun k => ?_⟩
  by_cases hk : k = i
  · exact .inr (by simp [h, hk])
  · exact .inl (by rw [h, Function.update_of_ne hk])

lemma gets_out_free (hN : ∀ i, N i < 2 ^ 31 - 1) (h : (tasks N).Reaches calmTasks x)
    (hc : x.calling i = some (j, c)) (hj : x.calling j = none) :
    ∃ y, (tasks N).LeadsBy goesOn x y ∧ y.calling i = none ∧ y.Fewer x := by
  have hserves : ∀ s a, serves c s a → (calm a && quietClose s a) = true ∧ a.isCall = false ∧
      a.onViews = false ∧ (a.byTask = true → x.calling j = none) := by
    refine fun s a ha => ⟨ha.sync, ?_, ?_, fun _ => hj⟩
    · rcases ha.1 with hd | rfl | rfl <;>
        first | rfl | (cases a <;> simp_all [driving, Action.isCall])
    · rcases ha.1 with hd | rfl | rfl <;>
        first | rfl | (cases a <;> simp_all [driving, Action.onViews])
  obtain ⟨y, hl, hy⟩ := gets_out_of hc hserves
    (SyncRun.returns (hN j) (tasks_syncRun h j) (calling_inv h.reachable i j c hc).2)
  exact ⟨y, hl, fewer_update hy⟩

/-- The call of a task on one whose thread is in a call, if it needs no step of that thread. -/
lemma gets_out_at_once (h : (tasks N).Reaches calmTasks x) (hc : x.calling i = some (j, c))
    (hj : (x.calling j).isSome = true) (hsend : ¬ x.Sends i j) :
    ∃ y, (tasks N).LeadsBy goesOn x y ∧ y.calling i = none ∧ y.Fewer x := by
  obtain ⟨q, hq⟩ := Option.isSome_iff_exists.mp hj
  have hu := (calling_inv h.reachable j q.1 q.2 hq).1
  have hlt := (calling_inv h.reachable i j c hc).2
  have hk : (x.task j).calls[c]? = some (x.task j).calls[c] := List.getElem?_eq_getElem hlt
  have hset : (x.task j).calls[c].args.api = .postEdMsg ∨
      CallPc.settled (x.task j).calls[c].pc := by
    cases ha : (x.task j).calls[c].args.api with
    | postEdMsg => exact .inl rfl
    | sendEdMsg =>
      right
      by_contra hs
      exact hsend ⟨c, _, hc, hk, ha, hs⟩
  obtain ⟨y, hl, hy⟩ := gets_out_of (N := N) hc
    (fun s a ha => by
      rcases ha with rfl | rfl <;>
        simp [calm, quietClose, Action.isCall, Action.onViews, Action.byTask])
    (SyncRun.returns_at_once (tasks_syncRun h j) hu hk hset)
  exact ⟨y, hl, fewer_update hy⟩

lemma sends_fewer (h : (tasks N).Reaches calmTasks x) (hl : (tasks N).LeadsBy calmTasks x y)
    (hf : y.Fewer x) (hs : y.Sends i j) : x.Sends i j := by
  obtain ⟨c, k, hc, hk, ha, hns⟩ := hs
  have hcx : x.calling i = some (j, c) := by
    rcases hf i with heq | hnone
    · rw [← heq, hc]
    · rw [hnone] at hc
      cases hc
  obtain ⟨k', hk'⟩ : ∃ k', (x.task j).calls[c]? = some k' :=
    ⟨_, List.getElem?_eq_getElem (calling_inv h.reachable i j c hcx).2⟩
  have hb := callArgs_stays hl
    (show (x.task j).callArgs c = some k'.args by simp [State.callArgs, hk'])
  refine ⟨c, k', hcx, hk', callArgs_eq hk hb ▸ ha, fun hset => hns ?_⟩
  obtain ⟨p, hp, hps⟩ := settled_stays (j := j) (c := c) hl
    ⟨k'.pc, by simp [State.callPc, hk'], hset⟩
  rw [State.callPc, hk, Option.map_some, Option.some.injEq] at hp
  exact hp ▸ hps

/-- The tasks that `i` waits for get out of their calls before it, the last one first. -/
lemma gets_out_acc (hN : ∀ i, N i < 2 ^ 31 - 1) (h : (tasks N).Reaches calmTasks x)
    (hacc : Acc (fun j k => x.Sends k j) i) : ∀ y, (tasks N).LeadsBy calmTasks x y → y.Fewer x →
      ∃ z, (tasks N).LeadsBy goesOn y z ∧ z.calling i = none ∧ z.Fewer y := by
  induction hacc with
  | intro i _ ih =>
    intro y hl hf
    have hy := h.leadsBy hl
    cases hc : y.calling i with
    | none => exact ⟨y, .refl, hc, fun _ => .inl rfl⟩
    | some p =>
      obtain ⟨j, c⟩ := p
      by_cases hsend : y.Sends i j
      · -- first the task that `i` waits for
        have hsend' := sends_fewer h hl hf hsend
        obtain ⟨z, hz, hzj, hzf⟩ := ih j hsend' y hl hf
        rcases hzf i with hzi | hzi
        · rw [hc] at hzi
          have hcalm := hy.leadsBy (hz.mono (fun _ _ => goesOn.calm))
          obtain ⟨u, hu, hui, huf⟩ := gets_out_free hN hcalm hzi hzj
          exact ⟨u, hz.trans hu, hui, huf.trans hzf⟩
        · exact ⟨z, hz, hzi, hzf⟩
      · cases hj : y.calling j with
        | none => exact gets_out_free hN hy hc hj
        | some q => exact gets_out_at_once hy hc (by simp [hj]) hsend

theorem gets_out [Finite ι] (hN : ∀ i, N i < 2 ^ 31 - 1) (h : (tasks N).Reaches calmTasks x)
    (hd : ¬ Deadlocked x.Sends i) :
    ∃ y, (tasks N).LeadsBy goesOn x y ∧ y.calling i = none ∧ y.Fewer x :=
  gets_out_acc hN h (acc_of_not_deadlocked hd) x .refl (fun _ => .inl rfl)

/-- Once the calls that tasks are in have passed their sections under `mMsgMutex`, a task can get
out of its call if and only if its waits do not come to a cycle. -/
theorem gets_out_iff [Finite ι] (hN : ∀ i, N i < 2 ^ 31 - 1) (h : (tasks N).Reaches calmTasks x)
    (hentered : ∀ i j c, x.calling i = some (j, c) → (x.task j).callPc c ≠ some .called) (i : ι) :
    (∃ y, (tasks N).LeadsBy calmTasks x y ∧ y.calling i = none) ↔ ¬ Deadlocked x.Waits i := by
  constructor
  · rintro ⟨y, hl, hy⟩ hd
    obtain ⟨j, ⟨c, hc, -⟩, -⟩ := (deadlock_stays h hd hl).waits
    rw [hy] at hc
    cases hc
  · intro hd
    have hd' : ¬ Deadlocked x.Sends i := by
      refine fun hs => hd (hs.of_kept (fun k j hkj _ => ?_))
      obtain ⟨c, k', hc, hk', -, hns⟩ := hkj
      have hpc : (x.task j).callPc c = some k'.pc := by simp [State.callPc, hk']
      refine ⟨c, hc, _, hpc, ?_⟩
      cases hp : k'.pc with
      | called => exact absurd (hp ▸ hpc) (hentered k j c hc)
      | pushed | written | waiting => trivial
      | woken | returned => exact absurd (hp ▸ trivial) hns
    obtain ⟨y, hl, hy, -⟩ := gets_out hN h hd'
    exact ⟨y, hl.mono (fun _ _ => goesOn.calm), hy⟩

/-- A handler of task 0 sends to task 1. -/
def sendRun : List (TasksAction (Fin 2)) :=
  [.step 0 (.initMsg 5), .step 1 (.initMsg 5), .step 0 (.call (postMsg 1000 0 0)),
    .step 0 (.enter 0), .step 0 .msgevent_cb, .step 0 .popMsg, .step 0 .branch,
    .call 0 1 (sendMsg 1001 0 0), .step 1 (.enter 0), .step 1 (.write 0)]

/-- The handler of task 1 sends back. -/
def sendBackRun : List (TasksAction (Fin 2)) :=
  sendRun.append [.step 1 (.wait 0), .step 1 .msgevent_cb, .step 1 .popMsg, .step 1 .branch,
    .call 1 0 (sendMsg 1002 0 0), .step 0 (.enter 1)]

theorem gets_out_iff_sendBack : ∃ x, (tasks (fun _ : Fin 2 => 10)).Reaches calmTasks x ∧
    x.calling 0 = some (1, 0) ∧
    ¬ ∃ y, (tasks (fun _ => 10)).LeadsBy calmTasks x y ∧ y.calling 0 = none := by
  obtain ⟨x, hr, hx⟩ := System.exists_of_exec_restrict (M := tasks (fun _ : Fin 2 => 10))
    (T := fun x a => calmTasks x a) rfl
    (show (((tasks (fun _ : Fin 2 => 10)).restrict (fun x a => calmTasks x a)).exec
      ⟨fun _ => State.init, fun _ => none⟩ sendBackRun).map (fun x =>
        ((x.calling 0, x.calling 1), (x.task 0).callPc 1, (x.task 1).callPc 0)) =
        some ((some (1, 0), some (0, 1)), some .pushed, some .waiting) by decide +kernel)
  simp only [Prod.mk.injEq] at hx
  obtain ⟨⟨h0, h1⟩, hp0, hp1⟩ := hx
  have hr' : (tasks (fun _ : Fin 2 => 10)).Reaches calmTasks x :=
    hr.mono (fun _ _ ha => of_decide_eq_true ha)
  refine ⟨x, hr', h0, fun hy => ?_⟩
  refine (gets_out_iff (fun _ => by decide) hr' ?_ 0).mp hy ?_
  · intro i j c hc
    match i with
    | 0 =>
      rw [h0, Option.some.injEq, Prod.mk.injEq] at hc
      obtain ⟨rfl, rfl⟩ := hc
      simp [hp1]
    | 1 =>
      rw [h1, Option.some.injEq, Prod.mk.injEq] at hc
      obtain ⟨rfl, rfl⟩ := hc
      simp [hp0]
  · exact ⟨0, .refl, .tail (.single ⟨0, h0, _, hp1, trivial⟩) ⟨1, h1, _, hp0, trivial⟩⟩

/-- Synchronous sends go to tasks of a higher rank only. -/
def sendsUp (rank : ι → Nat) : TasksAction ι → Prop
  | .call i j a => a.api = .sendEdMsg → rank i < rank j
  | _ => True

instance (rank : ι → Nat) : (a : TasksAction ι) → Decidable (sendsUp rank a)
  | .call i j a => inferInstanceAs (Decidable (a.api = .sendEdMsg → rank i < rank j))
  | .step _ _ | .leave _ | .createTaskMsgQue _ _ | .destroyTaskMsgQue _ =>
    inferInstanceAs (Decidable True)

lemma sends_rank {rank : ι → Nat}
    (h : (tasks N).Reaches (fun x a => calmTasks x a ∧ sendsUp rank a) x) :
    ∀ i j, x.Sends i j → rank i < rank j := by
  have hI : ∀ i j c b, x.calling i = some (j, c) → (x.task j).callArgs c = some b →
      b.api = .sendEdMsg → rank i < rank j := by
    refine h.invariant (I := fun x => ∀ i j c b, x.calling i = some (j, c) →
      (x.task j).callArgs c = some b → b.api = .sendEdMsg → rank i < rank j)
      (fun x h0 i j c b hc => ?_) (fun x a y hr hI hok hs i j c b hc hb ha => ?_)
    · rw [show x = ⟨fun _ => State.init, fun _ => none⟩ from h0] at hc
      cases hc
    rcases tasks_calling hs i with heq | ⟨hnone, -⟩ | ⟨-, -, k, b', rfl, hnew, hcalls⟩
    · rw [heq] at hc
      have hlt := (calling_inv hr.reachable i j c hc).2
      have hbx : (x.task j).callArgs c = some (x.task j).calls[c].args := by
        simp [State.callArgs, hlt]
      refine hI i j c _ hc hbx ?_
      rcases tasks_task hs j with heq | ⟨b', hb', -, -⟩
      · rw [heq, hbx, Option.some.injEq] at hb
        rw [hb]
        exact ha
      · rw [(step_cases hb').callArgs hbx, Option.some.injEq] at hb
        rw [hb]
        exact ha
    · rw [hnone] at hc
      cases hc
    · rw [hnew, Option.some.injEq, Prod.mk.injEq] at hc
      obtain ⟨rfl, rfl⟩ := hc
      rw [State.callArgs, hcalls, List.getElem?_concat_length, Option.map_some,
        Option.some.injEq] at hb
      subst hb
      exact hok.2 ha
  rintro i j ⟨c, k, hc, hk, ha, -⟩
  exact hI i j c k.args hc (by simp [State.callArgs, hk]) ha

/-- When synchronous sends go to tasks of a higher rank only, every state of a run can go on to
one in which no task is in a call, and no new call is made on the way. -/
theorem all_get_out [Fintype ι] (hN : ∀ i, N i < 2 ^ 31 - 1) {rank : ι → Nat}
    (h : (tasks N).Reaches (fun x a => calmTasks x a ∧ sendsUp rank a) x) :
    ∃ y, (tasks N).LeadsBy goesOn x y ∧ ∀ i, y.calling i = none := by
  have hx : (tasks N).Reaches calmTasks x := h.mono (fun _ _ ha => ha.1)
  have hacc : ∀ i, Acc (fun j k => x.Sends k j) i := fun i =>
    acc_of_not_deadlocked (not_deadlocked_of_rank (sends_rank h))
  -- one task after the other
  have hall : ∀ S : Finset ι, ∃ y, (tasks N).LeadsBy goesOn x y ∧ y.Fewer x ∧
      ∀ i ∈ S, y.calling i = none := by
    intro S
    induction S using Finset.induction_on with
    | empty => exact ⟨x, .refl, fun _ => .inl rfl, by simp⟩
    | insert i S _ ih =>
      obtain ⟨y, hl, hf, hS⟩ := ih
      obtain ⟨z, hz, hi, hzf⟩ := gets_out_acc hN hx (hacc i) y (hl.mono (fun _ _ => goesOn.calm)) hf
      refine ⟨z, hl.trans hz, hzf.trans hf, fun k hk => ?_⟩
      rcases Finset.mem_insert.mp hk with rfl | hk
      · exact hi
      · rcases hzf k with heq | hnone
        · rw [heq, hS k hk]
        · exact hnone
  obtain ⟨y, hl, -, hy⟩ := hall Finset.univ
  exact ⟨y, hl, fun i => hy i (Finset.mem_univ i)⟩

theorem all_get_out_send : ∃ x, (tasks (fun _ : Fin 2 => 10)).Reaches calmTasks x ∧
    x.calling 0 = some (1, 0) ∧
    ∃ y, (tasks (fun _ => 10)).LeadsBy goesOn x y ∧ ∀ i, y.calling i = none := by
  obtain ⟨x, hr, hx⟩ := System.exists_of_exec_restrict (M := tasks (fun _ : Fin 2 => 10))
    (T := fun x a => calmTasks x a ∧ sendsUp Fin.val a) rfl
    (show (((tasks (fun _ : Fin 2 => 10)).restrict (fun x a => calmTasks x a ∧
      sendsUp Fin.val a)).exec ⟨fun _ => State.init, fun _ => none⟩ sendRun).map
        (fun x => x.calling 0) = some (some (1, 0)) by decide +kernel)
  have hr' : (tasks (fun _ : Fin 2 => 10)).Reaches
      (fun x a => calmTasks x a ∧ sendsUp Fin.val a) x :=
    hr.mono (fun _ _ ha => of_decide_eq_true ha)
  exact ⟨x, hr'.mono (fun _ _ ha => ha.1), hx, all_get_out (fun _ => by decide) hr'⟩

end Tasks

end EdNio.Task
