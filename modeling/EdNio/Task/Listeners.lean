import EdNio.Task.Steps

/-!
# Listeners of message queues

`dispatchMsgs` calls the listener of a queue through a pointer to its entry of `gViewMap`,
after it has unlocked the mutex of the map.
-/

namespace EdNio.Task
open Transition

/-- The handle of the entry that `pinfo` points to. -/
def TaskPc.pinfo : TaskPc → Option UInt32
  | .hand _ _ (.found pinfo) => pinfo
  | .hand _ _ (.running (.listener h)) => some h
  | _ => none

/-- The queue, and whether the entry that `pinfo` points to has been erased since it was
found. -/
structure Viewed where
  queue : State
  erased : Bool

def Viewed.erases (x : Viewed) : Action → Bool
  | .branch => false
  | .destroyTaskMsgQue handle => x.erased || x.queue.pc.pinfo == some handle
  | _ => x.erased

def views (mMaxMsqQueSize : Int) : System Viewed Action where
  init x := x.queue = State.init ∧ x.erased = false
  step x a := (step mMaxMsqQueSize x.queue a).map (fun t => ⟨t, x.erases a⟩)

/-- While a listener is called its queue is not destroyed. -/
def CalledInMap (x : Viewed) : Prop :=
  ∀ slot left h, x.queue.pc = .hand slot left (.running (.listener h)) →
    (x.queue.gViewMap h).isSome = true ∧ x.erased = false

/-- No queue is destroyed from the lookup of its handle to the end of its listener. -/
def sparesView (x : Viewed) : Action → Bool
  | .destroyTaskMsgQue handle => x.queue.pc.pinfo != some handle
  | _ => true

/-- The pointer that the task thread holds is good. -/
def ViewInv (x : Viewed) : Prop :=
  ∀ h, x.queue.pc.pinfo = some h → (x.queue.gViewMap h).isSome = true ∧ x.erased = false

variable {N : Int} {s s' : State} {a : Action} {x : Viewed}

/-- The pointer comes from the lookup, and only the calls on queues change the map. -/
lemma Step.pinfo (hs : Step N s a s') :
    (a = .branch ∧ s'.gViewMap = s.gViewMap ∧
      ∀ h, s'.pc.pinfo = some h → (s.gViewMap h).isSome = true) ∨
    (a ≠ .branch ∧ (s'.pc.pinfo = none ∨ s'.pc.pinfo = s.pc.pinfo) ∧
      ∀ h, (s.gViewMap h).isSome = true → a ≠ .destroyTaskMsgQue h →
        (s'.gViewMap h).isSome = true) := by
  cases hs with
  | exitMsg slot left => exact .inl ⟨rfl, rfl, by simp [TaskPc.pinfo]⟩
  | onEventProc slot left => exact .inl ⟨rfl, rfl, by simp [TaskPc.pinfo, State.deliver]⟩
  | find slot left pinfo _ _ _ hv =>
    refine .inl ⟨rfl, rfl, fun h hh => ?_⟩
    rcases hv with ⟨rfl, hv⟩ | ⟨rfl, -⟩
    · obtain rfl := Option.some.inj hh
      exact hv
    · cases hh
  | createTaskMsgQue pTask lis =>
    refine .inr ⟨by simp, .inr rfl, fun h hh _ => ?_⟩
    by_cases hn : h = s.nextHandle
    · simp [State.createTaskMsgQue, hn]
    · simpa [State.createTaskMsgQue, hn] using hh
  | destroyTaskMsgQue handle =>
    refine .inr ⟨by simp, .inr rfl, fun h hh hne => ?_⟩
    have hne' : h ≠ handle := by
      rintro rfl
      exact hne rfl
    simpa [State.destroyTaskMsgQue, hne'] using hh
  | invoke slot left h hpc =>
    exact .inr ⟨by simp, .inr (by simp [State.deliver, TaskPc.pinfo, hpc]), fun _ hh _ => hh⟩
  | setSendMsgResult slot left t code hpc => exact .inr ⟨by simp, .inr rfl, fun _ hh _ => hh⟩
  | editMsg slot left t v hpc => exact .inr ⟨by simp, .inr rfl, fun _ hh _ => hh⟩
  | _ =>
    refine .inr ⟨by simp, ?_, fun _ hh _ => hh⟩
    first
      | exact .inr rfl
      | exact .inl rfl

lemma ViewInv.step (hI : ViewInv x) {y : Viewed} (hok : sparesView x a = true)
    (hs : (views N).step x a = some y) : ViewInv y := by
  obtain ⟨t, ht, rfl⟩ := Option.map_eq_some_iff.mp hs
  intro h hh
  rcases (step_cases ht).pinfo with ⟨rfl, hmap, hview⟩ | ⟨hne, hpinfo, hmap⟩
  · exact ⟨hmap ▸ hview h hh, rfl⟩
  · have hold : x.queue.pc.pinfo = some h := by
      rcases hpinfo with hnone | hsame
      · rw [hnone] at hh
        cases hh
      · rwa [hsame] at hh
    obtain ⟨hsome, herased⟩ := hI h hold
    have hother : a ≠ .destroyTaskMsgQue h := by
      rintro rfl
      simp [sparesView, hold] at hok
    refine ⟨hmap h hsome hother, ?_⟩
    cases a with
    | branch => exact absurd rfl hne
    | destroyTaskMsgQue handle =>
      simp only [sparesView, bne_iff_ne] at hok
      simp [Viewed.erases, herased, hok]
    | _ => exact herased

/-- No listener of a destroyed queue is called, as long as no queue is destroyed from the lookup
of its handle to the end of its listener. -/
theorem called_in_map (hr : (views N).Reaches (fun x a => sparesView x a = true) x) :
    CalledInMap x := by
  have hinv : ViewInv x := by
    refine hr.invariant (I := ViewInv) ?_ (fun _ _ _ _ hI hok hs => hI.step hok hs)
    rintro x ⟨hq, -⟩ h hh
    rw [hq] at hh
    cases hh
  intro slot left h hpc
  exact hinv h (by rw [hpc]; rfl)

/-- A message for a queue that exists, up to the lookup. -/
def lookupRun : List Action :=
  [.initMsg 3, .createTaskMsgQue 0 7, .call (postTaskMsgQue 1 10 0 0), .enter 0, .msgevent_cb,
    .popMsg, .branch]

/-- The listener of the queue, while another queue comes and goes. -/
theorem called_in_map_lookupRun :
    ∃ x, (views 1000).Reaches (fun x a => sparesView x a = true) x ∧
      x.queue.pc = .hand 0 0 (.running (.listener 1)) ∧ CalledInMap x := by
  obtain ⟨x, hr, hx⟩ := System.exists_of_exec_restrict (M := views 1000) (T := sparesView)
    (s := ⟨State.init, false⟩) ⟨rfl, rfl⟩
    (show (((views 1000).restrict sparesView).exec ⟨State.init, false⟩
      (lookupRun ++ [.createTaskMsgQue 0 8, .invoke, .destroyTaskMsgQue 2])).map
        (fun x => x.queue.pc) = some (.hand 0 0 (.running (.listener 1))) by decide +kernel)
  exact ⟨x, hr, hx, called_in_map hr⟩

/-- The queue is destroyed after the lookup, and its listener is called. -/
theorem not_called_in_map : ¬ ∀ x, (views 1000).Reachable x → CalledInMap x := by
  intro h
  obtain ⟨x, hr, hx⟩ := System.exists_of_exec (M := views 1000)
    (f := fun x => (x.queue.pc, x.queue.gViewMap 1)) (s := ⟨State.init, false⟩) ⟨rfl, rfl⟩
    (show ((views 1000).exec ⟨State.init, false⟩
      (lookupRun ++ [.destroyTaskMsgQue 1, .invoke])).map
        (fun x => (x.queue.pc, x.queue.gViewMap 1)) =
      some (.hand 0 0 (.running (.listener 1)), none) by decide +kernel)
  obtain ⟨hpc, hmap⟩ := Prod.mk.inj hx
  have hin := (h x hr 0 0 1 hpc).1
  rw [hmap] at hin
  cases hin

end EdNio.Task
