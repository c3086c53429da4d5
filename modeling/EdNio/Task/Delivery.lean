import EdNio.Task.Slots

/-!
# Exactly-once delivery

A message is accepted when its call passes `push_back`, is handled before the next one is
popped, and is dispatched or drained once.
-/

namespace EdNio.Task
open Transition

/-- The call has appended its message. -/
def CallPc.accepted : CallPc → Bool
  | .called => false
  | .returned .refused => false
  | .returned .queueFull => false
  | _ => true

def AcceptedInv (s : State) : Prop :=
  ∀ c, c ∈ s.accepted ↔ ∃ k, s.calls[c]? = some k ∧ k.pc.accepted = true

lemma Call.wake_accepted (k : Call) : k.wake.pc.accepted = k.pc.accepted := by
  unfold Call.wake
  split
  · rename_i h
    rw [h]
    rfl
  · rfl

lemma AcceptedInv.modify {s s' : State} (hI : AcceptedInv s) {d : CallId} {f : Call → Call}
    (hacc : s'.accepted = s.accepted) (hcalls : s'.calls = s.calls.modify d f)
    (hf : ∀ k, s.calls[d]? = some k → (f k).pc.accepted = k.pc.accepted) : AcceptedInv s' := by
  intro c
  rw [hacc, hI c, hcalls]
  by_cases hd : d = c
  · subst hd
    cases hk : s.calls[d]? with
    | none => simp [hk]
    | some k => simp [hk, hf k hk]
  · simp [hd]

lemma AcceptedInv.accept {s s' : State} (hI : AcceptedInv s) {d : CallId} {k : Call}
    {f : Call → Call} (hk : s.calls[d]? = some k) (hacc : s'.accepted = s.accepted ++ [d])
    (hcalls : s'.calls = s.calls.modify d f) (hf : (f k).pc.accepted = true) :
    AcceptedInv s' := by
  intro c
  rw [hacc, List.mem_append, hI c, hcalls, List.mem_singleton]
  by_cases hd : d = c
  · subst hd
    simp [hk, hf]
  · simp [hd, Ne.symm hd]

lemma AcceptedInv.pc {s : State} (hA : AcceptedInv s) {c : CallId} {k : Call}
    (hk : s.calls[c]? = some k) (hacc : c ∈ s.accepted) : k.pc.accepted = true := by
  obtain ⟨k', hk', hac⟩ := (hA c).mp hacc
  rw [hk, Option.some.injEq] at hk'
  exact hk' ▸ hac

lemma callPc_eq {s : State} {c : CallId} {p : CallPc} (h : s.callPc c = some p) :
    ∃ k, s.calls[c]? = some k ∧ k.pc = p :=
  Option.map_eq_some_iff.mp h

theorem AcceptedInv.step {N : Int} {s s' : State} {a : Action} (hI : AcceptedInv s)
    (h : Step N s a s') : AcceptedInv s' := by
  cases h with
  | posted c k slot m empty fresh hk => exact hI.accept hk rfl rfl rfl
  | pushed c k slot m empty fresh hk => exact hI.accept hk rfl rfl rfl
  | call a =>
    intro c
    rw [hI c]
    rcases Nat.lt_trichotomy c s.calls.length with hc | hc | hc
    · simp [List.getElem?_append_left hc]
    · simp [hc, CallPc.accepted]
    · simp [List.getElem?_eq_none (Nat.le_of_lt hc), List.getElem?_append_right (Nat.le_of_lt hc),
        Nat.sub_ne_zero_of_lt hc]
  | refused c k hk hpc | queueFull c k hk hpc =>
    refine hI.modify rfl rfl (fun k' hk' => ?_)
    rw [hk, Option.some.injEq] at hk'
    simp [← hk', hpc, Call.leave, CallPc.accepted]
  | write c hpc | writeFails c hpc | wait c hpc | resume c hpc =>
    refine hI.modify rfl rfl (fun k' hk' => ?_)
    obtain ⟨k, hk, hp⟩ := callPc_eq hpc
    rw [hk, Option.some.injEq] at hk'
    simp [← hk', hp, Call.leave, CallPc.accepted]
  | spuriousWake | notify => exact hI.modify rfl rfl (fun k _ => k.wake_accepted)
  | setSendMsgResult slot left t code hpc =>
    by_cases hs : (s.msg slot).sync = 0
    · simpa [AcceptedInv, State.setSendMsgResult, hs] using hI
    · cases hr : (s.msg slot).psend_result with
      | none => simpa [AcceptedInv, State.setSendMsgResult, hs, hr] using hI
      | some d =>
        refine hI.modify (d := d) (f := fun k => { k with result := code }) rfl ?_
          (fun k _ => rfl)
        simp [State.setSendMsgResult, hs, hr]
  | lockMtx | unlockMtx | drainLock | drainUnlock => exact hI.modify rfl rfl (fun k _ => rfl)
  | drainNotify slot c d hpc hc hd =>
    have h1 : AcceptedInv
        { s with calls := s.calls.modify c (fun k => { k with result := -1000 }) } :=
      hI.modify rfl rfl (fun k _ => rfl)
    exact h1.modify rfl rfl (fun k _ => k.wake_accepted)
  | _ => exact hI

/-- The slot whose message the task thread has popped and not handled yet. -/
def TaskPc.inHandler : TaskPc → List Slot
  | .hand slot _ .popped => [slot]
  | .hand slot _ (.found _) => [slot]
  | .hand slot _ (.running _) => [slot]
  | _ => []

/-- The slot whose handler is running. -/
def TaskPc.running : TaskPc → List Slot
  | .hand slot _ (.running _) => [slot]
  | _ => []

/-- Messages are handled one after the other, each at most once. -/
structure HandlingInv (s : State) : Prop where
  finished : s.dispatched = s.finished ++ s.pc.inHandler.map s.owner
  delivered : (s.delivered.map Delivery.call).Sublist (s.finished ++ s.pc.running.map s.owner)

lemma HandlingInv.frame {s s' : State} (hI : HandlingInv s)
    (heq : s'.dispatched = s.dispatched ∧ s'.finished = s.finished ∧ s'.delivered = s.delivered)
    (hh : s'.pc.inHandler.map s'.owner = s.pc.inHandler.map s.owner)
    (hr : s'.pc.running.map s'.owner = s.pc.running.map s.owner) : HandlingInv s' := by
  obtain ⟨h1, h2, h3⟩ := heq
  constructor
  · rw [h1, h2, hh]
    exact hI.finished
  · rw [h2, h3, hr]
    exact hI.delivered

lemma TaskPc.inHandler_subset {pc : TaskPc} {slot : Slot} (h : slot ∈ pc.inHandler) :
    slot ∈ pc.inHand := by
  unfold TaskPc.inHandler at h
  split at h <;> simp_all [TaskPc.inHand]

lemma TaskPc.running_subset {pc : TaskPc} {slot : Slot} (h : slot ∈ pc.running) :
    slot ∈ pc.inHand := by
  unfold TaskPc.running at h
  split at h <;> simp_all [TaskPc.inHand]

lemma TaskPc.running_sublist (pc : TaskPc) : pc.running.Sublist pc.inHandler := by
  unfold TaskPc.running TaskPc.inHandler
  split <;> simp

/-- Filling a slot leaves the owner of the message in hand alone. -/
lemma HandlingInv.accept {N : Int} {s s' : State} {c : CallId} {slot fresh : Slot} {m : EdMsg}
    {empty : List Slot} (hI : HandlingInv s) (hS : SlotsInv s) (hal : Alloc N s slot m empty fresh)
    (heq : s'.dispatched = s.dispatched ∧ s'.finished = s.finished ∧ s'.delivered = s.delivered)
    (hown : s'.owner = Function.update s.owner slot c) (hpc : s'.pc = s.pc) : HandlingInv s' := by
  have hhand := (hal.not_busy hS).1
  have hne : ∀ x ∈ s.pc.inHand, s'.owner x = s.owner x := fun x hx => by
    rw [hown]
    exact Function.update_of_ne (fun he : x = slot => hhand (he ▸ hx)) _ _
  refine hI.frame heq ?_ ?_
  · rw [hpc]
    exact List.map_congr_left (fun x hx => hne x (TaskPc.inHandler_subset hx))
  · rw [hpc]
    exact List.map_congr_left (fun x hx => hne x (TaskPc.running_subset hx))

lemma HandlingInv.finish {s s' : State} {slot : Slot} {left : Nat} {stage : HandStage}
    (hI : HandlingInv s) (hpc : s.pc = .hand slot left stage)
    (hst : s.pc.inHandler = [slot]) (heq : s'.dispatched = s.dispatched ∧
      s'.finished = s.finished ++ [s.owner slot] ∧ s'.delivered = s.delivered)
    (hpc' : s'.pc = .hand slot left .handled) : HandlingInv s' := by
  obtain ⟨h1, h2, h3⟩ := heq
  have hf := hI.finished
  rw [hst] at hf
  constructor
  · rw [h1, h2, hpc', hf]
    simp [TaskPc.inHandler]
  · rw [h2, h3, hpc']
    refine hI.delivered.trans ?_
    simp only [TaskPc.running, List.map_nil, List.append_nil]
    apply List.Sublist.append_left
    rw [hpc]
    cases stage <;> simp

lemma HandlingInv.deliver {s : State} {slot : Slot} {left : Nat} {t : Target}
    (hI : HandlingInv s) (hst : s.pc.inHandler = [slot]) (hr : s.pc.running = []) :
    HandlingInv (s.deliver slot left t) := by
  have hf := hI.finished
  have hd := hI.delivered
  rw [hst] at hf
  rw [hr, List.map_nil, List.append_nil] at hd
  constructor
  · simpa [State.deliver, TaskPc.inHandler] using hf
  · simpa [State.deliver, TaskPc.running] using hd

theorem HandlingInv.step {N : Int} {s s' : State} {a : Action} (hS : SlotsInv s)
    (hI : HandlingInv s) (h : Step N s a s') : HandlingInv s' := by
  cases h with
  | posted c k slot m empty fresh hk hpc hm hfd ha hal =>
    exact hI.accept hS hal ⟨rfl, rfl, rfl⟩ rfl rfl
  | pushed c k slot m empty fresh hk hpc hm hfd ha hal =>
    exact hI.accept hS hal ⟨rfl, rfl, rfl⟩ rfl rfl
  | popped left slot rest hpc hm hq =>
    have hf := hI.finished
    have hd := hI.delivered
    simp only [hpc, TaskPc.inHandler, TaskPc.running, List.map_nil, List.append_nil] at hf hd
    exact ⟨by simp [TaskPc.inHandler, hf], by simpa [TaskPc.running] using hd⟩
  | exitMsg slot left hpc hx =>
    exact hI.finish hpc (by rw [hpc]; rfl) ⟨rfl, rfl, rfl⟩ rfl
  | noListener slot left hpc =>
    exact hI.finish hpc (by rw [hpc]; rfl) ⟨rfl, rfl, rfl⟩ rfl
  | handlerReturn slot left t hpc =>
    exact hI.finish hpc (by rw [hpc]; rfl) ⟨rfl, rfl, rfl⟩ rfl
  | onEventProc slot left hpc hx hh => exact hI.deliver (by rw [hpc]; rfl) (by rw [hpc]; rfl)
  | invoke slot left hd hpc => exact hI.deliver (by rw [hpc]; rfl) (by rw [hpc]; rfl)
  | _ =>
    exact hI.frame ⟨rfl, rfl, rfl⟩
      (by simp [TaskPc.inHandler, State.createTaskMsgQue, State.destroyTaskMsgQue, State.closeFd,
        State.setSendMsgResult, *])
      (by simp [TaskPc.running, State.createTaskMsgQue, State.destroyTaskMsgQue, State.closeFd,
        State.setSendMsgResult, *])

lemma AcceptedInv.init : AcceptedInv State.init := by
  simp [AcceptedInv, State.init]

lemma HandlingInv.init : HandlingInv State.init := by
  constructor <;> simp [State.init, TaskPc.inHandler]

theorem reachable_accepted {N : Int} {s : State} (h : (queue N).Reachable s) : AcceptedInv s :=
  h.invariant (fun _ h0 => h0 ▸ AcceptedInv.init)
    (fun _ _ _ _ hI _ hs => hI.step (step_cases hs))

theorem reachable_handling {N : Int} {s : State} (h : (queue N).Reachable s) : HandlingInv s :=
  h.invariant (fun _ h0 => h0 ▸ HandlingInv.init)
    (fun _ _ _ hr hI _ hs => hI.step (reachable_slots hr) (step_cases hs))

end EdNio.Task
