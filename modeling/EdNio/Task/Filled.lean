import EdNio.Task.Delivery

/-!
# Slots and the calls that filled them

A slot that is queued or in the hand of the task thread holds what its call wrote there.
`Filled` states a relation between the arguments of a call and its slot; the relations of
interest are kept by every step that leaves the slot alone.
-/

namespace EdNio.Task
open Transition

def State.callArgs (s : State) (c : CallId) : Option CallArgs :=
  s.calls[c]?.map Call.args

lemma callArgs_eq {s : State} {c : CallId} {k : Call} {b : CallArgs}
    (hk : s.calls[c]? = some k) (hb : s.callArgs c = some b) : k.args = b := by
  simpa [State.callArgs, hk] using hb

lemma callArgs_modify {calls : List Call} {c d : CallId} {f : Call → Call}
    (hf : ∀ k, (f k).args = k.args) :
    (calls.modify d f)[c]?.map Call.args = calls[c]?.map Call.args := by
  by_cases hd : d = c
  · subst hd
    cases hk : calls[d]? with
    | none => simp [hk]
    | some k => simp [hk, hf k]
  · simp [hd]

lemma Call.wake_args (k : Call) : k.wake.args = k.args := by
  unfold Call.wake
  split <;> rfl

/-- The arguments of a call never change. -/
lemma Step.callArgs {N : Int} {s s' : State} {a : Action} (h : Step N s a s') {c : CallId}
    {b : CallArgs} (hc : s.callArgs c = some b) : s'.callArgs c = some b := by
  cases h with
  | call a =>
    obtain ⟨k, hk, hb⟩ := Option.map_eq_some_iff.mp hc
    have hlt := (List.getElem?_eq_some_iff.mp hk).1
    simp [State.callArgs, List.getElem?_append_left hlt, hk, hb]
  | spuriousWake | notify => exact (callArgs_modify Call.wake_args).trans hc
  | drainNotify slot d e =>
    exact (callArgs_modify Call.wake_args).trans ((callArgs_modify (by intro k; rfl)).trans hc)
  | setSendMsgResult slot left t code hpc =>
    simp only [State.callArgs, State.setSendMsgResult]
    split
    · split
      · exact (callArgs_modify (by intro k; rfl)).trans hc
      · exact hc
    · exact hc
  | posted | pushed | refused | queueFull | write | writeFails | wait | resume | lockMtx
  | unlockMtx | drainLock | drainUnlock =>
    exact (callArgs_modify (by intro k; rfl)).trans hc
  | _ => exact hc

/-- Each of `slots` holds a message related to the call that filled it. -/
def Filled (R : CallId → CallArgs → EdMsg → Prop) (slots : List Slot) (s : State) : Prop :=
  ∀ slot ∈ slots, ∃ b, s.callArgs (s.owner slot) = some b ∧ R (s.owner slot) b (s.msg slot)

section Filled

variable {R : CallId → CallArgs → EdMsg → Prop} {N : Int} {s s' : State} {a : Action}
  {slots slots' : List Slot}

lemma Filled.frame (hI : Filled R slots s) (h : Step N s a s') (hslots : slots' ⊆ slots)
    (hmsg : ∀ slot ∈ slots', s'.owner slot = s.owner slot ∧
      (∀ c b, R c b (s.msg slot) → R c b (s'.msg slot))) : Filled R slots' s' := by
  intro slot hs
  obtain ⟨ho, hm⟩ := hmsg slot hs
  obtain ⟨b, hb, hR⟩ := hI slot (hslots hs)
  exact ⟨b, by rw [ho]; exact h.callArgs hb, by rw [ho]; exact hm _ _ hR⟩

/-- The effect of an accepted call. -/
lemma Filled.fill {c : CallId} {k : Call} {slot : Slot} {m : EdMsg} (hI : Filled R slots s)
    (h : Step N s a s') (hk : s.calls[c]? = some k) (hR : R c k.args m)
    (hown : s'.owner = Function.update s.owner slot c)
    (hmsg : s'.msg = Function.update s.msg slot m) : Filled R (slots ++ [slot]) s' := by
  intro x hx
  rw [List.mem_append, List.mem_singleton] at hx
  rw [hown, hmsg]
  by_cases he : x = slot
  · subst he
    rw [Function.update_self, Function.update_self]
    exact ⟨k.args, h.callArgs (by simp [State.callArgs, hk]), hR⟩
  · rw [Function.update_of_ne he, Function.update_of_ne he]
    obtain ⟨b, hb, hRb⟩ := hI x (hx.resolve_right he)
    exact ⟨b, h.callArgs hb, hRb⟩

end Filled

/-- A synchronous message points to its sender, and only a sender's message is synchronous. -/
def Linked (c : CallId) (b : CallArgs) (m : EdMsg) : Prop :=
  (m.sync = 0 ∧ b.api = .postEdMsg) ∨
  (m.sync ≠ 0 ∧ b.api = .sendEdMsg ∧ m.psend_result = some c ∧ m.pcv = some c ∧ m.pmtx = some c)

/-- The slot whose sender the task thread is about to notify, or is notifying. -/
def TaskPc.signalling : TaskPc → List Slot
  | .hand slot _ .locking => [slot]
  | .hand slot _ .locked => [slot]
  | .hand slot _ .notified => [slot]
  | .drain slot _ => [slot]
  | _ => []

lemma TaskPc.signalling_subset {pc : TaskPc} {slot : Slot} (h : slot ∈ pc.signalling) :
    slot ∈ pc.inHand := by
  unfold TaskPc.signalling at h
  split at h <;> simp_all [TaskPc.inHand]

structure LinkInv (s : State) : Prop where
  linked : Filled Linked (s.pc.inHand ++ s.mQuedMsgs) s
  sync : ∀ slot ∈ s.pc.signalling, (s.msg slot).sync ≠ 0

lemma linked_fillPost {m : EdMsg} {c : CallId} {b : CallArgs} (h : b.api = .postEdMsg) :
    Linked c b (m.fillPost b) :=
  .inl ⟨rfl, h⟩

lemma linked_fillSend {m : EdMsg} {c : CallId} {b : CallArgs} (h : b.api = .sendEdMsg) :
    Linked c b (m.fillSend c b) :=
  .inr ⟨by simp, h, rfl, by simp, by simp⟩

/-- The slot that an accepted call fills is not in hand. -/
lemma LinkInv.fill {N : Int} {s s' : State} {a : Action} {c : CallId} {k : Call}
    {slot fresh : Slot} {m m' : EdMsg} {empty : List Slot} (hI : LinkInv s) (hS : SlotsInv s)
    (h : Step N s a s') (hk : s.calls[c]? = some k) (hal : Alloc N s slot m empty fresh)
    (hR : Linked c k.args m') (hown : s'.owner = Function.update s.owner slot c)
    (hmsg : s'.msg = Function.update s.msg slot m') (hpc : s'.pc = s.pc)
    (hq : s'.mQuedMsgs = s.mQuedMsgs ++ [slot]) : LinkInv s' := by
  obtain ⟨hhand, -⟩ := hal.not_busy hS
  constructor
  · have hf := hI.linked.fill h hk hR hown hmsg
    rwa [hpc, hq, ← List.append_assoc]
  · intro x hx
    rw [hpc] at hx
    have hne : x ≠ slot := by
      rintro rfl
      exact hhand (TaskPc.signalling_subset hx)
    rw [hmsg, Function.update_of_ne hne]
    exact hI.sync x hx

theorem LinkInv.step {N : Int} {s s' : State} {a : Action} (hS : SlotsInv s) (hI : LinkInv s)
    (h : Step N s a s') : LinkInv s' := by
  have hstep := h
  cases h with
  | posted c k slot m empty fresh hk hpc hm hfd ha hal =>
    exact hI.fill hS hstep hk hal (linked_fillPost ha) rfl rfl rfl rfl
  | pushed c k slot m empty fresh hk hpc hm hfd ha hal =>
    exact hI.fill hS hstep hk hal (linked_fillSend ha) rfl rfl rfl rfl
  | editMsg slot left t v hpc =>
    constructor
    · refine hI.linked.frame hstep (fun _ h => h) (fun x _ => ⟨rfl, ?_⟩)
      intro c b hR
      by_cases he : x = slot
      · subst he
        simpa [Linked, EdMsg.setView] using hR
      · simpa [he] using hR
    · simp [hpc, TaskPc.signalling]
  | isSync slot left hpc hs =>
    exact ⟨hI.linked.frame hstep (by simp [hpc, TaskPc.inHand]) (fun _ _ => ⟨rfl, fun _ _ h => h⟩),
      by simpa [TaskPc.signalling] using hs⟩
  | drainSync slot rest hpc hq hs =>
    exact ⟨hI.linked.frame hstep (by simp [TaskPc.inHand, hq])
      (fun _ _ => ⟨rfl, fun _ _ h => h⟩), by simpa [TaskPc.signalling] using hs⟩
  | lockMtx slot left c hpc | notify slot left c hpc | drainLock slot c hpc
  | drainNotify slot c d hpc =>
    have hs := hI.sync
    simp only [hpc, TaskPc.signalling] at hs
    exact ⟨hI.linked.frame hstep (by simp [hpc, TaskPc.inHand]) (fun _ _ => ⟨rfl, fun _ _ h => h⟩),
      hs⟩
  | _ =>
    constructor
    · refine hI.linked.frame hstep ?_ (fun _ _ => ⟨rfl, fun _ _ h => h⟩)
      simp +contextual [TaskPc.inHand, State.deliver, State.finish, State.closeFd,
        State.createTaskMsgQue, State.destroyTaskMsgQue, State.setSendMsgResult, List.subset_def, *]
    · first
        | exact hI.sync
        | simp [TaskPc.signalling, State.deliver, State.finish, State.closeFd, *]

lemma LinkInv.init : LinkInv State.init := by
  constructor <;> simp [Filled, State.init, TaskPc.inHand, TaskPc.signalling]

theorem reachable_link {N : Int} {s : State} (h : (queue N).Reachable s) : LinkInv s :=
  h.invariant (fun _ h0 => h0 ▸ LinkInv.init)
    (fun _ _ _ hr hI _ hs => hI.step (reachable_slots hr) (step_cases hs))

end EdNio.Task
