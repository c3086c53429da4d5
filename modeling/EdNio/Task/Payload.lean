import EdNio.Task.Filled

/-!
# What a handler sees of a message

A message slot is not cleared when it is recycled: `postEdMsg` and `sendEdMsg` write
either `data` or `msgobj`, and the other field is the one of an earlier message.
-/

namespace EdNio.Task
open Transition

/-- The message a call describes, on its own. -/
def CallArgs.ownView (a : CallArgs) : View where
  msgid := a.msgid
  data := if a.type = 0 then a.data else 0
  msgobj := if a.type = 0 then none else a.msgobj
  taskque_handle := a.handle

/-- The field that a call with these arguments leaves alone is empty. -/
def EdMsg.cleanFor (m : EdMsg) (a : CallArgs) : Bool :=
  if a.type = 0 then m.msgobj = none else m.data = 0

lemma EdMsg.fillPost_view {m : EdMsg} {a : CallArgs} (h : m.cleanFor a = true) :
    (m.fillPost a).view = a.ownView := by
  unfold EdMsg.cleanFor at h
  by_cases ht : a.type = 0
  · rw [if_pos ht, decide_eq_true_eq] at h
    simp [EdMsg.fillPost, EdMsg.setPayload, EdMsg.view, CallArgs.ownView, ht, h]
  · rw [if_neg ht, decide_eq_true_eq] at h
    simp [EdMsg.fillPost, EdMsg.setPayload, EdMsg.view, CallArgs.ownView, ht, h]

lemma EdMsg.fillSend_view {m : EdMsg} {c : CallId} {a : CallArgs} (h : m.cleanFor a = true) :
    (m.fillSend c a).view = a.ownView := by
  rw [← EdMsg.fillPost_view h]
  by_cases ht : a.type = 0 <;>
    simp [EdMsg.fillPost, EdMsg.fillSend, EdMsg.setPayload, EdMsg.view, ht]

lemma EdMsg.zero_cleanFor (a : CallArgs) : EdMsg.zero.cleanFor a = true := by
  simp [EdMsg.cleanFor, EdMsg.zero]

/-- A call that is given a recycled slot finds the field it leaves alone empty. -/
def cleanStep (s : State) : Action → Bool
  | .enter c =>
    match s.calls[c]?, s.mEmptyMsgs with
    | some k, slot :: _ => s.mMsgFd < 0 || (s.msg slot).cleanFor k.args
    | _, _ => true
  | _ => true

lemma Alloc.cleanFor {N : Int} {s : State} {c : CallId} {k : Call} {slot fresh : Slot} {m : EdMsg}
    {empty : List Slot} (hal : Alloc N s slot m empty fresh) (hk : s.calls[c]? = some k)
    (hfd : 0 ≤ s.mMsgFd) (hc : cleanStep s (.enter c) = true) : m.cleanFor k.args = true := by
  cases hal with
  | new => exact EdMsg.zero_cleanFor _
  | recycled he =>
    have hfd' : ¬ s.mMsgFd < 0 := by omega
    simpa [cleanStep, hk, he, hfd'] using hc

/-- The slot of a message that the dispatcher has popped and given to no handler yet. -/
def TaskPc.unread : TaskPc → List Slot
  | .hand slot _ .popped => [slot]
  | .hand slot _ (.found _) => [slot]
  | _ => []

/-- A relation that holds of a slot when a call fills it holds until a handler is given the
message. -/
theorem Filled.unread {R : CallId → CallArgs → EdMsg → Prop} {N : Int} {s s' : State} {a : Action}
    (hS : SlotsInv s) (hI : Filled R (s.pc.unread ++ s.mQuedMsgs) s)
    (hfill : ∀ c k slot m empty fresh, a = .enter c → s.calls[c]? = some k → 0 ≤ s.mMsgFd →
      Alloc N s slot m empty fresh →
      R c k.args (m.fillPost k.args) ∧ R c k.args (m.fillSend c k.args))
    (h : Step N s a s') : Filled R (s'.pc.unread ++ s'.mQuedMsgs) s' := by
  have hstep := h
  cases h with
  | posted c k slot m empty fresh hk hpc hm hfd ha hal =>
    have hf := hI.fill hstep hk (hfill c k slot m empty fresh rfl hk hfd hal).1 rfl rfl
    simpa using hf
  | pushed c k slot m empty fresh hk hpc hm hfd ha hal =>
    have hf := hI.fill hstep hk (hfill c k slot m empty fresh rfl hk hfd hal).2 rfl rfl
    simpa using hf
  | editMsg slot left t v hpc =>
    -- the slot of a running handler is not queued
    refine hI.frame hstep (fun _ h => h) (fun x hx => ⟨rfl, fun _ _ hR => ?_⟩)
    have hne : x ≠ slot := by
      rintro rfl
      have hn := hS.nodup
      simp only [State.slots, hpc, TaskPc.inHand, List.cons_append, List.nodup_cons,
        List.mem_append, not_or] at hn
      simp only [hpc, TaskPc.unread, List.nil_append] at hx
      exact hn.1.1.2 hx
    simpa [hne] using hR
  | popped left slot rest hpc hm hq | drainSync slot rest hpc hq | drainPost slot rest hpc hq =>
    exact hI.frame hstep (by simp +contextual [TaskPc.unread, hpc, hq, List.subset_def])
      (fun _ _ => ⟨rfl, fun _ _ hR => hR⟩)
  | _ =>
    exact hI.frame hstep (by simp +contextual [TaskPc.unread, State.deliver, State.finish,
      State.createTaskMsgQue, State.destroyTaskMsgQue, State.closeFd, State.setSendMsgResult,
      List.subset_def, *])
      (fun _ _ => ⟨rfl, fun _ _ hR => hR⟩)

def Describes (_ : CallId) (b : CallArgs) (m : EdMsg) : Prop :=
  m.view = b.ownView

/-- The messages not given to a handler, and those that were, are as their call made them. -/
structure PayloadInv (s : State) : Prop where
  filled : Filled Describes (s.pc.unread ++ s.mQuedMsgs) s
  delivered : ∀ d ∈ s.delivered, ∃ b, s.callArgs d.call = some b ∧ d.view = b.ownView

/-- What a step adds to the started handlers. -/
lemma Step.delivered {N : Int} {s s' : State} {a : Action} (h : Step N s a s') :
    s'.delivered = s.delivered ∨
      ∃ slot ∈ s.pc.unread, ∃ t,
        s'.delivered = s.delivered ++ [⟨s.owner slot, t, (s.msg slot).view⟩] := by
  cases h with
  | onEventProc slot left hpc | invoke slot left hd hpc =>
    exact .inr ⟨slot, by simp [hpc, TaskPc.unread], _, rfl⟩
  | _ => exact .inl rfl

theorem PayloadInv.step {N : Int} {s s' : State} {a : Action} (hS : SlotsInv s)
    (hI : PayloadInv s) (hc : cleanStep s a = true) (h : Step N s a s') : PayloadInv s' := by
  constructor
  · refine hI.filled.unread hS (fun c k slot m empty fresh ha hk hfd hal => ?_) h
    have hclean := hal.cleanFor hk hfd (ha ▸ hc)
    exact ⟨EdMsg.fillPost_view hclean, EdMsg.fillSend_view hclean⟩
  · intro d hd
    have hold : ∀ d : Delivery, (∃ b, s.callArgs d.call = some b ∧ d.view = b.ownView) →
        ∃ b, s'.callArgs d.call = some b ∧ d.view = b.ownView := by
      rintro d ⟨b, hb, hv⟩
      exact ⟨b, h.callArgs hb, hv⟩
    rcases h.delivered with hdel | ⟨slot, hslot, t, hdel⟩
    · exact hold d (hI.delivered d (hdel ▸ hd))
    · rw [hdel, List.mem_append, List.mem_singleton] at hd
      rcases hd with hd | rfl
      · exact hold d (hI.delivered d hd)
      · exact hold _ (hI.filled slot (List.mem_append_left _ hslot))

lemma PayloadInv.init : PayloadInv State.init := by
  constructor <;> simp [Filled, State.init, TaskPc.unread]

abbrev CleanRun (N : Int) (s : State) : Prop :=
  (queue N).Reaches (fun s a => cleanStep s a = true) s

theorem clean_payload {N : Int} {s : State} (h : CleanRun N s) : PayloadInv s :=
  h.invariant (fun _ h0 => h0 ▸ PayloadInv.init)
    (fun _ _ _ hr hI hc hs => hI.step (reachable_slots hr.reachable) hc (step_cases hs))

/-- In two runs whose calls find recycled slots clean, messages posted with the same
arguments are seen alike by their handlers, and as the arguments say. -/
theorem payload_isolated {N₁ N₂ : Int} {s₁ s₂ : State} (h₁ : CleanRun N₁ s₁)
    (h₂ : CleanRun N₂ s₂) :
    (∀ d₁ ∈ s₁.delivered, ∀ d₂ ∈ s₂.delivered,
      s₁.callArgs d₁.call = s₂.callArgs d₂.call → d₁.view = d₂.view) ∧
    ∀ d ∈ s₁.delivered, ∃ b, s₁.callArgs d.call = some b ∧ d.view = b.ownView := by
  have hI₁ := clean_payload h₁
  have hI₂ := clean_payload h₂
  refine ⟨?_, hI₁.delivered⟩
  intro d₁ hd₁ d₂ hd₂ heq
  obtain ⟨b₁, hb₁, hv₁⟩ := hI₁.delivered d₁ hd₁
  obtain ⟨b₂, hb₂, hv₂⟩ := hI₂.delivered d₂ hd₂
  have hb : b₁ = b₂ := by
    rw [hb₁, hb₂] at heq
    exact Option.some.inj heq
  rw [hv₁, hv₂, hb]

/-- An object posted and handled, then `postMsg` into the same slot. The handler writes `v`
into its message: it may have taken the object. -/
def reuseRun (v : View) : List Action :=
  [.initMsg 5, .call (postMsgObj 1000 (some 7)), .enter 0, .msgevent_cb, .popMsg, .branch,
    .editMsg v, .handlerReturn, .checkSync, .recycle, .endLoop, .call (postMsg 1001 3 4),
    .enter 1, .msgevent_cb, .popMsg, .branch]

theorem payload_isolated_reuseRun : ∃ s, CleanRun 2 s ∧
    (∃ d ∈ s.delivered, d.call = 1 ∧ d.view = (postMsg 1001 3 4).ownView) ∧
    ∀ d₁ ∈ s.delivered, ∀ d₂ ∈ s.delivered,
      s.callArgs d₁.call = s.callArgs d₂.call → d₁.view = d₂.view := by
  obtain ⟨s, hr, hs⟩ := System.exists_of_exec_restrict (M := queue 2) (T := cleanStep) rfl
    (show (((queue 2).restrict cleanStep).exec State.init (reuseRun ⟨1000, 0, none, 0⟩)).map
      State.delivered = some [⟨0, .onEventProc, (postMsgObj 1000 (some 7)).ownView⟩,
        ⟨1, .onEventProc, (postMsg 1001 3 4).ownView⟩] by decide)
  exact ⟨s, hr, by simp [hs], (payload_isolated hr hr).1⟩

/-- A handler that leaves the object in its message. -/
theorem not_payload_isolated : ¬ ∀ (N : Int) (s₁ s₂ : State), (queue N).Reachable s₁ →
    (queue N).Reachable s₂ → ∀ d₁ ∈ s₁.delivered, ∀ d₂ ∈ s₂.delivered,
      s₁.callArgs d₁.call = s₂.callArgs d₂.call → d₁.view = d₂.view := by
  intro h
  obtain ⟨s₁, hr₁, hs₁⟩ := System.exists_of_exec (M := queue 2) rfl
    (show ((queue 2).exec State.init (reuseRun ⟨1000, 0, some 7, 0⟩)).map
      (fun s => (s.delivered.getLast?, s.callArgs 1)) =
        some (some ⟨1, .onEventProc, ⟨1001, OBJECT_MSG 3 4, some 7, 0⟩⟩,
          some (postMsg 1001 3 4)) by decide)
  obtain ⟨s₂, hr₂, hs₂⟩ := System.exists_of_exec (M := queue 2) rfl
    (show ((queue 2).exec State.init (reuseRun ⟨1000, 0, none, 0⟩)).map
      (fun s => (s.delivered.getLast?, s.callArgs 1)) =
        some (some ⟨1, .onEventProc, ⟨1001, OBJECT_MSG 3 4, none, 0⟩⟩,
          some (postMsg 1001 3 4)) by decide)
  simp only [Prod.mk.injEq] at hs₁ hs₂
  have heq := h 2 s₁ s₂ hr₁ hr₂ _ (List.mem_of_getLast? hs₁.1) _ (List.mem_of_getLast? hs₂.1)
    (hs₁.2.trans hs₂.2.symm)
  exact absurd heq (by decide)

end EdNio.Task
