import EdNio.Task.Count

/-!
# The bound on the message pool

`allocMsgObj` compares `mQuedMsgs` and `mEmptyMsgs` with the limit of the pool. The message that
`dispatchMsgs` is handling is in neither of them.
-/

namespace EdNio.Task
open MachineInt Transition

/-- The pool of a task within the limit `N`. -/
structure PoolBound (N : Int) (s : State) : Prop where
  lists : (s.mQuedMsgs.length + s.mEmptyMsgs.length : Int) ≤ N
  queued : (s.mQuedMsgs.length : Int) ≤ N
  objects : (s.slots.length : Int) ≤ N

/-- A message is being handled, and all the others that the limit allows are queued. -/
def State.Crowded (N : Int) (s : State) : Prop :=
  s.pc.inHand ≠ [] ∧ s.mEmptyMsgs = [] ∧ (s.mQuedMsgs.length : Int) + 1 = N

instance (N : Int) (s : State) : Decidable (s.Crowded N) :=
  inferInstanceAs (Decidable (_ ∧ _ ∧ _))

/-- The section of `postEdMsg` or `sendEdMsg` under `mMsgMutex`, with the queue open. -/
def State.posts (s : State) : Action → Bool
  | .enter _ => 0 ≤ s.mMsgFd
  | _ => false

/-- Nothing is posted to a crowded queue. -/
def sparesPool (N : Int) (s : State) (a : Action) : Bool :=
  !(s.posts a && decide (s.Crowded N))

variable {N : Int} {s t : State} {a : Action}

lemma poolBound_iff : PoolBound N s ↔ (s.slots.length : Int) ≤ N := by
  constructor
  · exact fun h => h.objects
  · intro h
    have hlen : s.slots.length =
        s.pc.inHand.length + s.mQuedMsgs.length + s.mEmptyMsgs.length := by
      simp [State.slots, Nat.add_assoc]
    constructor <;> omega

/-- Only a call that finds `mEmptyMsgs` empty and the queue below the limit adds an object. -/
lemma Step.slots_length (h : Step N s a t) : t.slots.length ≤ s.slots.length ∨
    s.posts a = true ∧ s.mEmptyMsgs = [] ∧
      toI32 (State.size [] + State.size s.mQuedMsgs) < N ∧
      t.slots.length = s.slots.length + 1 := by
  cases h with
  | posted c k slot m empty fresh _ _ _ hfd _ hal | pushed c k slot m empty fresh _ _ _ hfd _ hal =>
    cases hal with
    | recycled hrec =>
      left
      simp only [State.slots, hrec, List.length_append, List.length_cons, List.length_nil]
      omega
    | new hrec hlt =>
      refine .inr ⟨decide_eq_true hfd, hrec, hlt, ?_⟩
      simp only [State.slots, hrec, List.length_append, List.length_cons, List.length_nil]
      omega
  | setSendMsgResult => exact .inl (Nat.le_refl _)
  | recycle slot left hpc =>
    left
    simp only [State.slots, TaskPc.inHand, hpc, List.length_append, List.length_cons,
      List.length_nil]
    omega
  | drainPost slot rest hpc hq =>
    left
    simp only [State.slots, TaskPc.inHand, hpc, hq, List.length_append, List.length_cons,
      List.length_nil]
    omega
  | drainUnlock slot c hpc =>
    left
    simp only [State.slots, TaskPc.inHand, hpc, List.length_append, List.length_cons,
      List.length_nil]
    omega
  | _ =>
    left
    simp [State.slots, TaskPc.inHand, State.createTaskMsgQue, State.destroyTaskMsgQue,
      State.deliver, State.finish, State.closeFd, *]

lemma Step.slots_grow (h : Step N s a t) (hp : s.posts a = true) (he : s.mEmptyMsgs = [])
    (hlt : toI32 (State.size [] + State.size s.mQuedMsgs) < N) :
    t.slots.length = s.slots.length + 1 := by
  have hal : s.allocMsgObj N ≠ none := by
    unfold State.allocMsgObj
    rw [he]
    simp [hlt]
  cases h with
  | refused c k _ _ _ hfd =>
    have hfd' : 0 ≤ s.mMsgFd := of_decide_eq_true hp
    omega
  | queueFull c k _ _ _ _ hnone => exact absurd hnone hal
  | posted c k slot m empty fresh _ _ _ _ _ hspec
  | pushed c k slot m empty fresh _ _ _ _ _ hspec =>
    cases hspec with
    | recycled hrec => exact absurd (hrec.symm.trans he) (by simp)
    | new hrec _ =>
      simp only [State.slots, hrec, List.length_append, List.length_cons, List.length_nil]
      omega
  | _ => exact absurd hp (by simp [State.posts])

lemma PoolBound.step (hN : N < 2 ^ 31) (hI : PoolBound N s) (hok : sparesPool N s a = true)
    (h : Step N s a t) : PoolBound N t := by
  have hI' := hI.objects
  rw [poolBound_iff]
  rcases h.slots_length with hle | ⟨hp, he, hlt, hlen⟩
  · omega
  · have hq := hI.queued
    rw [toI32_size (by omega)] at hlt
    have hcrowded : ¬ s.Crowded N := by simpa [sparesPool, hp] using hok
    have hs : s.slots.length = s.pc.inHand.length + s.mQuedMsgs.length := by
      simp [State.slots, he]
    have hhand := s.pc.inHand_length
    by_cases hnil : s.pc.inHand = []
    · rw [hnil, List.length_nil] at hs
      omega
    · have hne : (s.mQuedMsgs.length : Int) + 1 ≠ N := fun heq => hcrowded ⟨hnil, he, heq⟩
      omega

lemma not_poolBound_of_crowded (hN : N < 2 ^ 31) (hok : ¬ sparesPool N s a = true)
    (h : Step N s a t) : ¬ PoolBound N t := by
  have hcrowded : s.posts a = true ∧ s.Crowded N := by simpa [sparesPool] using hok
  obtain ⟨hp, hhand, he, hq⟩ := hcrowded
  have hgrow := h.slots_grow hp he (by rw [toI32_size (by omega)]; omega)
  have hpos := List.length_pos_of_ne_nil hhand
  have hs : s.slots.length = s.pc.inHand.length + s.mQuedMsgs.length := by
    simp [State.slots, he]
  rw [poolBound_iff]
  omega

/-- The pool stays within the limit for as long as nothing is posted to a crowded queue, and
the first such post exceeds it. -/
theorem poolBound_exact (msgqnum : Int) (hN : 1 ≤ toI32 msgqnum)
    (h : (queue (toI32 msgqnum)).Reaches
      (fun s a => sparesPool (toI32 msgqnum) s a = true) s) :
    PoolBound (toI32 msgqnum) s ∧ ∀ a t, step (toI32 msgqnum) s a = some t →
      (PoolBound (toI32 msgqnum) t ↔ sparesPool (toI32 msgqnum) s a = true) := by
  have hlt : toI32 msgqnum < 2 ^ 31 := by
    have := Int.bmod_lt (x := msgqnum) (m := 2 ^ 32) (by decide)
    unfold toI32
    omega
  refine h.exact (I := PoolBound (toI32 msgqnum)) (fun s h0 => ?_)
    (fun s a t hI hok hs => hI.step hlt hok (step_cases hs)) (fun _ hI => hI)
    (fun s a t _ hok hs => not_poolBound_of_crowded hlt hok (step_cases hs))
  rw [h0, poolBound_iff]
  simpa [State.slots, State.init, TaskPc.inHand] using Int.le_trans (by decide) hN

/-- The limit is 2, one message is handled and one is queued. -/
theorem poolBound_two : ∃ s, (queue (toI32 2)).Reachable s ∧ s.mQuedMsgs = [1] ∧
    s.pc = .hand 0 1 .popped ∧ PoolBound (toI32 2) s := by
  obtain ⟨s, hr, hs⟩ := System.exists_of_exec_restrict (M := queue (toI32 2))
    (T := sparesPool (toI32 2)) (s := State.init)
    (l := [.initMsg 5, .call (postMsg 1000 0 0), .enter 0, .call (postMsg 1001 0 0), .enter 1,
      .msgevent_cb, .popMsg])
    (f := fun s => (s.mQuedMsgs, s.pc)) (b := ([1], .hand 0 1 .popped)) rfl (by decide)
  obtain ⟨hq, hpc⟩ := Prod.mk.inj hs
  exact ⟨s, hr.reachable, hq, hpc, (poolBound_exact 2 (by decide) hr).1⟩

/-- With room for one message, one is posted while another is handled, and both are kept. -/
theorem not_poolBound : ¬ ∀ s, (queue 1).Reachable s →
    (s.mQuedMsgs.length + s.mEmptyMsgs.length : Int) ≤ 1 := by
  intro hall
  obtain ⟨s, hr, hs⟩ := System.exists_of_exec (M := queue 1) (s := State.init)
    (l := [.initMsg 5, .call (postMsg 1000 0 0), .enter 0, .msgevent_cb, .popMsg,
      .call (postMsg 1001 0 0), .enter 1, .branch, .handlerReturn, .checkSync, .recycle])
    (f := fun s => (s.mQuedMsgs, s.mEmptyMsgs)) (b := ([1], [0])) rfl (by decide)
  obtain ⟨hq, he⟩ := Prod.mk.inj hs
  have hle := hall s hr
  rw [hq, he] at hle
  exact absurd hle (by decide)

end EdNio.Task
