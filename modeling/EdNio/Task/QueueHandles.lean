import EdNio.Library.History
import EdNio.Task.Steps
import Mathlib.Data.Set.Insert

/-!
# Handles of message queues

What the handles of message queues are for their users: a counter that gives them, and the set
of those in use. The map of the queues is related to it over all runs.
-/

namespace EdNio.Task
open MachineInt Transition

/-- The calls on queue handles. -/
inductive HandleCall
  | create
  | destroy (handle : UInt32)
deriving DecidableEq, Repr

def handleCall : Action → Option HandleCall
  | .createTaskMsgQue _ _ => some .create
  | .destroyTaskMsgQue handle => some (.destroy handle)
  | _ => none

def handleHistory (mMaxMsqQueSize : Int) : System (Recorded State HandleCall) Action :=
  (queue mMaxMsqQueSize).recorded (fun _ a => handleCall a)

/-- `creates` counts the queues ever made. -/
structure Handles where
  creates : Nat
  live : Set UInt32

def Handles.call (x : Handles) : HandleCall → Handles
  | .create => ⟨x.creates + 1, insert (skipZero x.creates) x.live⟩
  | .destroy handle => ⟨x.creates, x.live \ {handle}⟩

def handles (log : List HandleCall) : Handles :=
  log.foldl Handles.call ⟨0, ∅⟩

/-- The new queue has a handle of its own, and the others keep their task and listener. -/
structure FreshQue (s t : State) : Prop where
  ne_zero : t.seed_handle ≠ 0
  unused : s.gViewMap t.seed_handle = none
  others : ∀ h ≠ t.seed_handle, t.gViewMap h = s.gViewMap h

/-- The map is what the calls have made of it. -/
structure Represents (s : State) (x : Handles) : Prop where
  seed : s.nextHandle = skipZero x.creates
  live : ∀ h, h ∈ x.live ↔ (s.gViewMap h).isSome = true

variable {N : Int} {s t : State} {a : Action} {x : Handles}

lemma Step.gViewMap (h : Step N s a t) (ha : handleCall a = none) :
    t.gViewMap = s.gViewMap ∧ t.seed_handle = s.seed_handle := by
  cases h with
  | createTaskMsgQue => cases ha
  | destroyTaskMsgQue => cases ha
  | _ => exact ⟨rfl, rfl⟩

lemma nextHandle_createTaskMsgQue (pTask lis : Nat) :
    (s.createTaskMsgQue pTask lis).nextHandle =
      if s.nextHandle + 1 = 0 then 1 else s.nextHandle + 1 := by
  have hseed : (s.createTaskMsgQue pTask lis).seed_handle = s.nextHandle := rfl
  unfold State.nextHandle at hseed ⊢
  rw [hseed]
  generalize (if s.seed_handle + 1 = 0 then s.seed_handle + 2 else s.seed_handle + 1) = h
  split
  · rename_i h0
    have hadd : h + 2 = h + 1 + 1 := by
      rw [UInt32.add_assoc]
      rfl
    rw [hadd, h0]
    rfl
  · rfl

lemma Represents.create (h : Represents s x) (pTask lis : Nat) :
    Represents (s.createTaskMsgQue pTask lis) (x.call .create) := by
  constructor
  · rw [nextHandle_createTaskMsgQue, h.seed]
    exact (skipZero_succ x.creates).symm
  · intro k
    simp only [Handles.call, Set.mem_insert_iff, h.live k, State.createTaskMsgQue, ← h.seed]
    by_cases hk : k = s.nextHandle
    · simp [hk]
    · simp [hk]

lemma Represents.destroy (h : Represents s x) (handle : UInt32) :
    Represents (s.destroyTaskMsgQue handle) (x.call (.destroy handle)) := by
  refine ⟨h.seed, fun k => ?_⟩
  simp only [Handles.call, Set.mem_sdiff, Set.mem_singleton_iff, h.live k,
    State.destroyTaskMsgQue]
  by_cases hk : k = handle
  · simp [hk]
  · simp [hk]

lemma Represents.step (h : Represents s x) (hs : Step N s a t) :
    Represents t ((handleCall a).elim x x.call) := by
  cases hc : handleCall a with
  | none =>
    obtain ⟨hmap, hseed⟩ := hs.gViewMap hc
    refine ⟨?_, fun k => by rw [hmap]; exact h.live k⟩
    rw [State.nextHandle, hseed]
    exact h.seed
  | some c =>
    cases hs with
    | createTaskMsgQue pTask lis =>
      cases hc
      exact h.create pTask lis
    | destroyTaskMsgQue handle =>
      cases hc
      exact h.destroy handle
    | _ => cases hc

/-- The map refines the counter and the set, in every run. -/
theorem represents_handles {s : Recorded State HandleCall}
    (h : (handleHistory N).Reachable s) : Represents s.state (handles s.log) := by
  apply h.invariant
  · rintro ⟨s, log⟩ ⟨h0, hlog⟩
    dsimp only at h0 hlog
    rw [h0, hlog]
    refine ⟨rfl, fun k => ?_⟩
    simp [handles, State.init]
  · intro s a t _ hI _ hs
    obtain ⟨hstep, hlog⟩ := recorded_step hs
    have hI' := hI.step (step_cases hstep)
    rw [hlog]
    cases hc : handleCall a with
    | none => simpa [hc] using hI'
    | some c => simpa [hc, handles] using hI'

/-- A queue has a handle of its own exactly if no queue that is still there has the handle that
the counter has come to. -/
theorem create_fresh_iff {s : Recorded State HandleCall} (h : (handleHistory N).Reachable s)
    (pTask lis : Nat) : FreshQue s.state (s.state.createTaskMsgQue pTask lis) ↔
      skipZero (handles s.log).creates ∉ (handles s.log).live := by
  have hrep := represents_handles h
  have hret : (s.state.createTaskMsgQue pTask lis).seed_handle =
      skipZero (handles s.log).creates := hrep.seed
  rw [hrep.live, ← hret]
  constructor
  · rintro ⟨-, hunused, -⟩
    simp [hunused]
  · intro hfree
    refine ⟨?_, by simpa using hfree, fun k hk => Function.update_of_ne hk ..⟩
    rw [hret]
    exact skipZero_ne_zero _

/-- Two queues are there. -/
theorem create_fresh_three : ∃ s, (handleHistory 10).Reachable s ∧
    s.log = [.create, .create, .destroy 1] ∧ FreshQue s.state (s.state.createTaskMsgQue 0 7) := by
  obtain ⟨s, hr, hs⟩ := System.exists_of_exec (M := handleHistory 10) (s := ⟨State.init, []⟩)
    (f := Recorded.log) ⟨rfl, rfl⟩
    (l := [.createTaskMsgQue 0 7, .createTaskMsgQue 0 8, .destroyTaskMsgQue 1])
    (b := [.create, .create, .destroy 1]) rfl
  refine ⟨s, hr, hs, (create_fresh_iff hr 0 7).mpr ?_⟩
  rw [hs]
  simp [handles, Handles.call, skipZero]

lemma creates_reachable (n : Nat) : ∃ s, (handleHistory 10).Reachable s ∧
    (handles s.log).creates = n ∧ ∀ k < n, skipZero k ∈ (handles s.log).live := by
  induction n with
  | zero => exact ⟨⟨State.init, []⟩, .init ⟨rfl, rfl⟩, rfl, by simp⟩
  | succ n ih =>
    obtain ⟨s, hr, hn, hlive⟩ := ih
    refine ⟨⟨s.state.createTaskMsgQue 0 7, s.log ++ [.create]⟩,
      .step (a := .createTaskMsgQue 0 7) hr trivial rfl, ?_⟩
    have hcall : handles (s.log ++ [.create]) = (handles s.log).call .create := by
      simp [handles]
    rw [hcall]
    refine ⟨by rw [Handles.call, hn], fun k hk => ?_⟩
    rcases Nat.lt_succ_iff_lt_or_eq.mp hk with hlt | rfl
    · exact Set.mem_insert_of_mem _ (hlive k hlt)
    · rw [Handles.call, hn]
      exact Set.mem_insert _ _

/-- After 2 ^ 32 - 1 queues the first of them loses its entry to the next. -/
theorem not_create_fresh : ¬ ∀ s, (handleHistory 10).Reachable s → ∀ pTask lis,
    FreshQue s.state (s.state.createTaskMsgQue pTask lis) := by
  intro hall
  obtain ⟨s, hr, hn, hlive⟩ := creates_reachable (2 ^ 32 - 1)
  have hrep := represents_handles hr
  have hfirst := (hrep.live _).mp (hlive 0 (by decide))
  have hunused := (hall s hr 0 7).unused
  rw [show (s.state.createTaskMsgQue 0 7).seed_handle = skipZero (handles s.log).creates from
    hrep.seed, hn, (skipZero_eq_iff _ 0).mpr (by decide)] at hunused
  rw [hunused] at hfirst
  exact absurd hfirst (by simp)

end EdNio.Task
