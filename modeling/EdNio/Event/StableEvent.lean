import EdNio.Event.LocalEvent
import Mathlib.Data.List.Infix

/-!
# The event that the listener of an EdLocalEvent is given

The listener is given a reference to a node that is free again. A post from within the listener
takes its node from the front of the free ones.
-/

namespace EdNio.Event
open Transition

/-- Posts made one after the other. -/
def EdLocalEvent.posts (s : EdLocalEvent) (es : List LocalEvt) : EdLocalEvent :=
  es.foldl (fun s e => (s.postEvent e).2) s

/-- The node at `ptr` holds its event during all the posts. -/
def StableEvent (s : EdLocalEvent) (ptr : Nat) (es : List LocalEvt) : Prop :=
  ∀ pre, pre <+: es → (s.posts pre).event ptr = s.event ptr

variable {s : EdLocalEvent} {x : Recorded EdLocalEvent LocalEntry} {e : LocalEvt} {ptr left : Nat}
  {es : List LocalEvt}

lemma LocalInv.postEvent_queued (h : LocalInv x) (e : LocalEvt) (hptr : ptr ∈ x.state.mEvtQue) :
    (x.state.postEvent e).2.event ptr = x.state.event ptr ∧
      ptr ∈ (x.state.postEvent e).2.mEvtQue := by
  rcases postEvent_eq h e with ⟨heq, -⟩ | ⟨node, dummy, allocated, heq, -, hnode, -⟩
  · rw [heq]
    exact ⟨rfl, hptr⟩
  · rw [heq]
    refine ⟨Function.update_of_ne ?_ .., List.mem_append_left _ hptr⟩
    rintro rfl
    exact hnode hptr

lemma LocalInv.posts_queued (es : List LocalEvt) (h : LocalInv x)
    (hptr : ptr ∈ x.state.mEvtQue) : (x.state.posts es).event ptr = x.state.event ptr := by
  induction es generalizing x with
  | nil => rfl
  | cons e es ih =>
    obtain ⟨heq, hmem⟩ := h.postEvent_queued e hptr
    exact (ih (h.postEvent e) hmem).trans heq

lemma postEvent_reuses {dummy : List Nat} (hd : s.mDummyEvtQue = ptr :: dummy)
    (hroom : s.mEvtQue.length < s.mMaxEvent) :
    (s.postEvent e).2.event ptr = e ∧ ptr ∈ (s.postEvent e).2.mEvtQue := by
  rw [EdLocalEvent.postEvent, if_neg (by omega), EdLocalEvent.queueNode, hd]
  unfold EdLocalEvent.raise
  dsimp only
  split
  · exact ⟨Function.update_self .., by simp⟩
  · exact ⟨Function.update_self .., by simp⟩

/-- When the listener is called its node is the first free one, and there is room for a post. -/
lemma LocalInv.pass_eq (h : LocalInv x) {que : List Nat} (hq : x.state.mEvtQue = ptr :: que)
    (left : Nat) : (x.state.pass left).event = x.state.event ∧
      (x.state.pass left).mDummyEvtQue = ptr :: x.state.mDummyEvtQue ∧
      (x.state.pass left).mEvtQue.length < (x.state.pass left).mMaxEvent := by
  have hlen := h.queue
  rw [hq, List.length_cons] at hlen
  rw [EdLocalEvent.pass, hq]
  exact ⟨rfl, rfl, hlen⟩

/-- The listener sees its event throughout exactly if the first event that it posts, if any, is
the same. -/
theorem stableEvent_iff (hr : localEvents.Reachable x) (hpc : x.state.pc = .loop (left + 1))
    {que : List Nat} (hq : x.state.mEvtQue = ptr :: que) :
    StableEvent (x.state.pass left) ptr es ↔ ∀ e ∈ es.head?, e = x.state.event ptr := by
  have h := localInv_reachable hr
  obtain ⟨hpass, -, -⟩ := h.pass hpc
  obtain ⟨hevent, hdummy, hroom⟩ := h.pass_eq hq left
  cases es with
  | nil =>
    refine ⟨fun _ e he => absurd he (by simp), fun _ pre hpre => ?_⟩
    rw [List.prefix_nil.mp hpre]
    rfl
  | cons e es =>
    obtain ⟨hfirst, hmem⟩ := postEvent_reuses (e := e) hdummy hroom
    simp only [List.head?_cons, Option.mem_some_iff, forall_eq']
    constructor
    · intro hstable
      have hone := hstable [e] (by simp)
      rw [hevent] at hone
      exact hfirst.symm.trans hone
    · intro he pre hpre
      cases pre with
      | nil => rfl
      | cons a pre =>
        obtain ⟨rfl, -⟩ := List.cons_prefix_cons.mp hpre
        -- the node is in the queue now, where the other posts do not write
        rw [hevent, ← he]
        exact ((hpass.postEvent a).posts_queued pre hmem).trans hfirst

/-- A read event with one event to deliver. -/
def oneToDeliver : List EdLocalEvent.Action := [.postEvent ⟨2, 2, 2⟩, .OnEventRead]

lemma oneToDeliver_reachable : ∃ x, localEvents.Reachable x ∧ x.state.pc = .loop (0 + 1) ∧
    x.state.mEvtQue = [0] ∧ x.state.event 0 = ⟨2, 2, 2⟩ := by
  obtain ⟨x, hr, hx⟩ := System.exists_of_exec (M := localEvents)
    (f := fun x => (x.state.pc, x.state.mEvtQue, x.state.event 0))
    (s := ⟨.opened 1000 (fun _ => ⟨0, 0, 0⟩), []⟩) (l := oneToDeliver)
    (b := (.loop 1, [0], ⟨2, 2, 2⟩)) ⟨⟨1000, _, by decide, rfl⟩, rfl⟩ (by decide +kernel)
  simp only [Prod.mk.injEq] at hx
  exact ⟨x, hr, hx⟩

theorem stableEvent_again : ∃ x, localEvents.Reachable x ∧ x.state.event 0 = ⟨2, 2, 2⟩ ∧
    StableEvent (x.state.pass 0) 0 [⟨2, 2, 2⟩, ⟨3, 3, 3⟩] := by
  obtain ⟨x, hr, hpc, hq, he⟩ := oneToDeliver_reachable
  exact ⟨x, hr, he, (stableEvent_iff hr hpc hq).mpr (by simp [he])⟩

/-- The listener posts two other events, and finds the first of them in its own. -/
theorem not_stableEvent : ¬ ∀ x, localEvents.Reachable x → ∀ left ptr que,
    x.state.pc = .loop (left + 1) → x.state.mEvtQue = ptr :: que →
      ∀ es, StableEvent (x.state.pass left) ptr es := by
  intro hall
  obtain ⟨x, hr, hpc, hq, he⟩ := oneToDeliver_reachable
  have hstable := hall x hr 0 0 [] hpc hq [⟨3, 3, 3⟩, ⟨4, 4, 4⟩]
  obtain ⟨hevent, hdummy, hroom⟩ := (localInv_reachable hr).pass_eq hq 0
  have hone := hstable [⟨3, 3, 3⟩] (by simp)
  rw [hevent, he] at hone
  exact absurd ((postEvent_reuses hdummy hroom).1.symm.trans hone) (by decide)

end EdNio.Event
