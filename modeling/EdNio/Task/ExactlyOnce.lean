import EdNio.Task.Addressees
import EdNio.Task.Count

/-!
# Each message once

An accepted message is dispatched or drained once, and a dispatched one is given to its handler.
`closeMsg` drains the queue if `mQuedMsgs.size() > 0`. The size is an `int`: with `2 ^ 31` messages
queued it is negative, and all of them are left behind.
-/

namespace EdNio.Task
open MachineInt Transition

/-- Messages are taken in the order in which they were accepted, each is dispatched or drained
once, and none is left after `closeMsg`. Each one dispatched is looked at once and given to its
addressee. No slot is in two places or handed to a call while it is in use. -/
structure ExactlyOnce (N : Int) (x : Recorded State (CallId × Bool)) : Prop where
  fifo : x.state.dispatched <+: x.state.accepted
  nodup : x.state.accepted.Nodup
  accepted : ∀ c k, x.state.calls[c]? = some k → (k.pc.accepted = true ↔ c ∈ x.state.accepted)
  looked : x.state.dispatched = x.log.map Prod.fst ++ x.state.unlooked
  given : x.state.given ++ x.state.uncalled = x.log.filterMap x.state.addressed
  once : ∀ c ∈ x.state.accepted, x.state.dispatched.count c + x.state.drained.count c +
    (x.state.mQuedMsgs.map x.state.owner).count c = 1
  closed : x.state.pc = .closed → ∀ c ∈ x.state.accepted,
    x.state.dispatched.count c + x.state.drained.count c = 1
  slots : ∀ slot ∈ x.state.mQuedMsgs, slot ∉ x.state.mEmptyMsgs ∧ slot ∉ x.state.pc.inHand
  alloc : ∀ slot t, x.state.allocMsgObj N = some (slot, t) →
    slot ∉ x.state.mQuedMsgs ∧ slot ∉ x.state.pc.inHand

/-- All of it holds as long as `closeMsg` leaves no message queued. -/
lemma exactlyOnce {N : Int} {x : Recorded State (CallId × Bool)} (h : (lookups N).Reachable x)
    (hclosed : x.state.pc = .closed → x.state.mQuedMsgs = []) : ExactlyOnce N x := by
  have hr : (queue N).Reachable x.state := h.of_recorded
  have hS := reachable_slots hr
  have hH := reachable_history hr
  have hL := reachable_lookups h
  have hcount : ∀ c ∈ x.state.accepted, x.state.dispatched.count c + x.state.drained.count c +
      (x.state.mQuedMsgs.map x.state.owner).count c = 1 := by
    intro c hc
    have hone := List.count_eq_one_of_mem hH.nodup hc
    rw [hH.order, List.count_append, List.count_append] at hone
    exact hone
  refine ⟨?_, hH.nodup, ?_, hL.looked, hL.given, hcount, ?_, ?_, ?_⟩
  · rw [hH.order, List.append_assoc]
    exact List.prefix_append _ _
  · intro c k hk
    rw [reachable_accepted hr c]
    simp [hk]
  · intro hpc c hc
    simpa [hclosed hpc] using hcount c hc
  · intro slot hq
    have hn := hS.nodup
    simp only [State.slots, List.nodup_append', List.disjoint_left] at hn
    exact ⟨hn.2.2 (List.mem_append_right _ hq), fun hh => hn.1.2.2 hh hq⟩
  · intro slot t ha
    have hb := (allocMsgObj_spec ha).1.not_busy hS
    exact ⟨hb.2, hb.1⟩

/-- With the largest limit `closeMsg` can find `2 ^ 31` messages and leave them queued. -/
lemma left_reachable : ∃ s, (queue (2 ^ 31 - 1)).Reachable s ∧ s.pc = .closed ∧
    s.mQuedMsgs.length = 2 ^ 31 := by
  obtain ⟨s, hr, hpc, hempty, hqueued, -, -, hfd, hmutex, hexit⟩ := burst_idle true
  have hleave : (queue (2 ^ 31 - 1)).step s .leaveLoop = some { s with pc := .exited } := by
    simp [queue, step, hpc, hexit]
  obtain ⟨t, hl, hq, -, -, -, -, hm, hexited, -⟩ := post_leads (N := 2 ^ 31 - 1)
    (s := { s with pc := .exited }) (by simp [hfd]) hmutex (.inl (by simp [hempty]))
  have hlen : t.mQuedMsgs.length = 2 ^ 31 := by
    rw [hq, hqueued]
    rfl
  have hsize : ¬ 0 < State.size t.mQuedMsgs := by
    unfold State.size
    rw [hlen]
    decide
  have hclose : (queue (2 ^ 31 - 1)).step t .closeMsg = some t.closeFd.freeEmpty := by
    simp [queue, step, hexited, hm, hmutex, State.closeMsg, hsize]
  exact ⟨_, .step ((hr.leads (.head hleave hl))) trivial hclose, rfl, hlen⟩

/-- A message that `closeMsg` leaves behind is neither dispatched nor drained. -/
lemma lost_reachable : ∃ x, (lookups (2 ^ 31 - 1)).Reachable x ∧
    ¬ ExactlyOnce (2 ^ 31 - 1) x := by
  obtain ⟨s, hr, hpc, hlen⟩ := left_reachable
  obtain ⟨x, hx, rfl⟩ : ∃ x, (lookups (2 ^ 31 - 1)).Reachable x ∧ x.state = s :=
    hr.exists_recorded
  refine ⟨x, hx, fun h => ?_⟩
  cases hq : x.state.mQuedMsgs with
  | nil => simp [hq] at hlen
  | cons slot rest =>
    have hqueued : x.state.owner slot ∈ x.state.mQuedMsgs.map x.state.owner := by simp [hq]
    have hacc : x.state.owner slot ∈ x.state.accepted := by
      rw [(reachable_history hr).order]
      exact List.mem_append_right _ hqueued
    have hpos := List.count_pos_iff.mpr hqueued
    have honce := h.once _ hacc
    have hclosed := h.closed hpc _ hacc
    omega

/-- Every message is dispatched or drained exactly once, in every run, if and only if the limit
given to `run` is below the largest `int`. -/
theorem fifo_exactly_once_iff (msgqnum : Int) :
    (∀ x, (lookups (toI32 msgqnum)).Reachable x → ExactlyOnce (toI32 msgqnum) x) ↔
      toI32 msgqnum ≠ 2 ^ 31 - 1 := by
  constructor
  · intro h hmax
    obtain ⟨x, hx, hlost⟩ := lost_reachable
    rw [hmax] at h
    exact hlost (h x hx)
  · intro hne x hx
    have hlt : toI32 msgqnum < 2 ^ 31 := by
      have := Int.bmod_lt (x := msgqnum) (m := 2 ^ 32) (by decide)
      unfold toI32
      omega
    exact exactlyOnce hx (closed_queue (by omega) hx.of_recorded)

theorem not_fifo_exactly_once : ¬ ∀ x, (lookups (2 ^ 31 - 1)).Reachable x →
    ExactlyOnce (2 ^ 31 - 1) x := by
  intro h
  obtain ⟨x, hx, hlost⟩ := lost_reachable
  exact hlost (h x hx)

end EdNio.Task
