import EdNio.Task.Driver
import EdNio.Task.Routing

/-!
# Terminating a task

`terminate` posts `EDM_EXIT` and joins the thread of the task. The thread can come to its end
without a further message when, and only when, a message `EDM_EXIT` was accepted.
-/

namespace EdNio.Task
open Transition

variable {N : Int} {s t : State} {a : Action}

/-- `postExit`, and what `terminate` posts before it joins. -/
def postExit : CallArgs :=
  postMsg EDM_EXIT 0 0

/-- An `EDM_EXIT` was accepted. -/
def State.ExitAccepted (s : State) : Prop :=
  ∃ c ∈ s.accepted, ∃ b, s.callArgs c = some b ∧ b.msgid = EDM_EXIT

/-- The thread has left its loop. -/
def TaskPc.leftLoop : TaskPc → Bool
  | .exited | .draining | .drain _ _ | .closed => true
  | _ => false

/-- The loop is left for `exit_flag` only. -/
lemma reachable_exit (h : (queue N).Reachable s) : s.pc.leftLoop = true → s.exit_flag = true := by
  refine h.invariant (I := fun s => s.pc.leftLoop = true → s.exit_flag = true) ?_
    (fun s a t _ hI _ hs => ?_)
  · rintro _ rfl hp
    cases hp
  · have hst := step_cases hs
    cases hst <;> simp_all [TaskPc.leftLoop, State.closeFd, State.deliver, State.finish,
      State.setSendMsgResult, State.createTaskMsgQue, State.destroyTaskMsgQue]

lemma drives_accepted (h : Step N s a t) (ha : driving a = true) : t.accepted = s.accepted := by
  rcases h.accepted with heq | ⟨c, k, rfl, -⟩
  · exact heq
  · cases ha

/-- The end of `closeMsg` can be reached without a further message if and only if an `EDM_EXIT`
was accepted. -/
theorem terminates_iff (hN : N < 2 ^ 31 - 1) (h : SyncRun N s) :
    (∃ t, (queue N).LeadsBy drives s t ∧ t.pc = .closed) ↔ s.ExitAccepted := by
  have hacc : ∀ t, (queue N).LeadsBy drives s t → t.accepted = s.accepted := fun t hl =>
    hl.invariant (I := fun t => t.accepted = s.accepted) rfl
      (fun _ _ _ hI hok hs => (drives_accepted (step_cases hs) hok.1).trans hI)
  have hargs : ∀ t c b, (queue N).LeadsBy drives s t → s.callArgs c = some b →
      t.callArgs c = some b := fun t c b hl hb =>
    hl.invariant (I := fun t => t.callArgs c = some b) hb
      (fun _ _ _ hI _ hs => (step_cases hs).callArgs hI)
  have hrun : ∀ t, (queue N).LeadsBy drives s t → SyncRun N t := fun t hl =>
    System.Reaches.leadsBy h (hl.mono (fun _ _ ha => ha.sync))
  constructor
  · rintro ⟨t, hl, hpc⟩
    have ht := (hrun t hl).reachable
    have hx : t.exit_flag = true := reachable_exit ht (by rw [hpc]; rfl)
    obtain ⟨c, hc, b, hb, hid⟩ := (reachable_routing ht).exit.mp hx
    have hmem : c ∈ s.accepted := by
      rw [← hacc t hl, (reachable_history ht).order]
      exact List.mem_append_left _ (List.mem_append_left _ (finished_dispatched ht hc))
    obtain ⟨k, hk, -⟩ := (reachable_history h.reachable).started c hmem
    have hb' : s.callArgs c = some k.args := by simp [State.callArgs, hk]
    obtain rfl : k.args = b := Option.some.inj ((hargs t c _ hl hb').symm.trans hb)
    exact ⟨c, hmem, _, hb', hid⟩
  · rintro ⟨c, hc, b, hb, hid⟩
    obtain ⟨t, hl, hq⟩ := h.comes_to_rest hN
    have ht := (hrun t hl).reachable
    have hct : c ∈ t.accepted := hacc t hl ▸ hc
    refine ⟨t, hl, ?_⟩
    rcases hq.pc with hpc | ⟨hpc, hx⟩ | hpc
    · rw [((reachable_gate ht).unborn hpc).2] at hct
      cases hct
    · -- everything accepted was handled, so the flag would be set
      have hdr := (reachable_history ht).undrained (by rw [hpc]; rfl)
      have hfin := (reachable_handling ht).finished
      rw [(reachable_history ht).order, hdr, hq.queued, hfin, hpc] at hct
      have hflag := (reachable_routing ht).exit.mpr
        ⟨c, by simpa [TaskPc.inHandler] using hct, b, hargs t c b hl hb, hid⟩
      rw [hx] at hflag
      cases hflag
    · exact hpc

/-- A message is handled and a sender waits when `postExit` is called. -/
def exitRun : List Action :=
  [.initMsg 5, .call (postMsg 1000 0 0), .enter 0, .msgevent_cb, .popMsg, .branch,
    .call postExit, .enter 1, .call (sendMsg 1001 0 0), .enter 2, .write 2]

theorem terminates_iff_exitRun : ∃ s, SyncRun 4 s ∧ s.exit_flag = false ∧ s.mQuedMsgs ≠ [] ∧
    ∃ t, (queue 4).LeadsBy drives s t ∧ t.pc = .closed := by
  obtain ⟨s, hr, hs⟩ := System.exists_of_exec_restrict (M := queue 4)
    (T := fun s a => calm a && quietClose s a) rfl
    (show (((queue 4).restrict fun s a => calm a && quietClose s a).exec State.init
      exitRun).map (fun s => (s.exit_flag, s.mQuedMsgs, s.accepted, s.callArgs 1)) =
        some (false, [1, 2], [0, 1, 2], some postExit) by decide +kernel)
  simp only [Prod.mk.injEq] at hs
  obtain ⟨hx, hq, hacc, hargs⟩ := hs
  refine ⟨s, hr, hx, by simp [hq], (terminates_iff (by decide) hr).mpr ?_⟩
  exact ⟨1, by simp [hacc], postExit, hargs, rfl⟩

end EdNio.Task
