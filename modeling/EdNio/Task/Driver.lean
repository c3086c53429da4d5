import EdNio.Library.Simulation
import EdNio.Task.Count
import EdNio.Task.Wakeup

/-!
# Driving a task to rest

From every state of a run the task thread can go on, with handlers that return, until it
is back in `epoll_wait` with nothing queued or has left `closeMsg`. Every call of
`postEdMsg` and `sendEdMsg` can then return.
-/

namespace EdNio.Task
open Transition

variable {N : Int} {s t : State} {a : Action} {c : CallId}

/-- `closeMsg` is between its lock and its unlock. -/
def TaskPc.locking : TaskPc → Bool
  | .draining | .drain _ _ => true
  | _ => false

/-- The descriptor is open from `initMsg` to `closeMsg`, which alone keeps `mMsgMutex`. -/
structure GateInv (s : State) : Prop where
  mutex : s.mMsgMutex = s.pc.locking
  unborn : s.pc = .created → s.mMsgFd < 0 ∧ s.accepted = []
  alive : s.pc ≠ .created → s.pc.closing = false → 0 ≤ s.mMsgFd

lemma GateInv.step (hI : GateInv s) (h : Step N s a t) : GateInv t := by
  obtain ⟨hm, hu, ha⟩ := hI
  cases h with
  | initMsg fd hpc hfd =>
    exact ⟨by simp [hm, hpc, TaskPc.locking], by simp, fun _ _ => Int.le_of_lt hfd⟩
  | posted c k slot m empty fresh _ _ _ hfd | pushed c k slot m empty fresh _ _ _ hfd =>
    exact ⟨hm, fun hpc => absurd (hu hpc).1 (Int.not_lt.mpr hfd), ha⟩
  | closeMsg hpc => exact ⟨rfl, by simp [State.closeFd], by simp [State.closeFd, TaskPc.closing]⟩
  | closeEmpty hpc | drainEnd hpc => exact ⟨rfl, by simp, by simp [TaskPc.closing]⟩
  | drainSync slot rest hpc | drainPost slot rest hpc | drainLock slot c hpc
  | drainNotify slot c d hpc | drainUnlock slot c hpc =>
    exact ⟨by simp [hm, hpc, TaskPc.locking], by simp [hpc], by simp [hpc, TaskPc.closing]⟩
  | call | refused | queueFull | write | writeFails | wait | spuriousWake | resume | readNone =>
    exact ⟨hm, hu, ha⟩
  | createTaskMsgQue | destroyTaskMsgQue | setSendMsgResult | editMsg => exact ⟨hm, hu, ha⟩
  | _ =>
    refine ⟨?_, ?_, fun _ _ => ha ?_ ?_⟩ <;>
      simp_all [TaskPc.locking, TaskPc.closing, State.deliver, State.finish]

theorem reachable_gate (h : (queue N).Reachable s) : GateInv s :=
  h.invariant (fun _ h0 => h0 ▸ ⟨rfl, fun _ => ⟨by simp [State.init], rfl⟩, by simp [State.init]⟩)
    (fun _ _ _ _ hI _ hs => hI.step (step_cases hs))

/-- The steps of the task thread with handlers that only return, and of the senders that
are about to wait. -/
def driving : Action → Bool
  | .initMsg _ | .call _ | .enter _ | .spuriousWake _ | .resume _ => false
  | .createTaskMsgQue _ _ | .destroyTaskMsgQue _ => false
  | .setSendMsgResult _ | .editMsg _ => false
  | _ => true

/-- `driving`, in a run in which no call is before its write when `closeMsg` begins. -/
def drives (s : State) (a : Action) : Prop :=
  driving a = true ∧ quietClose s a = true

lemma drives.sync (h : drives s a) : (calm a && quietClose s a) = true := by
  have hc : calm a = true := by
    have hd := h.1
    cases a <;> simp_all [driving, calm]
  simp [hc, h.2]

/-- No sender is about to wait, nothing is queued, and the task thread has not begun, has
ended or stays in `epoll_wait`. -/
structure AtRest (s : State) : Prop where
  senders : ∀ k ∈ s.calls, k.pc ≠ .pushed ∧ k.pc ≠ .written
  queued : s.mQuedMsgs = []
  pc : s.pc = .created ∨ s.pc = .idle ∧ s.exit_flag = false ∨ s.pc = .closed

/-- Steps of the task thread before it takes the next message. An idle dispatcher reads
the eventfd and then pops, so the loop with iterations left counts less. -/
def TaskPc.restRank : TaskPc → Nat
  | .hand _ _ .popped => 12
  | .hand _ _ (.found _) => 11
  | .hand _ _ (.running _) => 10
  | .hand _ _ .handled => 9
  | .hand _ _ .locking => 8
  | .hand _ _ .locked => 7
  | .hand _ _ .notified => 6
  | .hand _ _ .recycling => 5
  | .loop 0 => 4
  | .loop (_ + 1) => 0
  | .idle => 3
  | .exited => 2
  | .draining => 1
  | .drain _ .locking => 4
  | .drain _ .locked => 3
  | .drain _ .notified => 2
  | .created => 0
  | .closed => 0

/-- Steps the senders have left before they wait. -/
def State.unwaited (s : State) : Nat :=
  2 * s.window + s.calls.countP (fun k => k.pc = .written)

def State.restRank (s : State) : Nat :=
  13 * s.mQuedMsgs.length + s.pc.restRank + s.unwaited

lemma unwaited_same {f : Call → Call} (hcalls : t.calls = s.calls.modify c f)
    (hf : ∀ k, ((f k).pc = .pushed ↔ k.pc = .pushed) ∧ ((f k).pc = .written ↔ k.pc = .written)) :
    t.unwaited = s.unwaited := by
  simp only [State.unwaited, State.window, hcalls]
  rw [countP_modify_same _ _ _ _ (fun k _ => by simp [(hf k).1]),
    countP_modify_same _ _ _ _ (fun k _ => by simp [(hf k).2])]

lemma Call.wake_unwaited (k : Call) :
    (k.wake.pc = .pushed ↔ k.pc = .pushed) ∧ (k.wake.pc = .written ↔ k.pc = .written) := by
  unfold Call.wake
  split <;> simp_all

/-- What `drives` does to the rank when only the program counter of the task thread moves. -/
lemma restRank_lt {p q : TaskPc} (hs : s.pc = p) (ht : t.pc = q) (hlt : q.restRank < p.restRank)
    (hq : t.mQuedMsgs = s.mQuedMsgs) (hc : t.unwaited = s.unwaited) :
    t.restRank < s.restRank := by
  simp only [State.restRank, hs, ht, hq, hc]
  omega

lemma sender_drives (h : SyncRun N s) {k : Call} (hk : s.calls[c]? = some k)
    (hpc : k.pc = .pushed ∨ k.pc = .written) :
    ∃ a t, drives s a ∧ (queue N).step s a = some t ∧ t.restRank < s.restRank := by
  have hcall : s.callPc c = some k.pc := by simp [State.callPc, hk]
  rcases hpc with hpc | hpc
  · have hfd : 0 ≤ s.mMsgFd := by
      have hp := (sync_inv h).phase c k hk
      simp only [State.Phase, hpc] at hp
      exact hp.2.2.2.2.2
    have hstep : (queue N).step s (.write c) = some (s.sendWrite c) := by
      simp [queue, step, hcall, hpc]
    refine ⟨.write c, _, ⟨rfl, rfl⟩, hstep, ?_⟩
    have h1 := countP_modify (fun k => decide (k.pc = .pushed)) s.calls c
      (fun k => { k with pc := .written }) hk
    have h2 := countP_modify (fun k => decide (k.pc = .written)) s.calls c
      (fun k => { k with pc := .written }) hk
    simp only [hpc, reduceCtorEq, decide_true, decide_false, if_true] at h1 h2
    simp only [State.restRank, State.unwaited, State.window, State.sendWrite, State.writeEventfd,
      hfd, if_true, State.updCall]
    simp at h1 h2 ⊢
    omega
  · have hstep : (queue N).step s (.wait c) =
        some (s.updCall c (fun k => { k with pc := .waiting, mtx := none })) := by
      simp [queue, step, hcall, hpc]
    refine ⟨.wait c, _, ⟨rfl, rfl⟩, hstep, ?_⟩
    have h1 := countP_modify (fun k => decide (k.pc = .pushed)) s.calls c
      (fun k => { k with pc := .waiting, mtx := none }) hk
    have h2 := countP_modify (fun k => decide (k.pc = .written)) s.calls c
      (fun k => { k with pc := .waiting, mtx := none }) hk
    simp only [State.restRank, State.unwaited, State.window, State.updCall]
    simp [hpc] at h1 h2 ⊢
    omega

/-- Every sender that is not at rest waits. -/
def State.Waited (s : State) : Prop :=
  ∀ k ∈ s.calls, k.pc ≠ .pushed ∧ k.pc ≠ .written

lemma State.Waited.window (hw : s.Waited) : s.window = 0 := by
  rw [State.window, List.countP_eq_zero]
  intro k hk
  simpa using (hw k hk).1

lemma State.Waited.quiet (hw : s.Waited) (a : Action) : quietClose s a = true := by
  cases a with
  | closeMsg => simpa [quietClose] using fun k hk => (hw k hk).1
  | _ => rfl

/-- The mutex of the sender whose message is next to be signalled is free. -/
lemma sender_free (h : SyncRun N s) (hw : s.Waited) {slot : Slot} (hslot : slot ∈ s.pc.pending)
    (hs : (s.msg slot).sync ≠ 0) (hl : s.pc.locked = []) :
    ∃ d, (s.msg slot).pmtx = some d ∧ s.callMtx d = some none := by
  have hI := sync_inv h
  obtain ⟨-, -, hmtx, -, k, hk, hb⟩ := hI.sender (reachable_accepted h.reachable)
    (reachable_history h.reachable) (reachable_link h.reachable)
    (List.mem_append_left _ hslot) hs
  refine ⟨_, hmtx, ?_⟩
  have hwait := hw k (List.mem_of_getElem? hk)
  rcases hb with hb | hb | hb
  · exact absurd hb hwait.1
  · exact absurd hb hwait.2
  · have hp := hI.phase _ k hk
    simp only [State.Phase, hb, State.Locked, hl, List.map_nil, List.not_mem_nil, false_and,
      not_false_eq_true, true_and, false_or] at hp
    simp [State.callMtx, hk, hp.2.2.2]

lemma hand_drives (h : SyncRun N s) (hw : s.Waited) {slot : Slot} {left : Nat} {stage : HandStage}
    (hpc : s.pc = .hand slot left stage) :
    ∃ a t, drives s a ∧ (queue N).step s a = some t ∧ t.restRank < s.restRank := by
  have hI := sync_inv h
  have hA := reachable_accepted h.reachable
  have hH := reachable_history h.reachable
  have hL := reachable_link h.reachable
  have hm : s.mMsgMutex = false := by rw [(reachable_gate h.reachable).mutex, hpc]; rfl
  cases stage with
  | popped =>
    have hstep : (queue N).step s .branch = some (s.branch slot left) := by
      simp [queue, step, hpc]
    refine ⟨.branch, _, ⟨rfl, rfl⟩, hstep, ?_⟩
    unfold State.branch
    split
    · exact restRank_lt hpc (q := .hand slot left .handled) rfl (by simp [TaskPc.restRank]) rfl rfl
    · split
      · exact restRank_lt hpc (q := .hand slot left (.running .onEventProc)) rfl
          (by simp [TaskPc.restRank]) rfl rfl
      · exact restRank_lt hpc rfl (by simp [TaskPc.restRank]) rfl rfl
  | found pinfo =>
    cases pinfo with
    | some hd =>
      have hstep : (queue N).step s .invoke = some (s.deliver slot left (.listener hd)) := by
        simp [queue, step, hpc]
      exact ⟨.invoke, _, ⟨rfl, rfl⟩, hstep, restRank_lt hpc (q := .hand slot left (.running _)) rfl
        (by simp [TaskPc.restRank]) rfl rfl⟩
    | none =>
      have hstep : (queue N).step s .invoke = some (s.finish slot left) := by
        simp [queue, step, hpc]
      exact ⟨.invoke, _, ⟨rfl, rfl⟩, hstep, restRank_lt hpc (q := .hand slot left .handled) rfl
        (by simp [TaskPc.restRank]) rfl rfl⟩
  | running target =>
    have hstep : (queue N).step s .handlerReturn = some (s.finish slot left) := by
      simp [queue, step, hpc]
    exact ⟨.handlerReturn, _, ⟨rfl, rfl⟩, hstep, restRank_lt hpc (q := .hand slot left .handled) rfl
      (by simp [TaskPc.restRank]) rfl rfl⟩
  | handled =>
    by_cases hs : (s.msg slot).sync = 0
    · exact ⟨.checkSync, _, ⟨rfl, rfl⟩,
        (by simp [queue, step, hpc, hs] :
          (queue N).step s .checkSync = some { s with pc := .hand slot left .recycling }),
        restRank_lt hpc rfl (by simp [TaskPc.restRank]) rfl rfl⟩
    · exact ⟨.checkSync, _, ⟨rfl, rfl⟩,
        (by simp [queue, step, hpc, hs] :
          (queue N).step s .checkSync = some { s with pc := .hand slot left .locking }),
        restRank_lt hpc rfl (by simp [TaskPc.restRank]) rfl rfl⟩
  | locking =>
    obtain ⟨d, hd, hfree⟩ := sender_free h hw (by simp [hpc, TaskPc.pending])
      (hL.sync slot (by simp [hpc, TaskPc.signalling])) (by simp [hpc, TaskPc.locked])
    refine ⟨.lockMtx, _, ⟨rfl, rfl⟩,
      (by simp [queue, step, hpc, State.lockPmtx, hd, hfree] : (queue N).step s .lockMtx =
        some { s.updCall d (fun k => { k with mtx := some .task }) with
          pc := .hand slot left .locked }), ?_⟩
    exact restRank_lt hpc rfl (by simp [TaskPc.restRank]) rfl
      (unwaited_same rfl (fun _ => ⟨Iff.rfl, Iff.rfl⟩))
  | locked =>
    obtain ⟨-, hcv, -⟩ := hI.sender hA hH hL (by simp [hpc, TaskPc.pending])
      (hL.sync slot (by simp [hpc, TaskPc.signalling]))
    refine ⟨.notify, _, ⟨rfl, rfl⟩,
      (by simp [queue, step, hpc, State.notifyPcv, hcv] : (queue N).step s .notify =
        some { s.updCall (s.owner slot) Call.wake with pc := .hand slot left .notified }), ?_⟩
    exact restRank_lt hpc rfl (by simp [TaskPc.restRank]) rfl
      (unwaited_same rfl Call.wake_unwaited)
  | notified =>
    have hslot : slot ∈ s.pc.notified := by simp [hpc, TaskPc.notified]
    obtain ⟨-, -, hmtx, -⟩ := hI.notified hA hH hL hslot
    refine ⟨.unlockMtx, _, ⟨rfl, rfl⟩,
      (by simp [queue, step, hpc, State.unlockPmtx, hmtx] : (queue N).step s .unlockMtx =
        some { s.updCall (s.owner slot) (fun k => { k with mtx := none }) with
          pc := .hand slot left .recycling }), ?_⟩
    exact restRank_lt hpc rfl (by simp [TaskPc.restRank]) rfl
      (unwaited_same rfl (fun _ => ⟨Iff.rfl, Iff.rfl⟩))
  | recycling =>
    refine ⟨.recycle, _, ⟨rfl, rfl⟩, (by simp [queue, step, hpc, hm] : (queue N).step s .recycle =
      some { s with mEmptyMsgs := s.mEmptyMsgs ++ [slot], pc := .loop left }), ?_⟩
    exact restRank_lt hpc rfl (by cases left <;> simp [TaskPc.restRank]) rfl rfl

lemma drain_drives (h : SyncRun N s) (hw : s.Waited) {slot : Slot} {stage : DrainStage}
    (hpc : s.pc = .drain slot stage) :
    ∃ a t, drives s a ∧ (queue N).step s a = some t ∧ t.restRank < s.restRank := by
  have hI := sync_inv h
  have hA := reachable_accepted h.reachable
  have hH := reachable_history h.reachable
  have hL := reachable_link h.reachable
  have hs := hL.sync slot (by simp [hpc, TaskPc.signalling])
  cases stage with
  | locking =>
    obtain ⟨d, hd, hfree⟩ := sender_free h hw (by simp [hpc, TaskPc.pending]) hs
      (by simp [hpc, TaskPc.locked])
    refine ⟨.drainLock, _, ⟨rfl, rfl⟩,
      (by simp [queue, step, hpc, State.lockPmtx, hd, hfree] : (queue N).step s .drainLock =
        some { s.updCall d (fun k => { k with mtx := some .task }) with
          pc := .drain slot .locked }), ?_⟩
    exact restRank_lt hpc rfl (by simp [TaskPc.restRank]) rfl
      (unwaited_same rfl (fun _ => ⟨Iff.rfl, Iff.rfl⟩))
  | locked =>
    obtain ⟨hres, hcv, -⟩ := hI.sender hA hH hL (by simp [hpc, TaskPc.pending]) hs
    refine ⟨.drainNotify, _, ⟨rfl, rfl⟩,
      (by simp [queue, step, hpc, hres, State.notifyPcv, State.updCall, hcv] :
        (queue N).step s .drainNotify =
          some { (s.updCall (s.owner slot) (fun k => { k with result := -1000 })).updCall
            (s.owner slot) Call.wake with pc := .drain slot .notified }), ?_⟩
    refine restRank_lt hpc rfl (by simp [TaskPc.restRank]) rfl
      (Eq.trans (unwaited_same rfl Call.wake_unwaited) ?_)
    exact unwaited_same (f := fun k => { k with result := -1000 }) rfl
      (fun _ => ⟨Iff.rfl, Iff.rfl⟩)
  | notified =>
    have hslot : slot ∈ s.pc.notified := by simp [hpc, TaskPc.notified]
    obtain ⟨-, -, hmtx, -⟩ := hI.notified hA hH hL hslot
    refine ⟨.drainUnlock, _, ⟨rfl, rfl⟩,
      (by simp [queue, step, hpc, State.unlockPmtx, hmtx] : (queue N).step s .drainUnlock =
        some { ({ s with mEmptyMsgs := s.mEmptyMsgs ++ [slot] } : State).updCall (s.owner slot)
          (fun k => { k with mtx := none }) with pc := .draining }), ?_⟩
    exact restRank_lt hpc rfl (by simp [TaskPc.restRank]) rfl
      (unwaited_same rfl (fun _ => ⟨Iff.rfl, Iff.rfl⟩))

/-- Until the task is at rest there is a step that brings it closer. -/
theorem drive_step (hN : N < 2 ^ 31 - 1) (h : SyncRun N s) (hne : ¬ AtRest s) :
    ∃ a t, drives s a ∧ (queue N).step s a = some t ∧ t.restRank < s.restRank := by
  by_cases hw : s.Waited
  swap
  · simp only [State.Waited, not_forall] at hw
    obtain ⟨k, hk, hpc⟩ := hw
    obtain ⟨c, hc⟩ := List.getElem?_of_mem hk
    exact sender_drives h hc (by tauto)
  have hH := reachable_history h.reachable
  have hC := reachable_count hN h.reachable
  have hP := reachable_pool hN h.reachable
  have hG := reachable_gate h.reachable
  have hcount := hC.count
  have hwin := hw.window
  cases hpc : s.pc with
  | created =>
    have hq := hH.order
    rw [(hG.unborn hpc).2] at hq
    refine absurd ⟨hw, ?_, .inl hpc⟩ hne
    exact List.map_eq_nil_iff.mp (List.append_eq_nil_iff.mp hq.symm).2
  | closed => exact absurd ⟨hw, closed_queue hN h.reachable hpc, .inr (.inr hpc)⟩ hne
  | idle =>
    cases hx : s.exit_flag with
    | true =>
      have hstep : (queue N).step s .leaveLoop = some { s with pc := .exited } := by
        simp [queue, step, hpc, hx]
      exact ⟨.leaveLoop, _, ⟨rfl, rfl⟩, hstep, restRank_lt hpc rfl (by simp [TaskPc.restRank])
        rfl rfl⟩
    | false =>
      have hq : s.mQuedMsgs ≠ [] := fun hq => hne ⟨hw, hq, .inr (.inl ⟨hpc, hx⟩)⟩
      have hb := hcount (by simp [hpc, TaskPc.closing])
      rw [hpc, hwin] at hb
      have he : s.eventfd = s.mQuedMsgs.length := by simpa [TaskPc.left] using hb.symm
      have hlen : s.mQuedMsgs.length ≠ 0 := by simpa using hq
      have hcnt : (MachineInt.toI32 s.eventfd).toNat = s.mQuedMsgs.length := by
        rw [hP.toI32_eventfd hN (by omega), he, Int.toNat_natCast]
      have hstep : (queue N).step s .msgevent_cb =
          some { s with eventfd := 0, pc := .loop s.mQuedMsgs.length } := by
        rw [← hcnt]
        simp [queue, step, hpc, hx, show s.eventfd ≠ 0 by omega]
      refine ⟨.msgevent_cb, _, ⟨rfl, rfl⟩, hstep, restRank_lt hpc rfl ?_ rfl rfl⟩
      cases hl : s.mQuedMsgs.length with
      | zero => exact absurd hl hlen
      | succ n => simp [TaskPc.restRank]
  | loop left =>
    have hm : s.mMsgMutex = false := by
      rw [hG.mutex, hpc]
      rfl
    cases left with
    | zero =>
      have hstep : (queue N).step s .endLoop = some { s with pc := .idle } := by
        simp [queue, step, hpc]
      exact ⟨.endLoop, _, ⟨rfl, rfl⟩, hstep, restRank_lt hpc rfl (by simp [TaskPc.restRank])
        rfl rfl⟩
    | succ left =>
      have hb := hcount (by simp [hpc, TaskPc.closing])
      rw [hpc] at hb
      cases hq : s.mQuedMsgs with
      | nil =>
        simp only [hq, TaskPc.left, List.length_nil] at hb
        omega
      | cons slot rest =>
        have hstep : (queue N).step s .popMsg = some { s with
            mQuedMsgs := rest
            pc := .hand slot left .popped
            dispatched := s.dispatched ++ [s.owner slot] } := by
          simp [queue, step, hpc, hm, State.popMsg, hq]
        refine ⟨.popMsg, _, ⟨rfl, rfl⟩, hstep, ?_⟩
        simp only [State.restRank, hpc, hq, TaskPc.restRank, List.length_cons, State.unwaited,
          State.window]
        omega
  | hand slot left stage => exact hand_drives h hw hpc
  | exited =>
    have hm : s.mMsgMutex = false := by
      rw [hG.mutex, hpc]
      rfl
    have hstep : (queue N).step s .closeMsg = some s.closeMsg := by simp [queue, step, hpc, hm]
    refine ⟨.closeMsg, _, ⟨rfl, hw.quiet _⟩, hstep, ?_⟩
    unfold State.closeMsg
    split
    · exact restRank_lt hpc (q := .draining) rfl (by simp [TaskPc.restRank]) rfl rfl
    · exact restRank_lt hpc (q := .closed) rfl (by simp [TaskPc.restRank]) rfl rfl
  | draining =>
    cases hq : s.mQuedMsgs with
    | nil =>
      have hstep : (queue N).step s .drainEnd = some s.freeEmpty := by
        simp [queue, step, hpc, hq]
      exact ⟨.drainEnd, _, ⟨rfl, rfl⟩, hstep, restRank_lt hpc (q := .closed) rfl
        (by simp [TaskPc.restRank]) rfl rfl⟩
    | cons slot rest =>
      have hstep : (queue N).step s .drainPop = some (s.drainPop slot rest) := by
        simp [queue, step, hpc, hq]
      refine ⟨.drainPop, _, ⟨rfl, rfl⟩, hstep, ?_⟩
      unfold State.drainPop
      split <;>
        simp only [State.restRank, hpc, hq, TaskPc.restRank, List.length_cons, State.unwaited,
          State.window] <;>
        omega
  | drain slot stage => exact drain_drives h hw hpc

/-- The task comes to rest. -/
theorem SyncRun.comes_to_rest (hN : N < 2 ^ 31 - 1) (h : SyncRun N s) :
    ∃ t, (queue N).LeadsBy drives s t ∧ AtRest t := by
  generalize hr : s.restRank = r
  induction r using Nat.strongRecOn generalizing s with
  | ind r ih =>
    by_cases hq : AtRest s
    · exact ⟨s, .refl, hq⟩
    · obtain ⟨a, t, ha, hs, hlt⟩ := drive_step hN h hq
      obtain ⟨u, hl, hu⟩ := ih _ (hr ▸ hlt) (.step h ha.sync hs) rfl
      exact ⟨u, .head ha hs hl, hu⟩

/-- The steps of `drives` and those of the call `c` itself. -/
def serves (c : CallId) (s : State) (a : Action) : Prop :=
  (driving a = true ∨ a = .enter c ∨ a = .resume c) ∧ quietClose s a = true

lemma serves.sync (h : serves c s a) : (calm a && quietClose s a) = true := by
  rcases h.1 with hd | rfl | rfl
  · exact drives.sync ⟨hd, h.2⟩
  · rfl
  · rfl

lemma drives.serves (h : drives s a) : serves c s a :=
  ⟨.inl h.1, h.2⟩

lemma SyncRun.leadsBy (h : SyncRun N s) (hl : (queue N).LeadsBy (serves c) s t) : SyncRun N t :=
  Transition.System.Reaches.leadsBy h (hl.mono (fun _ _ ha => ha.sync))

lemma Step.started (h : Step N s a t) (hs : Started s.calls c) : Started t.calls c := by
  cases h with
  | call => exact hs.append _
  | setSendMsgResult slot left target code hpc =>
    simp only [State.setSendMsgResult]
    split
    · split
      · exact hs.modify _ (fun _ h => h)
      · exact hs
    · exact hs
  | spuriousWake | notify => exact hs.modify _ Call.wake_pc
  | drainNotify slot d e =>
    have h1 := hs.modify d (f := fun k => { k with result := -1000 }) (fun _ h => h)
    exact h1.modify e Call.wake_pc
  | lockMtx | unlockMtx | drainLock | drainUnlock => exact hs.modify _ (fun _ h => h)
  | refused | queueFull | posted | pushed | write | writeFails | wait | resume =>
    exact hs.modify _ (fun _ _ => by simp [Call.leave, Call.push])
  | _ => exact hs

lemma Step.entered (h : Step N s (.enter c) t) : Started t.calls c := by
  cases h with
  | refused _ k hk => exact ⟨k.leave .refused, by simp [hk], by simp [Call.leave]⟩
  | queueFull _ k hk => exact ⟨k.leave .queueFull, by simp [hk], by simp [Call.leave]⟩
  | posted _ k slot m empty fresh hk =>
    exact ⟨k.leave (.posted 0), by simp [hk], by simp [Call.leave]⟩
  | pushed _ k slot m empty fresh hk => exact ⟨k.push, by simp [hk], by simp [Call.push]⟩

/-- In a task at rest a call that is past its section under `mMsgMutex` returns. -/
lemma AtRest.returns (h : SyncRun N s) (hq : AtRest s) {k : Call} (hk : s.calls[c]? = some k)
    (hpc : k.pc ≠ .called) :
    ∃ t o, (queue N).LeadsBy (serves c) s t ∧ t.callPc c = some (.returned o) := by
  have hcall : s.callPc c = some k.pc := by simp [State.callPc, hk]
  have hwait := hq.senders k (List.mem_of_getElem? hk)
  have hp := (sync_inv h).phase c k hk
  have hu : ¬ s.Unsettled c := by
    rcases hq.pc with hc | ⟨hc, -⟩ | hc <;>
      simp [State.Unsettled, hc, TaskPc.pending, hq.queued]
  have hn : ¬ s.Notified c := by
    rcases hq.pc with hc | ⟨hc, -⟩ | hc <;> simp [State.Notified, hc, TaskPc.notified]
  cases hkpc : k.pc with
  | called => exact absurd hkpc hpc
  | pushed => exact absurd hkpc hwait.1
  | written => exact absurd hkpc hwait.2
  | waiting =>
    simp only [State.Phase, hkpc] at hp
    exact absurd hp.2.1 hu
  | woken =>
    simp only [State.Phase, hkpc, hn, false_and, not_false_eq_true, true_and, false_or] at hp
    have hstep : (queue N).step s (.resume c) =
        some (s.updCall c (fun k => k.leave (.replied k.result))) := by
      simp [queue, step, hcall, hkpc, State.callMtx, hk, hp.2.2.2.2]
    refine ⟨_, .replied k.result, .single ⟨.inr (.inr rfl), rfl⟩ hstep, ?_⟩
    simp [State.callPc, State.updCall, hk, Call.leave]
  | returned o => exact ⟨s, o, .refl, by rw [hcall, hkpc]⟩

lemma SyncRun.started_returns (hN : N < 2 ^ 31 - 1) (h : SyncRun N s) (hc : Started s.calls c) :
    ∃ t o, (queue N).LeadsBy (serves c) s t ∧ t.callPc c = some (.returned o) := by
  obtain ⟨t, hl, hq⟩ := h.comes_to_rest hN
  have hl' : (queue N).LeadsBy (serves c) s t := hl.mono (fun _ _ ha => ha.serves)
  have hstart : Started t.calls c :=
    hl.invariant (I := fun s => Started s.calls c) hc
      (fun _ _ _ hs _ hst => (step_cases hst).started hs)
  obtain ⟨k, hk, hpc⟩ := hstart
  obtain ⟨u, o, hu, ho⟩ := hq.returns (h.leadsBy hl') hk hpc
  exact ⟨u, o, hl'.trans hu, ho⟩

/-- With handlers that return, each call of `postEdMsg` or `sendEdMsg` can return. -/
theorem SyncRun.returns (hN : N < 2 ^ 31 - 1) (h : SyncRun N s) (hc : c < s.calls.length) :
    ∃ t o, (queue N).LeadsBy (serves c) s t ∧ t.callPc c = some (.returned o) := by
  obtain ⟨t, hl, hq⟩ := h.comes_to_rest hN
  have hl' : (queue N).LeadsBy (serves c) s t := hl.mono (fun _ _ ha => ha.serves)
  have ht := h.leadsBy hl'
  obtain ⟨b, hb⟩ : ∃ b, t.callArgs c = some b :=
    ⟨s.calls[c].args, hl.invariant (I := fun s' => s'.callArgs c = some s.calls[c].args)
      (by simp [State.callArgs, hc]) (fun _ _ _ hs _ hst => (step_cases hst).callArgs hs)⟩
  obtain ⟨k, hk, -⟩ := Option.map_eq_some_iff.mp hb
  by_cases hpc : k.pc = .called
  · have hm : t.mMsgMutex = false := by
      rw [(reachable_gate ht.reachable).mutex]
      rcases hq.pc with hp | ⟨hp, -⟩ | hp <;> simp [hp, TaskPc.locking]
    obtain ⟨u, hu⟩ : ∃ u, (queue N).step t (.enter c) = some u := by
      cases ha : k.args.api <;> simp [queue, step, hk, hpc, hm, ha]
    have hen : serves c t (.enter c) := ⟨.inr (.inl rfl), rfl⟩
    obtain ⟨v, o, hv, ho⟩ :=
      SyncRun.started_returns hN (.step ht hen.sync hu) (Step.entered (step_cases hu))
    exact ⟨v, o, hl'.trans (.head hen hu hv), ho⟩
  · obtain ⟨u, o, hu, ho⟩ := SyncRun.started_returns hN ht ⟨k, hk, hpc⟩
    exact ⟨u, o, hl'.trans hu, ho⟩

end EdNio.Task
