import EdNio.Task.Queue

/-!
# What a step of the message queue can do

`Step` lists the effects of the steps with their guards. The invariants are proved by
cases on it, without unfolding the functions of the queue.
-/

namespace EdNio.Task
open MachineInt Transition

/-- What `allocMsgObj` can return: the first slot of `mEmptyMsgs` with its old content
`m`, or a zeroed fresh slot when `mEmptyMsgs` is empty and the limit leaves room. The
lists `empty` and `fresh` are those after the call. -/
inductive Alloc (mMaxMsqQueSize : Int) (s : State) :
    (slot : Slot) → (m : EdMsg) → (empty : List Slot) → (fresh : Slot) → Prop
  | recycled {slot : Slot} {rest : List Slot} : s.mEmptyMsgs = slot :: rest →
      Alloc mMaxMsqQueSize s slot (s.msg slot) rest s.fresh
  | new : s.mEmptyMsgs = [] → toI32 (State.size [] + State.size s.mQuedMsgs) < mMaxMsqQueSize →
      Alloc mMaxMsqQueSize s s.fresh EdMsg.zero [] (s.fresh + 1)

lemma allocMsgObj_spec {N : Int} {s t : State} {slot : Slot}
    (h : s.allocMsgObj N = some (slot, t)) :
    Alloc N s slot (t.msg slot) t.mEmptyMsgs t.fresh ∧
      ∃ f : Slot → EdMsg, (∀ m, Function.update f slot m = Function.update s.msg slot m) ∧
        t = { s with mEmptyMsgs := t.mEmptyMsgs, fresh := t.fresh, msg := f } := by
  unfold State.allocMsgObj at h
  cases he : s.mEmptyMsgs with
  | cons x rest =>
    simp only [he, Option.some.injEq, Prod.mk.injEq] at h
    obtain ⟨rfl, rfl⟩ := h
    exact ⟨.recycled he, s.msg, fun _ => rfl, rfl⟩
  | nil =>
    simp only [he] at h
    split at h
    · rename_i hlt
      simp only [Option.some.injEq, Prod.mk.injEq] at h
      obtain ⟨rfl, rfl⟩ := h
      refine ⟨?_, Function.update s.msg s.fresh EdMsg.zero, fun m => by simp, rfl⟩
      simpa using Alloc.new he hlt
    · simp at h

inductive Step (N : Int) (s : State) : Action → State → Prop
  | initMsg (fd : Int) : s.pc = .created → 0 < fd →
      Step N s (.initMsg fd) { s with mMsgFd := fd, pc := .idle }
  | call (a : CallArgs) :
      Step N s (.call a) { s with calls := s.calls ++ [⟨a, .called, 0, none⟩] }
  | refused (c : CallId) (k : Call) : s.calls[c]? = some k → k.pc = .called →
      s.mMsgMutex = false → s.mMsgFd < 0 →
      Step N s (.enter c) { s with calls := s.calls.modify c (Call.leave .refused) }
  | queueFull (c : CallId) (k : Call) : s.calls[c]? = some k → k.pc = .called →
      s.mMsgMutex = false → 0 ≤ s.mMsgFd → s.allocMsgObj N = none →
      Step N s (.enter c) { s with calls := s.calls.modify c (Call.leave .queueFull) }
  | posted (c : CallId) (k : Call) (slot : Slot) (m : EdMsg) (empty : List Slot) (fresh : Slot) :
      s.calls[c]? = some k → k.pc = .called → s.mMsgMutex = false → 0 ≤ s.mMsgFd →
      k.args.api = .postEdMsg → Alloc N s slot m empty fresh →
      Step N s (.enter c) { s with
        mEmptyMsgs := empty
        fresh := fresh
        msg := Function.update s.msg slot (m.fillPost k.args)
        mQuedMsgs := s.mQuedMsgs ++ [slot]
        owner := Function.update s.owner slot c
        accepted := s.accepted ++ [c]
        eventfd := s.eventfd + 1
        calls := s.calls.modify c (Call.leave (.posted 0)) }
  | pushed (c : CallId) (k : Call) (slot : Slot) (m : EdMsg) (empty : List Slot) (fresh : Slot) :
      s.calls[c]? = some k → k.pc = .called → s.mMsgMutex = false → 0 ≤ s.mMsgFd →
      k.args.api = .sendEdMsg → Alloc N s slot m empty fresh →
      Step N s (.enter c) { s with
        mEmptyMsgs := empty
        fresh := fresh
        msg := Function.update s.msg slot (m.fillSend c k.args)
        mQuedMsgs := s.mQuedMsgs ++ [slot]
        owner := Function.update s.owner slot c
        accepted := s.accepted ++ [c]
        calls := s.calls.modify c Call.push }
  | write (c : CallId) : s.callPc c = some .pushed → 0 ≤ s.mMsgFd →
      Step N s (.write c) { s with
        eventfd := s.eventfd + 1
        calls := s.calls.modify c (fun k => { k with pc := .written }) }
  | writeFails (c : CallId) : s.callPc c = some .pushed → s.mMsgFd < 0 →
      Step N s (.write c) { s with
        calls := s.calls.modify c (fun k => { k with pc := .returned .sendError, mtx := none }) }
  | wait (c : CallId) : s.callPc c = some .written →
      Step N s (.wait c) { s with
        calls := s.calls.modify c (fun k => { k with pc := .waiting, mtx := none }) }
  | spuriousWake (c : CallId) : s.callPc c = some .waiting →
      Step N s (.spuriousWake c) { s with calls := s.calls.modify c Call.wake }
  | resume (c : CallId) : s.callPc c = some .woken → s.callMtx c = some none →
      Step N s (.resume c) { s with
        calls := s.calls.modify c (fun k => k.leave (.replied k.result)) }
  | createTaskMsgQue (pTask lis : Nat) :
      Step N s (.createTaskMsgQue pTask lis) (s.createTaskMsgQue pTask lis)
  | destroyTaskMsgQue (handle : UInt32) :
      Step N s (.destroyTaskMsgQue handle) (s.destroyTaskMsgQue handle)
  | readNone : s.pc = .idle → s.exit_flag = false → s.eventfd = 0 → Step N s .msgevent_cb s
  | read : s.pc = .idle → s.exit_flag = false → s.eventfd ≠ 0 →
      Step N s .msgevent_cb { s with eventfd := 0, pc := .loop (toI32 s.eventfd).toNat }
  | popped (left : Nat) (slot : Slot) (rest : List Slot) : s.pc = .loop (left + 1) →
      s.mMsgMutex = false → s.mQuedMsgs = slot :: rest →
      Step N s .popMsg { s with
        mQuedMsgs := rest
        pc := .hand slot left .popped
        dispatched := s.dispatched ++ [s.owner slot] }
  | queError (left : Nat) : s.pc = .loop (left + 1) → s.mMsgMutex = false → s.mQuedMsgs = [] →
      Step N s .popMsg { s with pc := .idle, queError := true }
  | endLoop : s.pc = .loop 0 → Step N s .endLoop { s with pc := .idle }
  | exitMsg (slot : Slot) (left : Nat) : s.pc = .hand slot left .popped →
      (s.msg slot).msgid = EDM_EXIT →
      Step N s .branch { s with
        exit_flag := true
        pc := .hand slot left .handled
        finished := s.finished ++ [s.owner slot] }
  | onEventProc (slot : Slot) (left : Nat) : s.pc = .hand slot left .popped →
      (s.msg slot).msgid ≠ EDM_EXIT → (s.msg slot).taskque_handle = 0 →
      Step N s .branch (s.deliver slot left .onEventProc)
  | find (slot : Slot) (left : Nat) (pinfo : Option UInt32) : s.pc = .hand slot left .popped →
      (s.msg slot).msgid ≠ EDM_EXIT → (s.msg slot).taskque_handle ≠ 0 →
      (pinfo = some (s.msg slot).taskque_handle ∧
        (s.gViewMap (s.msg slot).taskque_handle).isSome = true ∨
        pinfo = none ∧ s.gViewMap (s.msg slot).taskque_handle = none) →
      Step N s .branch { s with pc := .hand slot left (.found pinfo) }
  | invoke (slot : Slot) (left : Nat) (h : UInt32) : s.pc = .hand slot left (.found (some h)) →
      Step N s .invoke (s.deliver slot left (.listener h))
  | noListener (slot : Slot) (left : Nat) : s.pc = .hand slot left (.found none) →
      Step N s .invoke (s.finish slot left)
  | setSendMsgResult (slot : Slot) (left : Nat) (t : Target) (code : Int) :
      s.pc = .hand slot left (.running t) →
      Step N s (.setSendMsgResult code)
        ({ s with stored := (s.owner slot, code) :: s.stored }.setSendMsgResult slot code)
  | editMsg (slot : Slot) (left : Nat) (t : Target) (v : View) :
      s.pc = .hand slot left (.running t) →
      Step N s (.editMsg v) { s with
        msg := Function.update s.msg slot ((s.msg slot).setView v) }
  | handlerReturn (slot : Slot) (left : Nat) (t : Target) :
      s.pc = .hand slot left (.running t) → Step N s .handlerReturn (s.finish slot left)
  | isSync (slot : Slot) (left : Nat) : s.pc = .hand slot left .handled →
      (s.msg slot).sync ≠ 0 → Step N s .checkSync { s with pc := .hand slot left .locking }
  | notSync (slot : Slot) (left : Nat) : s.pc = .hand slot left .handled →
      (s.msg slot).sync = 0 → Step N s .checkSync { s with pc := .hand slot left .recycling }
  | lockMtx (slot : Slot) (left : Nat) (c : CallId) : s.pc = .hand slot left .locking →
      (s.msg slot).pmtx = some c → s.callMtx c = some none →
      Step N s .lockMtx { s with
        calls := s.calls.modify c (fun k => { k with mtx := some .task })
        pc := .hand slot left .locked }
  | notify (slot : Slot) (left : Nat) (c : CallId) : s.pc = .hand slot left .locked →
      (s.msg slot).pcv = some c →
      Step N s .notify { s with
        calls := s.calls.modify c Call.wake
        pc := .hand slot left .notified }
  | unlockMtx (slot : Slot) (left : Nat) (c : CallId) : s.pc = .hand slot left .notified →
      (s.msg slot).pmtx = some c →
      Step N s .unlockMtx { s with
        calls := s.calls.modify c (fun k => { k with mtx := none })
        pc := .hand slot left .recycling }
  | recycle (slot : Slot) (left : Nat) : s.pc = .hand slot left .recycling →
      s.mMsgMutex = false →
      Step N s .recycle { s with mEmptyMsgs := s.mEmptyMsgs ++ [slot], pc := .loop left }
  | leaveLoop : s.pc = .idle → s.exit_flag = true → Step N s .leaveLoop { s with pc := .exited }
  | closeMsg : s.pc = .exited → s.mMsgMutex = false → 0 < State.size s.mQuedMsgs →
      Step N s .closeMsg s.closeFd
  | closeEmpty : s.pc = .exited → s.mMsgMutex = false → ¬ 0 < State.size s.mQuedMsgs →
      Step N s .closeMsg { s with
        mMsgFd := if 0 ≤ s.mMsgFd then -1 else s.mMsgFd
        mEmptyMsgs := []
        mMsgMutex := false
        pc := .closed }
  | drainSync (slot : Slot) (rest : List Slot) : s.pc = .draining →
      s.mQuedMsgs = slot :: rest → (s.msg slot).sync ≠ 0 →
      Step N s .drainPop { s with
        mQuedMsgs := rest
        drained := s.drained ++ [s.owner slot]
        pc := .drain slot .locking }
  | drainPost (slot : Slot) (rest : List Slot) : s.pc = .draining →
      s.mQuedMsgs = slot :: rest → (s.msg slot).sync = 0 →
      Step N s .drainPop { s with
        mQuedMsgs := rest
        drained := s.drained ++ [s.owner slot]
        mEmptyMsgs := s.mEmptyMsgs ++ [slot] }
  | drainLock (slot : Slot) (c : CallId) : s.pc = .drain slot .locking →
      (s.msg slot).pmtx = some c → s.callMtx c = some none →
      Step N s .drainLock { s with
        calls := s.calls.modify c (fun k => { k with mtx := some .task })
        pc := .drain slot .locked }
  | drainNotify (slot : Slot) (c d : CallId) : s.pc = .drain slot .locked →
      (s.msg slot).psend_result = some c → (s.msg slot).pcv = some d →
      Step N s .drainNotify { s with
        calls := (s.calls.modify c (fun k => { k with result := -1000 })).modify d Call.wake
        pc := .drain slot .notified }
  | drainUnlock (slot : Slot) (c : CallId) : s.pc = .drain slot .notified →
      (s.msg slot).pmtx = some c →
      Step N s .drainUnlock { s with
        calls := s.calls.modify c (fun k => { k with mtx := none })
        mEmptyMsgs := s.mEmptyMsgs ++ [slot]
        pc := .draining }
  | drainEnd : s.pc = .draining → s.mQuedMsgs = [] →
      Step N s .drainEnd { s with mEmptyMsgs := [], mMsgMutex := false, pc := .closed }

lemma enter_cases {N : Int} {s s' : State} {c : CallId} {k : Call} (hk : s.calls[c]? = some k)
    (hpc : k.pc = .called) (hm : s.mMsgMutex = false)
    (h : s' = match k.args.api with
      | .postEdMsg => s.postEdMsg N c k.args
      | .sendEdMsg => s.sendEdMsg N c k.args) : Step N s (.enter c) s' := by
  by_cases hfd : s.mMsgFd < 0
  · have h' : s' = { s with calls := s.calls.modify c (Call.leave .refused) } := by
      cases ha : k.args.api <;> simp [h, ha, State.postEdMsg, State.sendEdMsg, hfd, State.updCall]
    exact h' ▸ .refused c k hk hpc hm hfd
  have hfd' : 0 ≤ s.mMsgFd := by omega
  cases hal : s.allocMsgObj N with
  | none =>
    have h' : s' = { s with calls := s.calls.modify c (Call.leave .queueFull) } := by
      cases ha : k.args.api <;>
        simp [h, ha, State.postEdMsg, State.sendEdMsg, hfd, hal, State.updCall]
    exact h' ▸ .queueFull c k hk hpc hm hfd' hal
  | some p =>
    obtain ⟨slot, t⟩ := p
    obtain ⟨hspec, f, hf, ht⟩ := allocMsgObj_spec hal
    have htfd : t.mMsgFd = s.mMsgFd := by rw [ht]
    cases ha : k.args.api with
    | postEdMsg =>
      have hw := Step.posted c k slot _ _ _ hk hpc hm hfd' ha hspec
      rw [ha] at h
      simp only [State.postEdMsg, hfd, if_false, hal, State.writeEventfd, State.enqueue, htfd, hfd',
        if_true, State.updCall] at h
      rw [h]
      rw [ht] at hw ⊢
      simpa only [hf] using hw
    | sendEdMsg =>
      have hw := Step.pushed c k slot _ _ _ hk hpc hm hfd' ha hspec
      rw [ha] at h
      simp only [State.sendEdMsg, hfd, if_false, hal, State.enqueue, State.updCall] at h
      rw [h]
      rw [ht] at hw ⊢
      simpa only [hf] using hw

lemma lockPmtx_spec {s s' : State} {slot : Slot} {pc : TaskPc} (h : s.lockPmtx slot pc = some s') :
    ∃ c, (s.msg slot).pmtx = some c ∧ s.callMtx c = some none ∧
      s' = { s with calls := s.calls.modify c (fun k => { k with mtx := some .task }), pc := pc } := by
  unfold State.lockPmtx at h
  split at h
  · rename_i c hc
    split at h
    · rename_i hfree
      exact ⟨c, hc, hfree, (Option.some.inj h).symm⟩
    · simp at h
  · simp at h

lemma notifyPcv_spec {s s' : State} {slot : Slot} {pc : TaskPc}
    (h : s.notifyPcv slot pc = some s') :
    ∃ c, (s.msg slot).pcv = some c ∧
      s' = { s with calls := s.calls.modify c Call.wake, pc := pc } := by
  unfold State.notifyPcv at h
  split at h
  · rename_i c hc
    exact ⟨c, hc, (Option.some.inj h).symm⟩
  · simp at h

lemma unlockPmtx_spec {s s' : State} {slot : Slot} {pc : TaskPc}
    (h : s.unlockPmtx slot pc = some s') :
    ∃ c, (s.msg slot).pmtx = some c ∧
      s' = { s with calls := s.calls.modify c (fun k => { k with mtx := none }), pc := pc } := by
  unfold State.unlockPmtx at h
  split at h
  · rename_i c hc
    exact ⟨c, hc, (Option.some.inj h).symm⟩
  · simp at h

/-- Every step of the queue is one of the listed cases. -/
theorem step_cases {N : Int} {s s' : State} {a : Action} (h : step N s a = some s') :
    Step N s a s' := by
  cases a with
  | initMsg fd =>
    simp only [step, Option.ite_none_right_eq_some, Option.some.injEq] at h
    obtain ⟨⟨hpc, hfd⟩, rfl⟩ := h
    exact .initMsg fd hpc hfd
  | call a =>
    simp only [step, Option.some.injEq] at h
    exact h ▸ .call a
  | enter c =>
    simp only [step] at h
    split at h
    · rename_i k hk
      split at h
      · rename_i hg
        refine enter_cases hk hg.1 hg.2 ?_
        split at h <;> simp_all
      · simp at h
    · simp at h
  | write c =>
    simp only [step, Option.ite_none_right_eq_some, Option.some.injEq] at h
    obtain ⟨hpc, rfl⟩ := h
    by_cases hfd : 0 ≤ s.mMsgFd
    · simpa [State.sendWrite, State.writeEventfd, hfd, State.updCall] using Step.write c hpc hfd
    · simpa [State.sendWrite, State.writeEventfd, hfd, State.updCall] using
        Step.writeFails c hpc (by omega)
  | wait c =>
    simp only [step, Option.ite_none_right_eq_some, Option.some.injEq] at h
    obtain ⟨hpc, rfl⟩ := h
    exact .wait c hpc
  | spuriousWake c =>
    simp only [step, Option.ite_none_right_eq_some, Option.some.injEq] at h
    obtain ⟨hpc, rfl⟩ := h
    exact .spuriousWake c hpc
  | resume c =>
    simp only [step, Option.ite_none_right_eq_some, Option.some.injEq] at h
    obtain ⟨⟨hpc, hm⟩, rfl⟩ := h
    exact .resume c hpc hm
  | createTaskMsgQue pTask lis =>
    simp only [step, Option.some.injEq] at h
    exact h ▸ .createTaskMsgQue pTask lis
  | destroyTaskMsgQue handle =>
    simp only [step, Option.some.injEq] at h
    exact h ▸ .destroyTaskMsgQue handle
  | msgevent_cb =>
    simp only [step] at h
    split at h
    · rename_i hpc
      split at h
      · simp at h
      · rename_i hx
        have hx : s.exit_flag = false := by simpa using hx
        split at h
        · rename_i he
          exact (Option.some.inj h) ▸ .readNone hpc hx he
        · rename_i he
          exact (Option.some.inj h) ▸ .read hpc hx he
    · simp at h
  | popMsg =>
    simp only [step] at h
    split at h
    · rename_i left hpc
      split at h
      · simp at h
      · rename_i hm
        have hm : s.mMsgMutex = false := by simpa using hm
        have h := Option.some.inj h
        unfold State.popMsg at h
        split at h
        · rename_i slot rest hq
          exact h ▸ .popped left slot rest hpc hm hq
        · rename_i hq
          exact h ▸ .queError left hpc hm hq
    · simp at h
  | endLoop =>
    simp only [step] at h
    split at h
    · rename_i hpc
      exact (Option.some.inj h) ▸ .endLoop hpc
    · simp at h
  | branch =>
    simp only [step] at h
    split at h
    · rename_i slot left hpc
      have h := Option.some.inj h
      by_cases hx : (s.msg slot).msgid = EDM_EXIT
      · simp only [State.branch, hx, if_true, State.finish] at h
        exact h ▸ .exitMsg slot left hpc hx
      · by_cases hh : (s.msg slot).taskque_handle = 0
        · simp only [State.branch, hx, hh, if_false, if_true] at h
          exact h ▸ .onEventProc slot left hpc hx hh
        · simp only [State.branch, hx, hh, if_false] at h
          refine h ▸ .find slot left _ hpc hx hh ?_
          cases hv : s.gViewMap (s.msg slot).taskque_handle <;> simp
    · simp at h
  | invoke =>
    simp only [step] at h
    split at h
    · rename_i slot left hd hpc
      exact (Option.some.inj h) ▸ .invoke slot left hd hpc
    · rename_i slot left hpc
      exact (Option.some.inj h) ▸ .noListener slot left hpc
    · simp at h
  | setSendMsgResult code =>
    simp only [step] at h
    split at h
    · rename_i slot left t hpc
      exact (Option.some.inj h) ▸ .setSendMsgResult slot left t code hpc
    · simp at h
  | editMsg v =>
    simp only [step] at h
    split at h
    · rename_i slot left t hpc
      exact (Option.some.inj h) ▸ .editMsg slot left t v hpc
    · simp at h
  | handlerReturn =>
    simp only [step] at h
    split at h
    · rename_i slot left t hpc
      exact (Option.some.inj h) ▸ .handlerReturn slot left t hpc
    · simp at h
  | checkSync =>
    simp only [step] at h
    split at h
    · rename_i slot left hpc
      by_cases hs : (s.msg slot).sync = 0
      · simp only [hs, ne_eq, not_true_eq_false, if_false, Option.some.injEq] at h
        exact h ▸ .notSync slot left hpc hs
      · simp only [ne_eq, hs, not_false_eq_true, if_true, Option.some.injEq] at h
        exact h ▸ .isSync slot left hpc hs
    · simp at h
  | lockMtx =>
    simp only [step] at h
    split at h
    · rename_i slot left hpc
      obtain ⟨c, hc, hf, rfl⟩ := lockPmtx_spec h
      exact .lockMtx slot left c hpc hc hf
    · simp at h
  | notify =>
    simp only [step] at h
    split at h
    · rename_i slot left hpc
      obtain ⟨c, hc, rfl⟩ := notifyPcv_spec h
      exact .notify slot left c hpc hc
    · simp at h
  | unlockMtx =>
    simp only [step] at h
    split at h
    · rename_i slot left hpc
      obtain ⟨c, hc, rfl⟩ := unlockPmtx_spec h
      exact .unlockMtx slot left c hpc hc
    · simp at h
  | recycle =>
    simp only [step] at h
    split at h
    · rename_i slot left hpc
      split at h
      · simp at h
      · rename_i hm
        have hm : s.mMsgMutex = false := by simpa using hm
        exact (Option.some.inj h) ▸ .recycle slot left hpc hm
    · simp at h
  | leaveLoop =>
    simp only [step, Option.ite_none_right_eq_some, Option.some.injEq] at h
    obtain ⟨⟨hpc, hx⟩, rfl⟩ := h
    exact .leaveLoop hpc hx
  | closeMsg =>
    simp only [step, Option.ite_none_right_eq_some, Option.some.injEq] at h
    obtain ⟨⟨hpc, hm⟩, rfl⟩ := h
    unfold State.closeMsg
    split
    · rename_i hq
      exact .closeMsg hpc hm hq
    · rename_i hq
      -- the mutex is free before and after, so `closeFd.freeEmpty` changes what is listed
      have hfree : s.closeFd.freeEmpty = { s with
          mMsgFd := if 0 ≤ s.mMsgFd then -1 else s.mMsgFd
          mEmptyMsgs := []
          mMsgMutex := false
          pc := .closed } := rfl
      exact hfree ▸ .closeEmpty hpc hm hq
  | drainPop =>
    simp only [step] at h
    split at h
    · rename_i slot rest hpc hq
      have h := Option.some.inj h
      by_cases hs : (s.msg slot).sync = 0
      · simp only [State.drainPop, hs, ne_eq, not_true_eq_false, if_false] at h
        exact h ▸ .drainPost slot rest hpc hq hs
      · simp only [State.drainPop, ne_eq, hs, not_false_eq_true, if_true] at h
        exact h ▸ .drainSync slot rest hpc hq hs
    · simp at h
  | drainLock =>
    simp only [step] at h
    split at h
    · rename_i slot hpc
      obtain ⟨c, hc, hf, rfl⟩ := lockPmtx_spec h
      exact .drainLock slot c hpc hc hf
    · simp at h
  | drainNotify =>
    simp only [step] at h
    split at h
    · rename_i slot hpc
      split at h
      · rename_i c hc
        obtain ⟨d, hd, rfl⟩ := notifyPcv_spec h
        exact .drainNotify slot c d hpc hc hd
      · simp at h
    · simp at h
  | drainUnlock =>
    simp only [step] at h
    split at h
    · rename_i slot hpc
      obtain ⟨c, hc, rfl⟩ := unlockPmtx_spec h
      exact .drainUnlock slot c hpc hc
    · simp at h
  | drainEnd =>
    simp only [step, Option.ite_none_right_eq_some, Option.some.injEq] at h
    obtain ⟨⟨hpc, hq⟩, rfl⟩ := h
    exact .drainEnd hpc hq

lemma Alloc.allocMsgObj {N : Int} {s : State} {slot fresh : Slot} {m : EdMsg} {empty : List Slot}
    (h : Alloc N s slot m empty fresh) : ∃ g : Slot → EdMsg, g slot = m ∧
      (∀ x, Function.update g slot x = Function.update s.msg slot x) ∧
      s.allocMsgObj N = some (slot, { s with mEmptyMsgs := empty, fresh := fresh, msg := g }) := by
  cases h with
  | recycled he => exact ⟨s.msg, rfl, fun _ => rfl, by simp only [State.allocMsgObj, he]⟩
  | new he hlt =>
    exact ⟨Function.update s.msg s.fresh EdMsg.zero, by simp, by simp, by
      simp only [State.allocMsgObj, he, hlt, if_true]⟩

/-- Each of the listed cases is a step. -/
theorem step_of_cases {N : Int} {s s' : State} {a : Action} (h : Step N s a s') :
    step N s a = some s' := by
  cases h with
  | posted c k slot m empty fresh hk hpc hm hfd ha hal =>
    obtain ⟨g, hg, hu, heq⟩ := hal.allocMsgObj
    have hneg : ¬ s.mMsgFd < 0 := by omega
    simp [step, hk, hpc, hm, ha, State.postEdMsg, hneg, heq, State.enqueue, State.writeEventfd,
      hfd, State.updCall, hg, hu]
  | pushed c k slot m empty fresh hk hpc hm hfd ha hal =>
    obtain ⟨g, hg, hu, heq⟩ := hal.allocMsgObj
    have hneg : ¬ s.mMsgFd < 0 := by omega
    simp [step, hk, hpc, hm, ha, State.sendEdMsg, hneg, heq, State.enqueue, State.updCall, hg, hu]
  | refused c k hk hpc hm hfd =>
    cases ha : k.args.api <;>
      simp [step, hk, hpc, hm, ha, State.postEdMsg, State.sendEdMsg, hfd, State.updCall]
  | queueFull c k hk hpc hm hfd hal =>
    have hneg : ¬ s.mMsgFd < 0 := by omega
    cases ha : k.args.api <;>
      simp [step, hk, hpc, hm, ha, State.postEdMsg, State.sendEdMsg, hneg, hal, State.updCall]
  | write c hpc hfd =>
    simp [step, hpc, State.sendWrite, State.writeEventfd, hfd, State.updCall]
  | writeFails c hpc hfd =>
    have hneg : ¬ 0 ≤ s.mMsgFd := by omega
    simp [step, hpc, State.sendWrite, State.writeEventfd, hneg, State.updCall]
  | find slot left pinfo hpc hx hh hf =>
    rcases hf with ⟨rfl, hf⟩ | ⟨rfl, hf⟩ <;> simp [step, hpc, State.branch, hx, hh, hf]
  | _ =>
    simp_all [step, State.updCall, State.branch, State.finish, State.deliver, State.popMsg,
      State.lockPmtx, State.notifyPcv, State.unlockPmtx, State.drainPop, State.closeMsg,
      State.closeFd, State.freeEmpty]

end EdNio.Task
