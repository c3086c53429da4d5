import EdNio.Task.Startup

/-!
# Where messages go

A message goes to the handler that the handle of its call names, with the msgid and the
payload of its call. `OnEventProc` misses no message but those with msgid `EDM_EXIT`, and
these are what ends the loop of the task.
-/

namespace EdNio.Task
open Transition

variable {N : Int} {s t : State} {a : Action}

/-- The handler that the call is for. -/
def CallArgs.target (b : CallArgs) : Target :=
  if b.handle = 0 then .onEventProc else .listener b.handle

/-- A handler is to see what the call wrote. A call of type 0 writes no `msgobj`, one of another
type no `data`. -/
def Carried (c : CallId) (b : CallArgs) (m : EdMsg) : Prop :=
  Header c b m ∧ (b.type = 0 → m.data = b.data) ∧ (b.type ≠ 0 → m.msgobj = b.msgobj)

lemma Carried.fillPost {c : CallId} {b : CallArgs} {m : EdMsg} : Carried c b (m.fillPost b) := by
  refine ⟨.fillPost, fun h => ?_, fun h => ?_⟩ <;> simp [EdMsg.fillPost, EdMsg.setPayload, h]

lemma Carried.fillSend {c : CallId} {b : CallArgs} {m : EdMsg} : Carried c b (m.fillSend c b) := by
  refine ⟨.fillSend, fun h => ?_, fun h => ?_⟩ <;> simp [EdMsg.fillSend, EdMsg.setPayload, h]

theorem reachable_carried (h : (queue N).Reachable s) :
    Filled Carried (s.pc.unread ++ s.mQuedMsgs) s :=
  h.invariant (I := fun s => Filled Carried (s.pc.unread ++ s.mQuedMsgs) s)
    (by
      rintro _ rfl slot hslot
      cases hslot)
    (fun _ _ _ hr hI _ hs => hI.unread (reachable_slots hr)
      (fun _ _ _ _ _ _ _ _ _ _ => ⟨Carried.fillPost, Carried.fillSend⟩) (step_cases hs))

/-- The message is not `EDM_EXIT`. -/
def CallArgs.ordinary (b : CallArgs) : Bool :=
  b.msgid ≠ EDM_EXIT

/-- Call `c` is one for `OnEventProc`. -/
def State.forEventProc (s : State) (c : CallId) : Bool :=
  (s.callArgs c).any (fun b => b.ordinary && b.handle = 0)

/-- The handler that the dispatcher has chosen, or is about to choose, for the message in hand. -/
def Chosen (b : CallArgs) : HandStage → Prop
  | .found pinfo => b.ordinary = true ∧ b.handle ≠ 0 ∧ ∀ h, pinfo = some h → h = b.handle
  | .running target => b.ordinary = true ∧ target = b.target
  | _ => True

/-- What a started handler was given. -/
def Routed (s : State) (d : Delivery) : Prop :=
  ∃ b, s.callArgs d.call = some b ∧ b.ordinary = true ∧ d.target = b.target ∧
    d.view.msgid = b.msgid ∧ d.view.taskque_handle = b.handle ∧
    (b.type = 0 → d.view.data = b.data) ∧ (b.type ≠ 0 → d.view.msgobj = b.msgobj)

/-- The messages given to `OnEventProc`, in order. -/
def State.toEventProc (s : State) : List CallId :=
  (s.delivered.filter (fun d => d.target = .onEventProc)).map Delivery.call

structure RoutingInv (s : State) : Prop where
  chosen : ∀ slot left stage, s.pc = .hand slot left stage →
    ∃ b, s.callArgs (s.owner slot) = some b ∧ Chosen b stage
  delivered : ∀ d ∈ s.delivered, Routed s d
  eventProc : s.toEventProc = (s.finished ++ s.pc.running.map s.owner).filter s.forEventProc
  exit : s.exit_flag = true ↔ ∃ c ∈ s.finished, ∃ b, s.callArgs c = some b ∧ b.msgid = EDM_EXIT

lemma Routed.step (h : Step N s a t) {d : Delivery} (hd : Routed s d) : Routed t d := by
  obtain ⟨b, hb, hrest⟩ := hd
  exact ⟨b, h.callArgs hb, hrest⟩

lemma forEventProc_step (h : Step N s a t) {c : CallId} {b : CallArgs}
    (hb : s.callArgs c = some b) :
    t.forEventProc c = s.forEventProc c := by
  simp only [State.forEventProc, h.callArgs hb, hb]

lemma finished_callArgs (hr : (queue N).Reachable s) {c : CallId} (hc : c ∈ s.dispatched) :
    ∃ b, s.callArgs c = some b := by
  have hacc : c ∈ s.accepted := by
    rw [(reachable_history hr).order]
    exact List.mem_append_left _ (List.mem_append_left _ hc)
  obtain ⟨k, hk, -⟩ := (reachable_history hr).started c hacc
  exact ⟨k.args, by simp [State.callArgs, hk]⟩

lemma finished_dispatched (hr : (queue N).Reachable s) {c : CallId} (hc : c ∈ s.finished) :
    c ∈ s.dispatched := by
  rw [(reachable_handling hr).finished]
  exact List.mem_append_left _ hc

/-- Dispatched messages pass the same tests after a step. -/
lemma filter_step (hr : (queue N).Reachable s) (h : Step N s a t) {l : List CallId}
    (hl : l ⊆ s.dispatched) : l.filter t.forEventProc = l.filter s.forEventProc := by
  refine List.filter_congr (fun c hc => ?_)
  obtain ⟨b, hb⟩ := finished_callArgs hr (hl hc)
  exact forEventProc_step h hb

lemma handled_dispatched (hr : (queue N).Reachable s) :
    s.finished ++ s.pc.running.map s.owner ⊆ s.dispatched := by
  intro c hc
  rw [(reachable_handling hr).finished]
  rcases List.mem_append.mp hc with hc | hc
  · exact List.mem_append_left _ hc
  · exact List.mem_append_right _ (List.map_subset _ s.pc.running_sublist.subset hc)

lemma exit_step (hr : (queue N).Reachable s) (h : Step N s a t) :
    (∃ c ∈ s.finished, ∃ b, t.callArgs c = some b ∧ b.msgid = EDM_EXIT) ↔
      ∃ c ∈ s.finished, ∃ b, s.callArgs c = some b ∧ b.msgid = EDM_EXIT := by
  refine exists_congr (fun c => and_congr_right (fun hc => ?_))
  obtain ⟨b, hb⟩ := finished_callArgs hr (finished_dispatched hr hc)
  simp [hb, h.callArgs hb]

/-- A step that starts and ends no handler. -/
lemma RoutingInv.frame (hI : RoutingInv s) (hr : (queue N).Reachable s) (h : Step N s a t)
    (heq : t.delivered = s.delivered ∧ t.finished = s.finished ∧ t.exit_flag = s.exit_flag)
    (hrun : t.pc.running.map t.owner = s.pc.running.map s.owner)
    (hchosen : ∀ slot left stage, t.pc = .hand slot left stage →
      ∃ b, t.callArgs (t.owner slot) = some b ∧ Chosen b stage) : RoutingInv t := by
  obtain ⟨hdel, hfin, hexit⟩ := heq
  refine ⟨hchosen, fun d hd => (hI.delivered d (hdel ▸ hd)).step h, ?_, ?_⟩
  · rw [hfin, hrun, filter_step hr h (handled_dispatched hr), State.toEventProc, hdel]
    exact hI.eventProc
  · rw [hexit, hfin, exit_step hr h]
    exact hI.exit

/-- A step that does not move the task thread. -/
lemma RoutingInv.still (hI : RoutingInv s) (hr : (queue N).Reachable s) (h : Step N s a t)
    (heq : t.delivered = s.delivered ∧ t.finished = s.finished ∧ t.exit_flag = s.exit_flag)
    (hpc : t.pc = s.pc) (hown : ∀ slot ∈ s.pc.inHand, t.owner slot = s.owner slot) :
    RoutingInv t := by
  refine hI.frame hr h heq ?_ (fun slot left stage hp => ?_)
  · rw [hpc]
    exact List.map_congr_left (fun x hx => hown x (TaskPc.running_subset hx))
  · rw [hpc] at hp
    obtain ⟨b, hb, hc⟩ := hI.chosen slot left stage hp
    rw [hown slot (by simp [hp, TaskPc.inHand])]
    exact ⟨b, h.callArgs hb, hc⟩

/-- The end of the handling of a message. -/
lemma RoutingInv.finish (hI : RoutingInv s) (hr : (queue N).Reachable s) (h : Step N s a t)
    {slot : Slot} {left : Nat} {stage : HandStage} (hpc : s.pc = .hand slot left stage)
    (heq : t.delivered = s.delivered ∧ t.finished = s.finished ++ [s.owner slot] ∧
      t.owner = s.owner ∧ t.pc = .hand slot left .handled) {b : CallArgs}
    (hb : s.callArgs (s.owner slot) = some b)
    (hrun : s.pc.running = [slot] ∨ s.pc.running = [] ∧ s.forEventProc (s.owner slot) = false)
    (hflag : t.exit_flag = (s.exit_flag || !b.ordinary)) : RoutingInv t := by
  obtain ⟨hdel, hfin, hown, hpc'⟩ := heq
  have hdisp : s.owner slot ∈ s.dispatched := by
    have hlast := (reachable_history hr).last slot (by simp [hpc, TaskPc.inHand])
    have hdr := (reachable_history hr).undrained (by simp [hpc, TaskPc.closing])
    rw [hdr, List.append_nil] at hlast
    exact List.mem_of_getLast? hlast
  refine ⟨fun x l st hp => ?_, fun d hd => (hI.delivered d (hdel ▸ hd)).step h, ?_, ?_⟩
  · rw [hpc', TaskPc.hand.injEq] at hp
    obtain ⟨rfl, rfl, rfl⟩ := hp
    rw [hown]
    exact ⟨b, h.callArgs hb, trivial⟩
  · have hrest : t.toEventProc = (s.finished ++ [s.owner slot]).filter s.forEventProc := by
      rw [State.toEventProc, hdel]
      refine hI.eventProc.trans ?_
      rcases hrun with hrun | ⟨hrun, hno⟩
      · rw [hrun]
        rfl
      · simp [hrun, hno]
    have hsub : s.finished ++ [s.owner slot] ⊆ s.dispatched := by
      intro c hc
      rcases List.mem_append.mp hc with hc | hc
      · exact finished_dispatched hr hc
      · rw [List.mem_singleton.mp hc]
        exact hdisp
    have hnone : t.pc.running = [] := by
      rw [hpc']
      rfl
    rw [hrest, hfin, hnone, List.map_nil, List.append_nil, filter_step hr h hsub]
  · have hnew : (∃ b', t.callArgs (s.owner slot) = some b' ∧ b'.msgid = EDM_EXIT) ↔
        b.ordinary = false := by
      simp [h.callArgs hb, CallArgs.ordinary]
    rw [hflag, hfin]
    simp only [List.mem_append, List.mem_singleton, or_and_right, exists_or, exists_eq_left,
      hnew, exit_step hr h, ← hI.exit, Bool.or_eq_true, Bool.not_eq_true']

lemma RoutingInv.deliver (hI : RoutingInv s) (hr : (queue N).Reachable s) {slot : Slot}
    {left : Nat} {stage : HandStage} {target : Target} (h : Step N s a (s.deliver slot left target))
    (hpc : s.pc = .hand slot left stage) (hunread : slot ∈ s.pc.unread) {b : CallArgs}
    (hb : s.callArgs (s.owner slot) = some b) (hord : b.ordinary = true)
    (htarget : target = b.target) : RoutingInv (s.deliver slot left target) := by
  obtain ⟨b', hb', hcar⟩ := reachable_carried hr slot (List.mem_append_left _ hunread)
  obtain rfl : b = b' := Option.some.inj (hb.symm.trans hb')
  obtain ⟨⟨hid, hhandle⟩, hdata, hobj⟩ := hcar
  have hnew : Routed (s.deliver slot left target) ⟨s.owner slot, target, (s.msg slot).view⟩ :=
    ⟨b, hb, hord, htarget, hid, hhandle, hdata, hobj⟩
  have hnot : s.pc.running = [] := by
    rw [hpc] at hunread ⊢
    cases stage <;> simp_all [TaskPc.unread, TaskPc.running]
  refine ⟨fun x l st hp => ?_, fun d hd => ?_, ?_, hI.exit⟩
  · simp only [State.deliver, TaskPc.hand.injEq] at hp
    obtain ⟨rfl, rfl, rfl⟩ := hp
    exact ⟨b, hb, hord, htarget⟩
  · simp only [State.deliver, List.mem_append, List.mem_singleton] at hd
    rcases hd with hd | rfl
    · exact (hI.delivered d hd).step h
    · exact hnew
  · have hold := hI.eventProc
    rw [hnot, List.map_nil, List.append_nil] at hold
    have hfor : s.forEventProc (s.owner slot) = decide (target = .onEventProc) := by
      rw [State.forEventProc, hb, htarget, Option.any_some, hord, CallArgs.target]
      split <;> simp_all
    simp only [State.toEventProc, State.deliver, TaskPc.running, List.filter_append,
      List.map_append, List.map_cons, List.map_nil]
    rw [State.toEventProc] at hold
    change _ = s.finished.filter s.forEventProc ++ [s.owner slot].filter s.forEventProc
    rw [hold, List.filter_cons, List.filter_cons, hfor]
    by_cases ht : target = .onEventProc <;> simp [ht]

theorem RoutingInv.step (hI : RoutingInv s) (hr : (queue N).Reachable s) (h : Step N s a t) :
    RoutingInv t := by
  have hstep := h
  have hS := reachable_slots hr
  cases h with
  | posted c k slot m empty fresh hk hpc hm hfd ha hal
  | pushed c k slot m empty fresh hk hpc hm hfd ha hal =>
    refine hI.still hr hstep ⟨rfl, rfl, rfl⟩ rfl (fun x hx => ?_)
    exact Function.update_of_ne (fun he : x = slot => (hal.not_busy hS).1 (he ▸ hx)) _ _
  | popped left slot rest hpc hm hq =>
    refine hI.frame hr hstep ⟨rfl, rfl, rfl⟩ (by simp [hpc, TaskPc.running]) ?_
    intro x l st hp
    simp only [TaskPc.hand.injEq] at hp
    obtain ⟨rfl, rfl, rfl⟩ := hp
    obtain ⟨b, hb, -⟩ := reachable_carried hr slot (by simp [hq])
    exact ⟨b, hb, trivial⟩
  | exitMsg slot left hpc hx =>
    have hunread : slot ∈ s.pc.unread := by simp [hpc, TaskPc.unread]
    obtain ⟨b, hb, ⟨⟨hid, -⟩, -⟩⟩ := reachable_carried hr slot (List.mem_append_left _ hunread)
    have hord : b.ordinary = false := by simp [CallArgs.ordinary, ← hid, hx]
    refine hI.finish hr hstep hpc ⟨rfl, rfl, rfl, rfl⟩ hb (.inr ⟨by simp [hpc, TaskPc.running], ?_⟩)
      (by simp [hord])
    simp [State.forEventProc, hb, hord]
  | onEventProc slot left hpc hx hh =>
    have hunread : slot ∈ s.pc.unread := by simp [hpc, TaskPc.unread]
    obtain ⟨b, hb, ⟨⟨hid, hhandle⟩, -⟩⟩ :=
      reachable_carried hr slot (List.mem_append_left _ hunread)
    refine hI.deliver hr hstep hpc hunread hb ?_ ?_
    · simpa [CallArgs.ordinary, ← hid] using hx
    · simp [CallArgs.target, ← hhandle, hh]
  | find slot left pinfo hpc hx hh hfound =>
    have hunread : slot ∈ s.pc.unread := by simp [hpc, TaskPc.unread]
    obtain ⟨b, hb, ⟨⟨hid, hhandle⟩, -⟩⟩ :=
      reachable_carried hr slot (List.mem_append_left _ hunread)
    refine hI.frame hr hstep ⟨rfl, rfl, rfl⟩ (by simp [hpc, TaskPc.running]) ?_
    intro x l st hp
    simp only [TaskPc.hand.injEq] at hp
    obtain ⟨rfl, rfl, rfl⟩ := hp
    refine ⟨b, hb, by simpa [CallArgs.ordinary, ← hid] using hx, by rw [← hhandle]; exact hh, ?_⟩
    rintro hd rfl
    rcases hfound with ⟨heq, -⟩ | ⟨heq, -⟩
    · rw [← hhandle]
      exact Option.some.inj heq
    · cases heq
  | invoke slot left hd hpc =>
    obtain ⟨b, hb, hord, hne, heq⟩ := hI.chosen slot left _ hpc
    refine hI.deliver hr hstep hpc (by simp [hpc, TaskPc.unread]) hb hord ?_
    simp [CallArgs.target, hne, heq hd rfl]
  | noListener slot left hpc =>
    obtain ⟨b, hb, hord, hne, -⟩ := hI.chosen slot left _ hpc
    refine hI.finish hr hstep hpc ⟨rfl, rfl, rfl, rfl⟩ hb (.inr ⟨by simp [hpc, TaskPc.running], ?_⟩)
      (by simp [hord, State.finish])
    simp [State.forEventProc, hb, hne]
  | handlerReturn slot left target hpc =>
    obtain ⟨b, hb, hord, -⟩ := hI.chosen slot left _ hpc
    exact hI.finish hr hstep hpc ⟨rfl, rfl, rfl, rfl⟩ hb (.inl (by simp [hpc, TaskPc.running]))
      (by simp [hord, State.finish])
  | isSync slot left hpc | notSync slot left hpc | lockMtx slot left c hpc
  | notify slot left c hpc | unlockMtx slot left c hpc =>
    refine hI.frame hr hstep ⟨rfl, rfl, rfl⟩ (by simp [hpc, TaskPc.running]) ?_
    intro x l st hp
    simp only [TaskPc.hand.injEq] at hp
    obtain ⟨rfl, rfl, rfl⟩ := hp
    obtain ⟨b, hb, -⟩ := hI.chosen slot left _ hpc
    exact ⟨b, hstep.callArgs hb, trivial⟩
  | setSendMsgResult slot left target code hpc =>
    exact hI.still hr hstep ⟨rfl, rfl, rfl⟩ rfl (fun _ _ => rfl)
  | initMsg | read | queError | endLoop | recycle | leaveLoop | closeMsg | closeEmpty | drainSync
  | drainPost | drainLock | drainNotify | drainUnlock | drainEnd =>
    exact hI.frame hr hstep ⟨rfl, rfl, rfl⟩ (by simp [State.closeFd, TaskPc.running, *])
      (fun x l st hp => by simp_all [State.closeFd])
  | _ => exact hI.still hr hstep ⟨rfl, rfl, rfl⟩ rfl (fun _ _ => rfl)

lemma RoutingInv.init : RoutingInv State.init := by
  constructor <;> simp [State.init, State.toEventProc, TaskPc.running]

theorem reachable_routing (h : (queue N).Reachable s) : RoutingInv s :=
  h.invariant (fun _ h0 => h0 ▸ RoutingInv.init)
    (fun _ _ _ hr hI _ hs => hI.step hr (step_cases hs))

end EdNio.Task
