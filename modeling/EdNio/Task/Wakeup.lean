import EdNio.Library.Fairness
import EdNio.Task.SyncSend

/-!
# Waking up a sender

What `SyncInv` says of a call of `sendEdMsg` while its message is queued, handled and
notified, and the fair runs in which it returns.
-/

namespace EdNio.Task
open Transition

/-- `sendEdMsg` returns after its message is finished, and until then the pointers in the
message lead into the call. -/
structure ReturnsLast (s : State) : Prop where
  finished : ∀ c k o, s.calls[c]? = some k → k.args.api = .sendEdMsg → c ∈ s.accepted →
    k.pc = .returned o → (c ∈ s.finished ∨ c ∈ s.drained) ∧ ¬ s.Unsettled c
  pointers : ∀ slot ∈ s.pc.pending ++ s.pc.notified ++ s.mQuedMsgs, (s.msg slot).sync ≠ 0 →
    ∃ c k, (s.msg slot).psend_result = some c ∧ (s.msg slot).pcv = some c ∧
      (s.msg slot).pmtx = some c ∧ s.calls[c]? = some k ∧ ∀ o, k.pc ≠ .returned o

lemma SyncInv.notified {s : State} (hI : SyncInv s) (hA : AcceptedInv s) (hH : HistoryInv s)
    (hL : LinkInv s) {slot : Slot} (hslot : slot ∈ s.pc.notified) :
    (s.msg slot).psend_result = some (s.owner slot) ∧ (s.msg slot).pcv = some (s.owner slot) ∧
      (s.msg slot).pmtx = some (s.owner slot) ∧
      ∃ k, s.calls[s.owner slot]? = some k ∧ k.pc = .woken ∧ k.mtx = some .task := by
  have hhand := TaskPc.notified_subset hslot
  have hact := List.mem_append_left s.mQuedMsgs hhand
  have hpend : s.pc.pending = [] ∧ slot ∈ s.pc.signalling := by
    unfold TaskPc.notified at hslot
    split at hslot <;> simp_all [TaskPc.pending, TaskPc.signalling]
  obtain ⟨b, hb, hlink⟩ := hL.linked slot hact
  rcases hlink with ⟨h0, -⟩ | ⟨-, ha, h1, h2, h3⟩
  · exact absurd h0 (hL.sync slot hpend.2)
  refine ⟨h1, h2, h3, ?_⟩
  obtain ⟨k, hk, hac⟩ := (hA _).mp (hH.owner_accepted hact)
  have hka : k.args.api = .sendEdMsg := by
    rw [callArgs_eq hk hb]
    exact ha
  have hn : s.Notified (s.owner slot) := List.mem_map_of_mem hslot
  have hu : ¬ s.Unsettled (s.owner slot) := by
    simpa [State.Unsettled, hpend.1] using hH.hand_not_queued hhand
  refine ⟨k, hk, ?_⟩
  rcases hI.accepted_phase hk hka hac with ⟨hu', -⟩ | ⟨-, hw, hm⟩ | ⟨-, hn', -⟩
  · exact absurd hu' hu
  · exact ⟨hw, (hm.resolve_right (fun h => h.1 hn)).2⟩
  · exact absurd hn hn'

/-- In the runs without spurious wake-ups in which no call is before its write when
`closeMsg` begins, a synchronous send returns last. -/
theorem sendEdMsg_returns_last {N : Int} {s : State} (h : SyncRun N s) : ReturnsLast s := by
  have hI := sync_inv h
  have hA := reachable_accepted h.reachable
  have hH := reachable_history h.reachable
  have hL := reachable_link h.reachable
  constructor
  · intro c k o hk ha hacc hpc
    have hp := hI.phase c k hk
    have hac := hA.pc hk hacc
    cases o with
    | replied v =>
      simp only [State.Phase, hpc] at hp
      exact ⟨hp.2.2.2.1, hp.2.1⟩
    | refused | queueFull => simp [hpc, CallPc.accepted] at hac
    | posted ret =>
      simp only [State.Phase, hpc] at hp
      simp [ha] at hp
    | sendError => simp [State.Phase, hpc] at hp
  · intro slot hslot hs
    have hcase : slot ∈ s.pc.pending ++ s.mQuedMsgs ∨ slot ∈ s.pc.notified := by
      simp only [List.mem_append] at hslot ⊢
      tauto
    rcases hcase with hslot | hslot
    · obtain ⟨h1, h2, h3, -, k, hk, hb⟩ := hI.sender hA hH hL hslot hs
      refine ⟨_, k, h1, h2, h3, hk, fun o ho => ?_⟩
      simp [ho] at hb
    · obtain ⟨h1, h2, h3, k, hk, hw, -⟩ := hI.notified hA hH hL hslot
      exact ⟨_, k, h1, h2, h3, hk, by simp [hw]⟩

/-- A run with a slot used twice, a synchronous message and one drained by `closeMsg`. -/
def closingRun : List Action :=
  [.initMsg 5, .call (postMsg 1000 1 2), .call (sendMsg 1001 3 4), .enter 0, .enter 1, .write 1,
    .wait 1, .msgevent_cb, .popMsg, .branch, .handlerReturn, .checkSync, .recycle,
    .call (postMsg EDM_EXIT 0 0), .call (postMsg 1000 9 9), .enter 2, .popMsg, .branch,
    .setSendMsgResult 7, .handlerReturn, .checkSync, .lockMtx, .notify, .unlockMtx, .recycle,
    .resume 1, .endLoop, .msgevent_cb, .popMsg, .branch, .checkSync, .recycle, .endLoop,
    .leaveLoop, .enter 3, .closeMsg, .drainPop, .drainEnd]

theorem sendEdMsg_returns_last_closingRun : ∃ s, SyncRun 2 s ∧
    (∃ k, s.calls[1]? = some k ∧ k.pc = .returned (.replied 7)) ∧ s.finished = [0, 1, 2] ∧
    ReturnsLast s := by
  obtain ⟨s, hr, hs⟩ := System.exists_of_exec_restrict (M := queue 2)
    (T := fun s a => calm a && quietClose s a) rfl
    (show (((queue 2).restrict fun s a => calm a && quietClose s a).exec State.init
      closingRun).map (fun s => (s.callPc 1, s.finished)) =
        some (some (.returned (.replied 7)), [0, 1, 2]) by decide)
  simp only [Prod.mk.injEq] at hs
  exact ⟨s, hr, callPc_eq hs.1, hs.2, sendEdMsg_returns_last hr⟩

/-- `cv.wait` returns without a notification while the message is queued. -/
theorem not_sendEdMsg_returns_last : ¬ ∀ (N : Int) (s : State), (queue N).Reachable s →
    ReturnsLast s := by
  intro h
  obtain ⟨s, hr, hs⟩ := System.exists_of_exec (M := queue 2) rfl
    (show ((queue 2).exec State.init [.initMsg 5, .call (sendMsg 1000 1 2), .enter 0, .write 0,
      .wait 0, .spuriousWake 0, .resume 0]).map
      (fun s => (s.calls, s.accepted, s.finished, s.drained)) =
        some ([⟨sendMsg 1000 1 2, .returned (.replied 0), 0, none⟩], [0], [], []) by decide)
  simp only [Prod.mk.injEq] at hs
  obtain ⟨h1, h2, h3, h4⟩ := hs
  have hf := ((h 2 s hr).finished 0 ⟨sendMsg 1000 1 2, .returned (.replied 0), 0, none⟩
    (.replied 0) (by rw [h1]; rfl) rfl (by rw [h2]; exact List.mem_singleton_self _) rfl).1
  rw [h3, h4] at hf
  simp at hf

/-- Steps before `closeMsg` and without spurious wake-ups. -/
def beforeClose : Action → Bool
  | .spuriousWake _ => false
  | .closeMsg => false
  | _ => true

abbrev OpenRun (N : Int) (s : State) : Prop :=
  (queue N).Reaches (fun _ a => beforeClose a = true) s

lemma OpenRun.sync {N : Int} {s : State} (h : OpenRun N s) : SyncRun N s := by
  refine h.mono (fun s a ha => ?_)
  cases a <;> simp_all [beforeClose, calm, quietClose]

lemma Step.open {N : Int} {s s' : State} {a : Action} (h : Step N s a s')
    (ha : beforeClose a = true) (hc : s.pc.closing = false) : s'.pc.closing = false := by
  cases h <;> simp_all [beforeClose, TaskPc.closing, State.deliver, State.finish,
    State.createTaskMsgQue, State.destroyTaskMsgQue, State.setSendMsgResult]

lemma OpenRun.open {N : Int} {s : State} (h : OpenRun N s) : s.pc.closing = false :=
  h.invariant (I := fun s => s.pc.closing = false)
    (fun s h0 => by rw [show s = State.init from h0]; rfl)
    (fun _ _ _ _ hc ha hs => (step_cases hs).open ha hc)

/-- What a dispatched synchronous send looks like before `closeMsg`. -/
structure Woken (s : State) : Prop where
  notify : ∀ slot left, s.pc = .hand slot left .locked →
    ∃ c k, (s.msg slot).pcv = some c ∧ s.calls[c]? = some k ∧ k.pc = .waiting
  dispatched : ∀ c ∈ s.dispatched, ∀ k, s.calls[c]? = some k → k.args.api = .sendEdMsg →
    (∃ slot ∈ s.pc.pending, s.owner slot = c) ∨
    (c ∈ s.finished ∧ k.pc = .woken ∧ k.result = s.lastStored c ∧
      (k.mtx = none ∨ ∃ slot ∈ s.pc.notified, s.owner slot = c)) ∨
    (c ∈ s.finished ∧ k.pc = .returned (.replied (s.lastStored c)))

lemma OpenRun.woken {N : Int} {s : State} (h : OpenRun N s) : Woken s := by
  have hI := sync_inv h.sync
  have hA := reachable_accepted h.reachable
  have hH := reachable_history h.reachable
  have hL := reachable_link h.reachable
  have hdr : s.drained = [] := hH.undrained h.open
  constructor
  · intro slot left hpc
    have hs := hL.sync slot (by simp [hpc, TaskPc.signalling])
    obtain ⟨-, hcv, -, -, k, hk, hb⟩ := hI.sender hA hH hL (by simp [hpc, TaskPc.pending]) hs
    have hl : s.Locked (s.owner slot) := by simp [State.Locked, hpc, TaskPc.locked]
    have hp := hI.phase _ k hk
    refine ⟨_, k, hcv, hk, ?_⟩
    rcases hb with hb | hb | hb
    · simp [State.Phase, hb, hl] at hp
    · simp [State.Phase, hb, hl] at hp
    · exact hb
  · intro c hc k hk ha
    have hp := hI.phase c k hk
    have hacc : c ∈ s.accepted := by
      rw [hH.order]
      exact List.mem_append_left _ (List.mem_append_left _ hc)
    have hnq : c ∉ s.mQuedMsgs.map s.owner := by
      have hn := hH.nodup
      rw [hH.order, List.nodup_append'] at hn
      exact fun hq => hn.2.2 (List.mem_append_left _ hc) hq
    have hac := hA.pc hk hacc
    by_cases hu : s.Unsettled c
    · left
      simp only [State.Unsettled, List.map_append, List.mem_append, hnq, or_false,
        List.mem_map] at hu
      exact hu
    · right
      have hr : s.reply c = s.lastStored c := by simp [State.reply, hdr]
      simp only [State.Phase, hu, hdr, hr] at hp
      split at hp <;> simp_all [CallPc.accepted, State.Notified]
      rcases hp.2.2.2 with hn | hn
      · exact .inr hn.1
      · exact .inl hn.2

/-- Steps the task thread has before it has notified and released the sender in hand. -/
def HandStage.rank : HandStage → Nat
  | .popped => 7
  | .found _ => 6
  | .running _ => 5
  | .handled => 4
  | .locking => 3
  | .locked => 2
  | .notified => 1
  | .recycling => 0

/-- Steps a sender has before it waits. -/
def CallPc.rank : CallPc → Nat
  | .pushed => 2
  | .written => 1
  | _ => 0

section Rank

variable (c : CallId) (s : State)

/-- Steps left until `c` can return, if its message has been dispatched. -/
def State.wakeRank : Nat :=
  (match s.pc with
    | .hand slot _ stage => if s.owner slot = c then stage.rank else 0
    | _ => 0) +
  (match s.callPc c with
    | some pc => pc.rank
    | none => 0)

/-- The step that brings `c` closer to its return. -/
def State.helpful : Action :=
  match s.pc with
  | .hand slot _ stage =>
    if s.owner slot = c then
      match stage with
      | .popped => .branch
      | .found _ => .invoke
      | .running _ => .handlerReturn
      | .handled => .checkSync
      | .locking =>
        match s.callPc c with
        | some .pushed => .write c
        | some .written => .wait c
        | _ => .lockMtx
      | .locked => .notify
      | .notified => .unlockMtx
      | .recycling => .resume c
    else .resume c
  | _ => .resume c

/-- Steps of the task thread on the message in hand, and of the sender `c`. -/
def servingActions : List Action :=
  [.branch, .invoke, .handlerReturn, .checkSync, .lockMtx, .notify, .unlockMtx, .write c, .wait c,
    .resume c]

lemma helpful_mem : s.helpful c ∈ servingActions c := by
  unfold State.helpful servingActions
  repeat' split
  all_goals simp

end Rank

/-- The task thread is not busy with the message of `c`. -/
def State.Apart (c : CallId) (s : State) : Prop :=
  ∀ slot left stage, s.pc = .hand slot left stage → s.owner slot = c → stage = .recycling

lemma State.Apart.helpful {c : CallId} {s : State} (h : s.Apart c) : s.helpful c = .resume c := by
  unfold State.helpful
  split
  · rename_i slot left stage hpc
    split
    · rename_i ho
      rw [h slot left stage hpc ho]
    · rfl
  · rfl

lemma State.Apart.wakeRank {c : CallId} {s : State} {pc : CallPc} (h : s.Apart c)
    (hk : s.callPc c = some pc) : s.wakeRank c = pc.rank := by
  unfold State.wakeRank
  rw [hk]
  split
  · rename_i slot left stage hpc
    split
    · rename_i ho
      rw [h slot left stage hpc ho]
      simp [HandStage.rank]
    · simp
  · simp

lemma wakeRank_hand {c : CallId} {s : State} {pc : CallPc} {slot : Slot} {left : Nat}
    {stage : HandStage} (hpc : s.pc = .hand slot left stage) (ho : s.owner slot = c)
    (hk : s.callPc c = some pc) : s.wakeRank c = stage.rank + pc.rank := by
  simp [State.wakeRank, hpc, ho, hk]

lemma wake_frame {c : CallId} {s s' : State} (hpc : s'.pc = s.pc)
    (hown : ∀ slot ∈ s.pc.inHand, s'.owner slot = s.owner slot)
    (hcall : s'.callPc c = s.callPc c) :
    s'.wakeRank c = s.wakeRank c ∧ s'.helpful c = s.helpful c := by
  unfold State.wakeRank State.helpful
  rw [hpc, hcall]
  cases hp : s.pc with
  | hand slot left stage =>
    have ho := hown slot (by simp [hp, TaskPc.inHand])
    simp only [ho, and_self]
  | _ => exact ⟨rfl, rfl⟩

/-- A synchronous send whose message was dispatched and that has not returned. -/
structure Served (c : CallId) (s : State) : Prop where
  dispatched : c ∈ s.dispatched
  api : ∃ b, s.callArgs c = some b ∧ b.api = .sendEdMsg

def Replied (c : CallId) (s : State) : Prop :=
  ∃ v, s.callPc c = some (.returned (.replied v))

lemma HistoryInv.dispatched_not_queued {s : State} (hH : HistoryInv s) {c : CallId}
    (hc : c ∈ s.dispatched) : c ∉ s.mQuedMsgs.map s.owner := by
  have hn := hH.nodup
  rw [hH.order, List.nodup_append'] at hn
  exact fun hq => hn.2.2 (List.mem_append_left _ hc) hq

/-- The state of a served call: in hand, and then before its return, or woken. -/
lemma OpenRun.served {N : Int} {s : State} (h : OpenRun N s) {c : CallId} (hc : Served c s)
    (hr : ¬ Replied c s) : ∃ k, s.calls[c]? = some k ∧
      ((k.pc = .woken ∧ k.mtx = none ∧ s.Apart c) ∨
      (∃ slot left stage, s.pc = .hand slot left stage ∧ s.owner slot = c ∧
        stage ≠ .recycling ∧ (s.msg slot).pmtx = some c ∧ (s.msg slot).pcv = some c ∧
        (stage = .locking → k.pc = .pushed ∨ k.pc = .written ∨
          k.pc = .waiting ∧ k.mtx = none))) := by
  have hI := sync_inv h.sync
  have hA := reachable_accepted h.reachable
  have hH := reachable_history h.reachable
  have hL := reachable_link h.reachable
  obtain ⟨b, hb, ha⟩ := hc.api
  obtain ⟨k, hk, hkb⟩ := Option.map_eq_some_iff.mp hb
  have hka : k.args.api = .sendEdMsg := by
    rw [hkb]
    exact ha
  have hphase := hI.phase c k hk
  refine ⟨k, hk, ?_⟩
  rcases h.woken.dispatched c hc.dispatched k hk hka with ⟨slot, hs, ho⟩ | ⟨-, hw, -, hm⟩ | ⟨-, hw⟩
  · right
    obtain ⟨b', hb', hlink⟩ := hL.linked slot (List.mem_append_left _ (TaskPc.pending_subset hs))
    rw [ho, hb, Option.some.injEq] at hb'
    subst hb'
    rcases hlink with ⟨-, h0⟩ | ⟨hsync, -, -, hcv, hmtx⟩
    · simp [ha] at h0
    obtain ⟨-, -, -, -, k', hk', hkpc⟩ :=
      hI.sender hA hH hL (List.mem_append_left _ hs) hsync
    rw [ho, hk, Option.some.injEq] at hk'
    subst hk'
    rw [ho] at hcv hmtx
    have hopen := h.open
    cases hpc : s.pc with
    | hand slot' left stage =>
      have heq : slot = slot' ∧ stage ≠ .recycling := by
        rw [hpc] at hs
        cases stage <;> simp_all [TaskPc.pending]
      obtain ⟨rfl, hne⟩ := heq
      refine ⟨slot, left, stage, rfl, ho, hne, hmtx, hcv, ?_⟩
      rintro rfl
      rcases hkpc with hkpc | hkpc | hkpc
      · exact .inl hkpc
      · exact .inr (.inl hkpc)
      · have hl : ¬ s.Locked c := by simp [State.Locked, hpc, TaskPc.locked]
        simp only [State.Phase, hkpc, hl, false_and, not_false_eq_true, true_and,
          false_or] at hphase
        exact .inr (.inr ⟨hkpc, hphase.2.2.2⟩)
    | drain slot' stage => simp [hpc, TaskPc.closing] at hopen
    | _ => simp [hpc, TaskPc.pending] at hs
  · have hu : ¬ s.Unsettled c := by
      simp only [State.Phase, hw] at hphase
      exact hphase.2.1
    rcases hm with hm | ⟨slot, hs, ho⟩
    · left
      refine ⟨hw, hm, fun slot left stage hpc ho => ?_⟩
      have hn : ¬ s.Notified c := by
        simp only [State.Phase, hw, hm] at hphase
        simp at hphase
        exact hphase.2.2.2.2
      cases stage <;>
        simp_all [State.Unsettled, State.Notified, TaskPc.pending, TaskPc.notified]
    · right
      obtain ⟨-, hcv, hmtx, -⟩ := hI.notified hA hH hL hs
      have hopen := h.open
      cases hpc : s.pc with
      | hand slot' left stage =>
        have heq : slot = slot' ∧ stage = .notified := by
          rw [hpc] at hs
          cases stage <;> simp_all [TaskPc.notified]
        obtain ⟨rfl, rfl⟩ := heq
        rw [ho] at hcv hmtx
        exact ⟨slot, left, _, rfl, ho, by simp, hmtx, hcv, by simp⟩
      | drain slot' stage => simp [hpc, TaskPc.closing] at hopen
      | _ => simp [hpc, TaskPc.notified] at hs
  · exact absurd ⟨s.lastStored c, by simp [State.callPc, hk, hw]⟩ hr

lemma OpenRun.not_called {N : Int} {s : State} (h : OpenRun N s) {c : CallId} {k : Call}
    (hc : Served c s) (hk : s.calls[c]? = some k) : k.pc ≠ .called := by
  have hacc : c ∈ s.accepted := by
    rw [(reachable_history h.reachable).order]
    exact List.mem_append_left _ (List.mem_append_left _ hc.dispatched)
  have hac := (reachable_accepted h.reachable).pc hk hacc
  intro hpc
  simp [hpc, CallPc.accepted] at hac

lemma OpenRun.helpful_enabled {N : Int} {s : State} (h : OpenRun N s) {c : CallId}
    (hc : Served c s) (hr : ¬ Replied c s) : ((queue N).step s (s.helpful c)).isSome = true := by
  obtain ⟨k, hk, hcase⟩ := h.served hc hr
  rcases hcase with ⟨hw, hm, hap⟩ | ⟨slot, left, stage, hpc, ho, hne, hmtx, hcv, hlock⟩
  · rw [hap.helpful]
    simp [queue, Task.step, State.callPc, State.callMtx, hk, hw, hm]
  · have hcall : s.callPc c = some k.pc := by simp [State.callPc, hk]
    cases stage with
    | popped | running => simp [State.helpful, hpc, ho, queue, Task.step]
    | found pinfo => cases pinfo <;> simp [State.helpful, hpc, ho, queue, Task.step]
    | handled =>
      simp only [State.helpful, hpc, ho, queue, Task.step, if_true]
      split <;> rfl
    | locking =>
      rcases hlock rfl with hb | hb | ⟨hb, hm⟩
      · simp [State.helpful, hpc, ho, hcall, hb, queue, Task.step]
      · simp [State.helpful, hpc, ho, hcall, hb, queue, Task.step]
      · simp [State.helpful, hpc, ho, hcall, hb, queue, Task.step, State.lockPmtx, hmtx,
          State.callMtx, hk, hm]
    | locked => simp [State.helpful, hpc, ho, queue, Task.step, State.notifyPcv, hcv]
    | notified => simp [State.helpful, hpc, ho, queue, Task.step, State.unlockPmtx, hmtx]
    | recycling => exact absurd rfl hne

/-- `s'` is closer to the return of `c`, or the helpful step is still to be taken. -/
def Closer (c : CallId) (s : State) (a : Action) (s' : State) : Prop :=
  s'.wakeRank c < s.wakeRank c ∨
    s'.wakeRank c = s.wakeRank c ∧ s'.helpful c = s.helpful c ∧ a ≠ s.helpful c

section Closer

variable {c : CallId} {s s' : State} {a : Action} {p p' : CallPc}

lemma closer_apart (h : s.Apart c) (h' : s'.Apart c) (hk : s.callPc c = some p)
    (hk' : s'.callPc c = some p') (hp : p'.rank = p.rank) (ha : a ≠ .resume c) :
    Closer c s a s' := by
  refine .inr ⟨?_, ?_, ?_⟩
  · rw [h.wakeRank hk, h'.wakeRank hk', hp]
  · rw [h.helpful, h'.helpful]
  · rw [h.helpful]
    exact ha

lemma closer_hand {slot : Slot} {left : Nat} {stage stage' : HandStage}
    (hpc : s.pc = .hand slot left stage) (hpc' : s'.pc = .hand slot left stage')
    (hown : s'.owner = s.owner) (hlt : stage'.rank < stage.rank) (hk : s.callPc c = some p)
    (hk' : s'.callPc c = some p') (hp : p'.rank = p.rank) (ha : a ≠ .resume c) :
    Closer c s a s' := by
  by_cases ho : s.owner slot = c
  · left
    rw [wakeRank_hand hpc ho hk, wakeRank_hand hpc' (by rw [hown, ho]) hk', hp]
    exact Nat.add_lt_add_right hlt _
  · refine closer_apart ?_ ?_ hk hk' hp ha
    · intro slot' left' stage'' h ho'
      rw [hpc, TaskPc.hand.injEq] at h
      exact absurd (h.1 ▸ ho') ho
    · intro slot' left' stage'' h ho'
      rw [hpc', TaskPc.hand.injEq] at h
      rw [hown] at ho'
      exact absurd (h.1 ▸ ho') ho

lemma not_helpful (ha : a ∉ servingActions c) : a ≠ s.helpful c := by
  rintro rfl
  exact ha (helpful_mem c s)

lemma closer_frame (hpc : s'.pc = s.pc)
    (hown : ∀ slot ∈ s.pc.inHand, s'.owner slot = s.owner slot)
    (hcall : s'.callPc c = s.callPc c) (ha : a ≠ s.helpful c) : Closer c s a s' := by
  obtain ⟨hrank, hhelp⟩ := wake_frame hpc hown hcall
  exact .inr ⟨hrank, hhelp, ha⟩

lemma helpful_ne {d : CallId} (hd : d ≠ c) : .write d ≠ s.helpful c ∧ .wait d ≠ s.helpful c ∧
    .resume d ≠ s.helpful c := by
  have hm := helpful_mem c s
  refine ⟨?_, ?_, ?_⟩ <;>
    · intro he
      rw [← he] at hm
      simp [servingActions, hd] at hm

lemma callPc_modify_ne {d : CallId} {f : Call → Call} (hd : d ≠ c)
    (hcalls : s'.calls = s.calls.modify d f) : s'.callPc c = s.callPc c := by
  simp [State.callPc, hcalls, hd]

lemma callPc_modify_pc {d : CallId} {f : Call → Call} (hf : ∀ k, (f k).pc = k.pc)
    (hcalls : s'.calls = s.calls.modify d f) : s'.callPc c = s.callPc c := by
  by_cases hd : d = c
  · subst hd
    cases hk : s.calls[d]? with
    | none => simp [State.callPc, hcalls, hk]
    | some k => simp [State.callPc, hcalls, hk, hf]
  · exact callPc_modify_ne hd hcalls

end Closer

lemma Step.dispatched_mono {N : Int} {s s' : State} {a : Action} (h : Step N s a s') {c : CallId}
    (hc : c ∈ s.dispatched) : c ∈ s'.dispatched := by
  cases h with
  | popped => exact List.mem_append_left _ hc
  | _ => exact hc

/-- Every step keeps the call served, and either brings it closer or leaves the helpful
step to be taken. -/
lemma OpenRun.helpful_step {N : Int} {s s' : State} {a : Action} (h : OpenRun N s) {c : CallId}
    (hc : Served c s) (hr : ¬ Replied c s) (ha : beforeClose a = true) (hs : Step N s a s')
    (hr' : ¬ Replied c s') : Served c s' ∧ Closer c s a s' := by
  refine ⟨⟨hs.dispatched_mono hc.dispatched, ?_⟩, ?_⟩
  · obtain ⟨b, hb, hapi⟩ := hc.api
    exact ⟨b, hs.callArgs hb, hapi⟩
  obtain ⟨k, hk, -⟩ := h.served hc hr
  have hcall : s.callPc c = some k.pc := by simp [State.callPc, hk]
  cases hs with
  | initMsg fd hpc hfd =>
    exact closer_apart (by simp [State.Apart, hpc]) (by simp [State.Apart]) hcall hcall rfl
      (by simp)
  | call b =>
    refine closer_frame rfl (fun _ _ => rfl) ?_ (not_helpful (by simp [servingActions]))
    have hlt := (List.getElem?_eq_some_iff.mp hk).1
    simp [State.callPc, List.getElem?_append_left hlt]
  | refused d kd hkd hpcd | queueFull d kd hkd hpcd =>
    refine closer_frame rfl (fun _ _ => rfl) (callPc_modify_ne ?_ rfl)
      (not_helpful (by simp [servingActions]))
    rintro rfl
    exact h.not_called hc hkd hpcd
  | posted d kd slot m empty fresh hkd hpcd _ _ _ hal
  | pushed d kd slot m empty fresh hkd hpcd _ _ _ hal =>
    have hbusy := (hal.not_busy (reachable_slots h.reachable)).1
    refine closer_frame rfl (fun x hx => ?_) (callPc_modify_ne ?_ rfl)
      (not_helpful (by simp [servingActions]))
    · exact Function.update_of_ne (fun he : x = slot => hbusy (he ▸ hx)) _ _
    · rintro rfl
      exact h.not_called hc hkd hpcd
  | write d hpc hfd =>
    by_cases hd : d = c
    · subst hd
      have hp : k.pc = .pushed := Option.some.inj (hcall.symm.trans hpc)
      left
      simp [State.wakeRank, State.callPc, hk, hp, CallPc.rank]
    · exact closer_frame rfl (fun _ _ => rfl) (callPc_modify_ne hd rfl) (helpful_ne hd).1
  | wait d hpc =>
    by_cases hd : d = c
    · subst hd
      have hp : k.pc = .written := Option.some.inj (hcall.symm.trans hpc)
      left
      simp [State.wakeRank, State.callPc, hk, hp, CallPc.rank]
    · exact closer_frame rfl (fun _ _ => rfl) (callPc_modify_ne hd rfl) (helpful_ne hd).2.1
  | resume d hpc hm =>
    by_cases hd : d = c
    · subst hd
      exact absurd ⟨k.result, by simp [State.callPc, hk, Call.leave]⟩ hr'
    · exact closer_frame rfl (fun _ _ => rfl) (callPc_modify_ne hd rfl) (helpful_ne hd).2.2
  | writeFails d hpc hfd =>
    obtain ⟨kd, hkd, hpd⟩ := callPc_eq hpc
    have hp := (sync_inv h.sync).phase d kd hkd
    simp only [State.Phase, hpd] at hp
    exact absurd hfd (Int.not_lt.mpr hp.2.2.2.2.2)
  | spuriousWake | closeMsg | closeEmpty => simp [beforeClose] at ha
  | createTaskMsgQue | destroyTaskMsgQue | editMsg =>
    exact closer_frame rfl (fun _ _ => rfl) rfl (not_helpful (by simp [servingActions]))
  | setSendMsgResult slot left t code hpc =>
    refine closer_frame rfl (fun _ _ => rfl) ?_ (not_helpful (by simp [servingActions]))
    simp only [State.setSendMsgResult]
    split
    · split
      · exact callPc_modify_pc (by intro k; rfl) rfl
      · rfl
    · rfl
  | readNone hpc | endLoop hpc | leaveLoop hpc | read hpc | queError left hpc =>
    exact closer_apart (by simp [State.Apart, hpc]) (by simp [State.Apart, hpc]) hcall hcall rfl
      (by simp)
  | popped left slot rest hpc hm hq =>
    refine closer_apart (by simp [State.Apart, hpc]) ?_ hcall hcall rfl (by simp)
    intro slot' left' stage hpc' ho
    simp only [TaskPc.hand.injEq] at hpc'
    have hnq := (reachable_history h.reachable).dispatched_not_queued hc.dispatched
    rw [hq, List.map_cons, List.mem_cons, not_or] at hnq
    obtain ⟨rfl, -⟩ := hpc'
    exact absurd ho.symm hnq.1
  | exitMsg slot left hpc | onEventProc slot left hpc | find slot left pinfo hpc
  | handlerReturn slot left t hpc | isSync slot left hpc | notSync slot left hpc
  | invoke slot left hd hpc | noListener slot left hpc =>
    exact closer_hand hpc rfl rfl (by simp [HandStage.rank]) hcall hcall rfl (by simp)
  | lockMtx slot left d hpc | unlockMtx slot left d hpc =>
    exact closer_hand hpc rfl rfl (by simp [HandStage.rank]) hcall
      ((callPc_modify_pc (by intro k; rfl) rfl).trans hcall) rfl (by simp)
  | notify slot left d hpc =>
    have hwake : ∃ p, State.callPc { s with
        calls := s.calls.modify d Call.wake
        pc := .hand slot left .notified } c = some p ∧ p.rank = k.pc.rank := by
      by_cases hd : d = c
      · subst hd
        refine ⟨k.wake.pc, by simp [State.callPc, hk], ?_⟩
        unfold Call.wake
        split <;> simp_all [CallPc.rank]
      · exact ⟨k.pc, by simp [State.callPc, hk, hd], rfl⟩
    obtain ⟨p, hp, hrank⟩ := hwake
    exact closer_hand hpc rfl rfl (by simp [HandStage.rank]) hcall hp hrank (by simp)
  | recycle slot left hpc =>
    refine closer_apart ?_ (by simp [State.Apart]) hcall hcall rfl (by simp)
    intro slot' left' stage hpc' _
    rw [hpc, TaskPc.hand.injEq] at hpc'
    exact hpc'.2.2.symm
  | drainSync _ _ hpc | drainPost _ _ hpc | drainLock _ _ hpc | drainNotify _ _ _ hpc
  | drainUnlock _ _ hpc | drainEnd hpc =>
    have hopen := h.open
    simp [hpc, TaskPc.closing] at hopen

/-- Every call of `sendEdMsg` whose message is dispatched returns, in every run in which its
own steps and those of the task thread are taken fairly. -/
theorem served_replied {N : Int} {r : (queue N).Run}
    (hall : r.All (fun _ a => beforeClose a = true))
    {c : CallId} (hfair : ∀ a ∈ servingActions c, r.Fair a) {n : Nat}
    (hc : Served c (r.state n)) : ∃ m, n ≤ m ∧ Replied c (r.state m) := by
  refine System.Run.eventually_of_rank hall (P := Served c) (State.wakeRank c) (State.helpful c)
    (fun s _ _ => hfair _ (helpful_mem c s)) (fun s hs hP hQ => OpenRun.helpful_enabled hs hP hQ)
    (fun s a s' hs hP hQ ha hst hQ' => ?_) hc
  exact OpenRun.helpful_step hs hP hQ ha (step_cases hst) hQ'

lemma OpenRun.replied_value {N : Int} {s : State} (h : OpenRun N s) {c : CallId}
    (hc : Replied c s) : s.callPc c = some (.returned (.replied (s.lastStored c))) := by
  obtain ⟨v, hv⟩ := hc
  obtain ⟨k, hk, hpc⟩ := callPc_eq hv
  have hdr : s.drained = [] := (reachable_history h.reachable).undrained h.open
  have hp := (sync_inv h.sync).phase c k hk
  simp only [State.Phase, hpc] at hp
  have hval : v = s.lastStored c := by
    rw [hp.2.2.2.2.1]
    simp [State.reply, hdr]
  rw [hv, hval]

/-- What a step gives to `setSendMsgResult`, and for which call. -/
def State.stores (s : State) : Action → List (CallId × Int)
  | .setSendMsgResult code =>
    match s.pc with
    | .hand slot _ (.running _) => [(s.owner slot, code)]
    | _ => []
  | _ => []

/-- The values given to `setSendMsgResult` before instant `n` of a run, latest first. -/
def codes {N : Int} (r : (queue N).Run) : Nat → List (CallId × Int)
  | 0 => []
  | n + 1 => ((r.act n).map (r.state n).stores).getD [] ++ codes r n

/-- The last value that the handler of the message of `c` stored, or 0. -/
def lastCode {N : Int} (r : (queue N).Run) (c : CallId) (n : Nat) : Int :=
  ((codes r n).lookup c).getD 0

lemma Step.stored {N : Int} {s s' : State} {a : Action} (h : Step N s a s') :
    s'.stored = s.stores a ++ s.stored := by
  cases h with
  | setSendMsgResult slot left t code hpc =>
    simp [State.stores, State.setSendMsgResult, hpc]
  | _ => rfl

lemma lastCode_eq {N : Int} (r : (queue N).Run) (c : CallId) (n : Nat) :
    lastCode r c n = (r.state n).lastStored c := by
  have hcodes : codes r n = (r.state n).stored := by
    induction n with
    | zero =>
      rw [show r.state 0 = State.init from r.start]
      rfl
    | succ n ih =>
      cases ha : r.act n with
      | none =>
        rw [r.pause n ha, ← ih]
        simp [codes, ha]
      | some a =>
        rw [(step_cases (r.next n a ha)).stored, ← ih]
        simp [codes, ha]
  rw [lastCode, hcodes, State.lastStored]

/-- Before `closeMsg` and without spurious wake-ups, the sender waits when it is notified, a
dispatched sender is woken once its message is handled, and in a fair run it returns the
last value that its handler gave to `setSendMsgResult`. -/
theorem no_lost_wakeup {N : Int} :
    (∀ s, OpenRun N s → Woken s) ∧
    ∀ (r : (queue N).Run) (c : CallId), r.All (fun _ a => beforeClose a = true) →
      (∀ a ∈ servingActions c, r.Fair a) → ∀ n, Served c (r.state n) →
      ∃ m, n ≤ m ∧ (r.state m).callPc c = some (.returned (.replied (lastCode r c m))) := by
  refine ⟨fun s h => h.woken, fun r c hall hfair n hc => ?_⟩
  obtain ⟨m, hm, hrep⟩ := served_replied hall hfair hc
  refine ⟨m, hm, ?_⟩
  rw [lastCode_eq]
  exact OpenRun.replied_value (hall.reaches m) hrep

/-- The dispatcher pops the message of call 0 on the count of call 1, before call 0 writes. The
handler stores twice. -/
def earlyPopRun : List Action :=
  [.initMsg 5, .call (sendMsg 1000 1 2), .call (postMsg 1001 0 0), .enter 0, .enter 1,
    .msgevent_cb, .popMsg, .branch, .setSendMsgResult 3, .setSendMsgResult 7, .handlerReturn,
    .checkSync, .write 0, .wait 0, .lockMtx, .notify, .unlockMtx, .recycle, .resume 0, .endLoop]

/-- Call 0 returns 7 in this run. -/
theorem no_lost_wakeup_earlyPopRun : ∃ r : (queue 2).Run, Served 0 (r.state 7) ∧
    (r.state 7).callPc 0 = some .pushed ∧
    (r.state earlyPopRun.length).callPc 0 = some (.returned (.replied 7)) ∧
    lastCode r 0 earlyPopRun.length = 7 ∧ ∃ m, 7 ≤ m ∧
      (r.state m).callPc 0 = some (.returned (.replied (lastCode r 0 m))) := by
  obtain ⟨t, ht, hobs⟩ := Option.map_eq_some_iff.mp
    (show ((queue 2).exec State.init earlyPopRun).map
      (fun s => (s.pc, s.lastStored 0, s.calls.map Call.pc)) =
      some (.idle, 7, [.returned (.replied 7), .returned (.posted 0)]) by decide +kernel)
  obtain ⟨r, hact, htake, hend⟩ := System.exists_run (M := queue 2) rfl ht
  have h7 : ((queue 2).exec State.init (earlyPopRun.take 7)).map
      (fun s => (s.dispatched, s.callArgs 0, s.callPc 0)) =
        some ([0], some (sendMsg 1000 1 2), some .pushed) := by decide +kernel
  rw [htake 7] at h7
  simp only [Option.map_some, Option.some.injEq, Prod.mk.injEq] at h7
  have hserved : Served 0 (r.state 7) :=
    ⟨by rw [h7.1]; exact List.mem_singleton_self _, _, h7.2.1, rfl⟩
  have hall : r.All (fun _ a => beforeClose a = true) := by
    intro n a ha
    rw [hact] at ha
    have hok : ∀ b ∈ earlyPopRun, beforeClose b = true := by decide
    exact hok a (List.mem_of_getElem? ha)
  simp only [Prod.mk.injEq] at hobs
  have hpc0 : t.callPc 0 = some (.returned (.replied 7)) := by
    have hget : (t.calls.map Call.pc)[0]? = some (.returned (.replied 7)) := by rw [hobs.2.2]; rfl
    simpa [State.callPc] using hget
  have hfair : ∀ a ∈ servingActions 0, r.Fair a := by
    intro a ha
    refine System.Run.Fair.of_disabled (k := earlyPopRun.length) (fun n hn => ?_)
    rw [hend n hn]
    simp only [servingActions, List.mem_cons, List.not_mem_nil, or_false] at ha
    rcases ha with rfl | rfl | rfl | rfl | rfl | rfl | rfl | rfl | rfl | rfl <;>
      simp [queue, Task.step, hobs.1, hpc0]
  have hlast := hend _ (Nat.le_refl _)
  refine ⟨r, hserved, h7.2.2, ?_, ?_, no_lost_wakeup.2 r 0 hall hfair 7 hserved⟩
  · rw [hlast]
    exact hpc0
  · rw [lastCode_eq, hlast]
    exact hobs.2.1

end EdNio.Task
