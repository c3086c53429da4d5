import EdNio.Task.Driver
import EdNio.Task.Startup

/-!
# The sections under `mMsgMutex`

`postEdMsg`, `sendEdMsg` up to its unlock and the two sections of `dispatchMsgs`, statement
by statement. Any thread can run between two statements of another one, also the callers
that have passed their section, the handlers, and `msgevent_cb`, which reads the eventfd
without the mutex. The system in which a section is one step simulates this one.
-/

namespace EdNio.Task
open MachineInt Transition

/-- An assignment to a field of the message `pmsg`. -/
inductive Assign
  | msgid
  | payload
  | sync (v : Int)
  | taskque_handle
  | pcv
  | pmtx
  | psend_result
deriving DecidableEq, Repr

def Assign.run (c : CallId) (a : CallArgs) (m : EdMsg) : Assign → EdMsg
  | .msgid => { m with msgid := a.msgid }
  | .payload => m.setPayload a
  | .sync v => { m with sync := v }
  | .taskque_handle => { m with taskque_handle := a.handle }
  | .pcv => { m with pcv := some c }
  | .pmtx => { m with pmtx := some c }
  | .psend_result => { m with psend_result := some c }

/-- The assignments of each function, in order. -/
def Api.assigns : Api → List Assign
  | .postEdMsg => [.msgid, .payload, .sync 0, .taskque_handle]
  | .sendEdMsg => [.taskque_handle, .pcv, .pmtx, .msgid, .payload, .sync 1, .psend_result]

/-- What the caller writes into the message it was given. -/
def CallArgs.fill (a : CallArgs) (c : CallId) (m : EdMsg) : EdMsg :=
  match a.api with
  | .postEdMsg => m.fillPost a
  | .sendEdMsg => m.fillSend c a

lemma foldl_assigns (a : CallArgs) (c : CallId) (m : EdMsg) :
    a.api.assigns.foldl (Assign.run c a) m = a.fill c m := by
  cases ha : a.api <;> simp only [CallArgs.fill, ha, Api.assigns, List.foldl, Assign.run,
    EdMsg.fillPost, EdMsg.fillSend, EdMsg.setPayload]

/-- Where a caller stands in its section. `opened` is after the test of `mMsgFd`, `exhausted`
after `mEmptyMsgs.pop_front()` returned null, `queued` between `push_back` and `write` of
`postEdMsg`, `leaving` before `mMsgMutex.unlock()`. -/
inductive SectionPc
  | outside
  | locked
  | opened
  | exhausted
  | filling (slot : Slot) (rest : List Assign)
  | queued (slot : Slot)
  | leaving
deriving DecidableEq, Repr

/-- Where the task thread stands in a section of `dispatchMsgs`. -/
inductive DispatchPc
  | outside
  | locked
  | leaving
deriving DecidableEq, Repr

/-- The memory of the task, and where each thread stands in a section. -/
structure Sections where
  queue : State
  caller : CallId → SectionPc
  dispatcher : DispatchPc

namespace Sections

variable (x : Sections)

def setCaller (c : CallId) (p : SectionPc) (s : State) : Sections :=
  { x with queue := s, caller := Function.update x.caller c p }

/-- The next statement of call `c`. -/
def callerStep (mMaxMsqQueSize : Int) (c : CallId) : Option Sections :=
  match x.queue.calls[c]? with
  | none => none
  | some k =>
    match x.caller c with
    | .outside =>
      if k.pc = .called ∧ x.queue.mMsgMutex = false then
        some (x.setCaller c .locked { x.queue with mMsgMutex := true })
      else none
    | .locked =>
      if x.queue.mMsgFd < 0 then
        some (x.setCaller c .leaving (x.queue.updCall c (Call.leave .refused)))
      else some (x.setCaller c .opened x.queue)
    -- `allocMsgObj`
    | .opened =>
      match x.queue.mEmptyMsgs with
      | slot :: rest =>
        some (x.setCaller c (.filling slot k.args.api.assigns) { x.queue with mEmptyMsgs := rest })
      | [] => some (x.setCaller c .exhausted x.queue)
    | .exhausted =>
      if toI32 (State.size x.queue.mEmptyMsgs + State.size x.queue.mQuedMsgs) < mMaxMsqQueSize then
        some (x.setCaller c (.filling x.queue.fresh k.args.api.assigns) { x.queue with
          fresh := x.queue.fresh + 1
          msg := Function.update x.queue.msg x.queue.fresh EdMsg.zero })
      else some (x.setCaller c .leaving (x.queue.updCall c (Call.leave .queueFull)))
    | .filling slot (a :: rest) =>
      some (x.setCaller c (.filling slot rest) { x.queue with
        msg := Function.update x.queue.msg slot (a.run c k.args (x.queue.msg slot)) })
    | .filling slot [] =>
      match k.args.api with
      | .postEdMsg =>
        some (x.setCaller c (.queued slot)
          { x.queue with mQuedMsgs := x.queue.mQuedMsgs ++ [slot] })
      -- with the lock of its own mutex, which no other thread knows yet
      | .sendEdMsg =>
        some (x.setCaller c .leaving ({ x.queue with
          mQuedMsgs := x.queue.mQuedMsgs ++ [slot]
          owner := Function.update x.queue.owner slot c
          accepted := x.queue.accepted ++ [c] }.updCall c Call.push))
    -- the history takes note of the message with the write
    | .queued slot =>
      let (ret, t) := x.queue.writeEventfd
      some (x.setCaller c .leaving ({ t with
        owner := Function.update x.queue.owner slot c
        accepted := x.queue.accepted ++ [c] }.updCall c
          (Call.leave (.posted (if ret = 8 then 0 else -2)))))
    | .leaving => some (x.setCaller c .outside { x.queue with mMsgMutex := false })

/-- The next statement of a section of `dispatchMsgs`. -/
def dispatchStep : Option Sections :=
  match x.dispatcher, x.queue.pc with
  | .outside, .loop (_ + 1) | .outside, .hand _ _ .recycling =>
    if x.queue.mMsgMutex then none
    else some { x with queue := { x.queue with mMsgMutex := true }, dispatcher := .locked }
  | .locked, .loop (left + 1) =>
    some { x with queue := x.queue.popMsg left, dispatcher := .leaving }
  | .locked, .hand slot left .recycling =>
    some { x with
      queue := { x.queue with mEmptyMsgs := x.queue.mEmptyMsgs ++ [slot], pc := .loop left }
      dispatcher := .leaving }
  | .leaving, _ =>
    some { x with queue := { x.queue with mMsgMutex := false }, dispatcher := .outside }
  | _, _ => none

end Sections

/-- `caller c` and `dispatcher` take the next statement of their section. -/
inductive SectionAction
  | caller (c : CallId)
  | dispatcher
  | other (a : Action)

/-- The sections themselves, and the steps of a thread that is in one. -/
def Sections.busy (x : Sections) : Action → Bool
  | .enter _ | .popMsg | .recycle => true
  | .write c => x.caller c ≠ .outside
  | a => a.byTask ∧ x.dispatcher ≠ .outside

def sectionStep (mMaxMsqQueSize : Int) (x : Sections) : SectionAction → Option Sections
  | .caller c => x.callerStep mMaxMsqQueSize c
  | .dispatcher => x.dispatchStep
  | .other a =>
    if x.busy a then none
    else (step mMaxMsqQueSize x.queue a).map (fun s => { x with queue := s })

def nobody : CallId → SectionPc := fun _ => .outside

def sections (mMaxMsqQueSize : Int) : System Sections SectionAction where
  init x := x = ⟨State.init, nobody, .outside⟩
  step := sectionStep mMaxMsqQueSize

/-- What the statements of a caller can do. -/
inductive CallerStep (N : Int) (x : Sections) (c : CallId) (k : Call) : Sections → Prop
  | lock : x.caller c = .outside → k.pc = .called → x.queue.mMsgMutex = false →
      CallerStep N x c k (x.setCaller c .locked { x.queue with mMsgMutex := true })
  | refuse : x.caller c = .locked → x.queue.mMsgFd < 0 →
      CallerStep N x c k (x.setCaller c .leaving (x.queue.updCall c (Call.leave .refused)))
  | go : x.caller c = .locked → 0 ≤ x.queue.mMsgFd →
      CallerStep N x c k (x.setCaller c .opened x.queue)
  | recycled (slot : Slot) (rest : List Slot) : x.caller c = .opened →
      x.queue.mEmptyMsgs = slot :: rest →
      CallerStep N x c k (x.setCaller c (.filling slot k.args.api.assigns)
        { x.queue with mEmptyMsgs := rest })
  | exhaust : x.caller c = .opened → x.queue.mEmptyMsgs = [] →
      CallerStep N x c k (x.setCaller c .exhausted x.queue)
  | new : x.caller c = .exhausted →
      toI32 (State.size x.queue.mEmptyMsgs + State.size x.queue.mQuedMsgs) < N →
      CallerStep N x c k (x.setCaller c (.filling x.queue.fresh k.args.api.assigns) { x.queue with
        fresh := x.queue.fresh + 1
        msg := Function.update x.queue.msg x.queue.fresh EdMsg.zero })
  | full : x.caller c = .exhausted →
      ¬ toI32 (State.size x.queue.mEmptyMsgs + State.size x.queue.mQuedMsgs) < N →
      CallerStep N x c k (x.setCaller c .leaving (x.queue.updCall c (Call.leave .queueFull)))
  | assign (slot : Slot) (a : Assign) (rest : List Assign) :
      x.caller c = .filling slot (a :: rest) →
      CallerStep N x c k (x.setCaller c (.filling slot rest) { x.queue with
        msg := Function.update x.queue.msg slot (a.run c k.args (x.queue.msg slot)) })
  | append (slot : Slot) : x.caller c = .filling slot [] → k.args.api = .postEdMsg →
      CallerStep N x c k (x.setCaller c (.queued slot)
        { x.queue with mQuedMsgs := x.queue.mQuedMsgs ++ [slot] })
  | push (slot : Slot) : x.caller c = .filling slot [] → k.args.api = .sendEdMsg →
      CallerStep N x c k (x.setCaller c .leaving ({ x.queue with
        mQuedMsgs := x.queue.mQuedMsgs ++ [slot]
        owner := Function.update x.queue.owner slot c
        accepted := x.queue.accepted ++ [c] }.updCall c Call.push))
  | write (slot : Slot) : x.caller c = .queued slot →
      CallerStep N x c k (x.setCaller c .leaving ({ x.queue.writeEventfd.2 with
        owner := Function.update x.queue.owner slot c
        accepted := x.queue.accepted ++ [c] }.updCall c
          (Call.leave (.posted (if x.queue.writeEventfd.1 = 8 then 0 else -2)))))
  | unlock : x.caller c = .leaving →
      CallerStep N x c k (x.setCaller c .outside { x.queue with mMsgMutex := false })

theorem callerStep_iff {N : Int} {x y : Sections} {c : CallId} :
    x.callerStep N c = some y ↔ ∃ k, x.queue.calls[c]? = some k ∧ CallerStep N x c k y := by
  unfold Sections.callerStep
  cases hk : x.queue.calls[c]? with
  | none => simp
  | some k =>
    constructor
    · intro h
      refine ⟨k, rfl, ?_⟩
      cases hp : x.caller c with
      | outside =>
        simp only [hp, Option.ite_none_right_eq_some, Option.some.injEq] at h
        exact h.2 ▸ .lock hp h.1.1 h.1.2
      | locked =>
        by_cases hfd : x.queue.mMsgFd < 0
        · simp only [hp, hfd, if_true, Option.some.injEq] at h
          exact h ▸ .refuse hp hfd
        · simp only [hp, hfd, if_false, Option.some.injEq] at h
          exact h ▸ .go hp (Int.not_lt.mp hfd)
      | opened =>
        cases he : x.queue.mEmptyMsgs with
        | cons slot rest =>
          simp only [hp, he, Option.some.injEq] at h
          exact h ▸ .recycled slot rest hp he
        | nil =>
          simp only [hp, he, Option.some.injEq] at h
          exact h ▸ .exhaust hp he
      | exhausted =>
        simp only [hp] at h
        split at h
        · rename_i hlt
          exact Option.some.inj h ▸ .new hp hlt
        · rename_i hlt
          exact Option.some.inj h ▸ .full hp hlt
      | filling slot rest =>
        cases rest with
        | cons a rest =>
          simp only [hp, Option.some.injEq] at h
          exact h ▸ .assign slot a rest hp
        | nil =>
          cases ha : k.args.api with
          | postEdMsg =>
            simp only [hp, ha, Option.some.injEq] at h
            exact h ▸ .append slot hp ha
          | sendEdMsg =>
            simp only [hp, ha, Option.some.injEq] at h
            exact h ▸ .push slot hp ha
      | queued slot =>
        simp only [hp, Option.some.injEq] at h
        exact h ▸ .write slot hp
      | leaving =>
        simp only [hp, Option.some.injEq] at h
        exact h ▸ .unlock hp
    · rintro ⟨k', hk', h⟩
      obtain rfl := Option.some.inj hk'
      cases h with
      | go hp hfd => simp [hp, Int.not_lt.mpr hfd]
      | _ => simp [*]

/-- What the statements of the task thread can do. -/
inductive DispatchStep (x : Sections) : Sections → Prop
  | lock : x.dispatcher = .outside → x.queue.mMsgMutex = false →
      ((∃ left, x.queue.pc = .loop (left + 1)) ∨
        ∃ slot left, x.queue.pc = .hand slot left .recycling) →
      DispatchStep x { x with queue := { x.queue with mMsgMutex := true }, dispatcher := .locked }
  | pop (left : Nat) : x.dispatcher = .locked → x.queue.pc = .loop (left + 1) →
      DispatchStep x { x with queue := x.queue.popMsg left, dispatcher := .leaving }
  | recycle (slot : Slot) (left : Nat) : x.dispatcher = .locked →
      x.queue.pc = .hand slot left .recycling →
      DispatchStep x { x with
        queue := { x.queue with mEmptyMsgs := x.queue.mEmptyMsgs ++ [slot], pc := .loop left }
        dispatcher := .leaving }
  | unlock : x.dispatcher = .leaving →
      DispatchStep x { x with queue := { x.queue with mMsgMutex := false }, dispatcher := .outside }

theorem dispatchStep_iff {x y : Sections} : x.dispatchStep = some y ↔ DispatchStep x y := by
  constructor
  · intro h
    unfold Sections.dispatchStep at h
    split at h
    · rename_i left hd hpc
      simp only [Option.ite_none_left_eq_some, Option.some.injEq] at h
      exact h.2 ▸ .lock hd (by simpa using h.1) (.inl ⟨left, hpc⟩)
    · rename_i slot left hd hpc
      simp only [Option.ite_none_left_eq_some, Option.some.injEq] at h
      exact h.2 ▸ .lock hd (by simpa using h.1) (.inr ⟨slot, left, hpc⟩)
    · rename_i left hd hpc
      exact (Option.some.inj h) ▸ .pop left hd hpc
    · rename_i slot left hd hpc
      exact (Option.some.inj h) ▸ .recycle slot left hd hpc
    · rename_i hd
      exact (Option.some.inj h) ▸ .unlock hd
    · cases h
  · intro h
    cases h with
    | lock hd hm hpc =>
      obtain ⟨left, hpc⟩ | ⟨slot, left, hpc⟩ := hpc <;> simp [Sections.dispatchStep, hd, hpc, hm]
    | _ => simp [Sections.dispatchStep, *]

/-- What a caller in its section has done to the memory: `fill` is what it wrote into the
message it was given. -/
structure Held where
  mEmptyMsgs : List Slot
  mQuedMsgs : List Slot
  fresh : Slot
  fill : (Slot → EdMsg) → Slot → EdMsg

/-- Nothing yet. -/
def Held.of (s : State) : Held :=
  ⟨s.mEmptyMsgs, s.mQuedMsgs, s.fresh, id⟩

/-- The memory while a thread is in a section. -/
def State.over (s : State) (h : Held) : State :=
  { s with
    mMsgMutex := true
    mEmptyMsgs := h.mEmptyMsgs
    mQuedMsgs := h.mQuedMsgs
    fresh := h.fresh
    msg := h.fill s.msg }

/-- The messages of `slots` are not written. -/
def Held.Spares (h : Held) (slots : List Slot) : Prop :=
  ∀ slot ∈ slots, ∀ g : Slot → EdMsg, h.fill g slot = g slot ∧
    ∀ m, h.fill (Function.update g slot m) = Function.update (h.fill g) slot m

/-- Call `c` has not passed its section. -/
def State.Called (s : State) (c : CallId) (b : CallArgs) : Prop :=
  ∃ k, s.calls[c]? = some k ∧ k.pc = .called ∧ k.args = b

/-- What the threads that are in no section leave alone. -/
structure Apart (s t : State) : Prop where
  mMsgMutex : t.mMsgMutex = s.mMsgMutex := by rfl
  mEmptyMsgs : t.mEmptyMsgs = s.mEmptyMsgs := by rfl
  mQuedMsgs : t.mQuedMsgs = s.mQuedMsgs := by rfl
  fresh : t.fresh = s.fresh := by rfl
  inHand : t.pc.inHand = s.pc.inHand := by rfl
  msg : ∀ slot, slot ∉ s.pc.inHand → t.msg slot = s.msg slot := by exact fun _ _ => rfl
  mMsgFd : 0 ≤ s.mMsgFd → 0 ≤ t.mMsgFd := by exact id
  called : ∀ c b, s.Called c b → t.Called c b := by exact fun _ _ hc => hc

variable {N : Int} {s t : State} {a : Action} {c d : CallId} {b : CallArgs} {h : Held}

lemma State.Called.modify {f : Call → Call} (hc : s.Called c b) (ht : t.calls = s.calls.modify d f)
    (hf : ∀ k, s.calls[d]? = some k → k.pc = .called → (f k).pc = .called ∧ (f k).args = k.args) :
    t.Called c b := by
  obtain ⟨k, hk, hpc, hb⟩ := hc
  by_cases hd : d = c
  · subst hd
    obtain ⟨hpc', hb'⟩ := hf k hk hpc
    exact ⟨f k, by simp [ht, hk], hpc', hb'.trans hb⟩
  · exact ⟨k, by simp [ht, hd, hk], hpc, hb⟩

lemma State.Called.modify_other {f : Call → Call} {p : CallPc} (hc : s.Called c b)
    (ht : t.calls = s.calls.modify d f) (hd : s.callPc d = some p) (hp : p ≠ .called) :
    t.Called c b := by
  refine hc.modify ht (fun k hk hpc => absurd ?_ hp)
  simpa [State.callPc, hk, hpc, eq_comm] using hd

lemma Call.wake_called (k : Call) (hpc : k.pc = .called) :
    k.wake.pc = .called ∧ k.wake.args = k.args := by
  simp [Call.wake, hpc]

lemma State.Called.setSendMsgResult (hc : s.Called c b) (slot : Slot) (code : Int) :
    (s.setSendMsgResult slot code).Called c b := by
  simp only [State.Called, State.setSendMsgResult]
  split
  · split
    · exact hc.modify (t := { s with calls := _ }) rfl (fun _ _ h => ⟨h, rfl⟩)
    · exact hc
  · exact hc

/-- A step of a thread that is in no section is the same step of the system in which the
section has not begun. -/
theorem Step.under (hh : h.Spares s.pc.inHand) (hl : s.pc.locking = false)
    (hstep : Step N (s.over h) a t) : ∃ s', Step N s a s' ∧ t = s'.over h ∧ Apart s s' := by
  have hmsg : ∀ slot ∈ s.pc.inHand, (s.over h).msg slot = s.msg slot :=
    fun slot hs => (hh slot hs s.msg).1
  cases hstep with
  | initMsg fd hpc hfd =>
    have hp : s.pc = .created := hpc
    exact ⟨_, .initMsg fd hpc hfd, rfl, {
      inHand := by simp [TaskPc.inHand, hp]
      mMsgFd := fun _ => Int.le_of_lt hfd }⟩
  | call b =>
    refine ⟨_, .call b, rfl, { called := ?_ }⟩
    rintro c b' ⟨k, hk, hpc, hb⟩
    have hlt := (List.getElem?_eq_some_iff.mp hk).1
    exact ⟨k, by rw [List.getElem?_append_left hlt, hk], hpc, hb⟩
  | write c hpc hfd =>
    exact ⟨_, .write c hpc hfd, rfl, { called := fun _ _ hc => hc.modify_other rfl hpc (by simp) }⟩
  | writeFails c hpc hfd =>
    exact ⟨_, .writeFails c hpc hfd, rfl,
      { called := fun _ _ hc => hc.modify_other rfl hpc (by simp) }⟩
  | wait c hpc =>
    exact ⟨_, .wait c hpc, rfl, { called := fun _ _ hc => hc.modify_other rfl hpc (by simp) }⟩
  | spuriousWake c hpc =>
    exact ⟨_, .spuriousWake c hpc, rfl,
      { called := fun _ _ hc => hc.modify_other rfl hpc (by simp) }⟩
  | resume c hpc hm =>
    exact ⟨_, .resume c hpc hm, rfl, { called := fun _ _ hc => hc.modify_other rfl hpc (by simp) }⟩
  | createTaskMsgQue pTask lis =>
    exact ⟨_, .createTaskMsgQue pTask lis, rfl, {}⟩
  | destroyTaskMsgQue handle =>
    exact ⟨_, .destroyTaskMsgQue handle, rfl, {}⟩
  | readNone hpc hx he =>
    exact ⟨_, .readNone hpc hx he, rfl, {}⟩
  | read hpc hx he =>
    have hp : s.pc = .idle := hpc
    exact ⟨_, .read hpc hx he, rfl, { inHand := by simp [TaskPc.inHand, hp] }⟩
  | endLoop hpc =>
    have hp : s.pc = .loop 0 := hpc
    exact ⟨_, .endLoop hpc, rfl, { inHand := by simp [TaskPc.inHand, hp] }⟩
  | leaveLoop hpc hx =>
    have hp : s.pc = .idle := hpc
    exact ⟨_, .leaveLoop hpc hx, rfl, { inHand := by simp [TaskPc.inHand, hp] }⟩
  | exitMsg slot left hpc hx =>
    have hp : s.pc = .hand slot left .popped := hpc
    rw [hmsg slot (by simp [TaskPc.inHand, hp])] at hx
    exact ⟨_, .exitMsg slot left hpc hx, rfl, { inHand := by simp [TaskPc.inHand, hp] }⟩
  | onEventProc slot left hpc hx hh' =>
    have hp : s.pc = .hand slot left .popped := hpc
    have hm := hmsg slot (by simp [TaskPc.inHand, hp])
    rw [hm] at hx hh'
    refine ⟨_, .onEventProc slot left hpc hx hh', ?_,
      { inHand := by simp [TaskPc.inHand, State.deliver, hp] }⟩
    simp only [State.deliver, hm]
    rfl
  | find slot left pinfo hpc hx hh' hf =>
    have hp : s.pc = .hand slot left .popped := hpc
    rw [hmsg slot (by simp [TaskPc.inHand, hp])] at hx hh' hf
    exact ⟨_, .find slot left pinfo hpc hx hh' hf, rfl, { inHand := by simp [TaskPc.inHand, hp] }⟩
  | invoke slot left handle hpc =>
    have hp : s.pc = .hand slot left (.found (some handle)) := hpc
    have hm := hmsg slot (by simp [TaskPc.inHand, hp])
    refine ⟨_, .invoke slot left handle hpc, ?_,
      { inHand := by simp [TaskPc.inHand, State.deliver, hp] }⟩
    simp only [State.deliver, hm]
    rfl
  | noListener slot left hpc =>
    have hp : s.pc = .hand slot left (.found none) := hpc
    exact ⟨_, .noListener slot left hpc, rfl,
      { inHand := by simp [TaskPc.inHand, State.finish, hp] }⟩
  | handlerReturn slot left target hpc =>
    have hp : s.pc = .hand slot left (.running target) := hpc
    exact ⟨_, .handlerReturn slot left target hpc, rfl,
      { inHand := by simp [TaskPc.inHand, State.finish, hp] }⟩
  | setSendMsgResult slot left target code hpc =>
    have hp : s.pc = .hand slot left (.running target) := hpc
    have hm := hmsg slot (by simp [TaskPc.inHand, hp])
    refine ⟨_, .setSendMsgResult slot left target code hpc, ?_,
      { called := fun _ _ hc => hc.setSendMsgResult slot code }⟩
    simp only [State.setSendMsgResult, hm]
    rfl
  | editMsg slot left target v hpc =>
    have hp : s.pc = .hand slot left (.running target) := hpc
    obtain ⟨hm, hu⟩ := hh slot (by simp [TaskPc.inHand, hp]) s.msg
    refine ⟨_, .editMsg slot left target v hpc, ?_, { msg := ?_ }⟩
    · simp only [State.over, hm, hu]
    · intro y hy
      have hne : y ≠ slot := fun he => hy (by simp [TaskPc.inHand, hp, he])
      exact Function.update_of_ne hne _ _
  | isSync slot left hpc hs =>
    have hp : s.pc = .hand slot left .handled := hpc
    rw [hmsg slot (by simp [TaskPc.inHand, hp])] at hs
    exact ⟨_, .isSync slot left hpc hs, rfl, { inHand := by simp [TaskPc.inHand, hp] }⟩
  | notSync slot left hpc hs =>
    have hp : s.pc = .hand slot left .handled := hpc
    rw [hmsg slot (by simp [TaskPc.inHand, hp])] at hs
    exact ⟨_, .notSync slot left hpc hs, rfl, { inHand := by simp [TaskPc.inHand, hp] }⟩
  | lockMtx slot left c hpc hc hf =>
    have hp : s.pc = .hand slot left .locking := hpc
    rw [hmsg slot (by simp [TaskPc.inHand, hp])] at hc
    exact ⟨_, .lockMtx slot left c hpc hc hf, rfl, {
      inHand := by simp [TaskPc.inHand, hp]
      called := fun _ _ hc => hc.modify rfl (fun _ _ h => ⟨h, rfl⟩) }⟩
  | notify slot left c hpc hc =>
    have hp : s.pc = .hand slot left .locked := hpc
    rw [hmsg slot (by simp [TaskPc.inHand, hp])] at hc
    exact ⟨_, .notify slot left c hpc hc, rfl, {
      inHand := by simp [TaskPc.inHand, hp]
      called := fun _ _ hc => hc.modify rfl (fun k _ h => k.wake_called h) }⟩
  | unlockMtx slot left c hpc hc =>
    have hp : s.pc = .hand slot left .notified := hpc
    rw [hmsg slot (by simp [TaskPc.inHand, hp])] at hc
    exact ⟨_, .unlockMtx slot left c hpc hc, rfl, {
      inHand := by simp [TaskPc.inHand, hp]
      called := fun _ _ hc => hc.modify rfl (fun _ _ h => ⟨h, rfl⟩) }⟩
  | refused c k hk hpc hm | queueFull c k hk hpc hm | posted c k slot m empty fresh hk hpc hm
  | pushed c k slot m empty fresh hk hpc hm => exact absurd hm (by simp [State.over])
  | popped left slot rest hpc hm | queError left hpc hm | recycle slot left hpc hm
  | closeMsg hpc hm | closeEmpty hpc hm => exact absurd hm (by simp [State.over])
  | drainSync slot rest hpc | drainPost slot rest hpc | drainLock slot c hpc
  | drainNotify slot c d hpc | drainUnlock slot c hpc | drainEnd hpc =>
    have hp : s.pc = _ := hpc
    simp [hp, TaskPc.locking] at hl

/-- What call `c` has done where it stands: it has been given a message and has written the
fields but those in `rest`, and has not yet got to its `write`. -/
inductive Within (N : Int) (s : State) (c : CallId) (b : CallArgs) : SectionPc → Held → Prop
  | locked : Within N s c b .locked (.of s)
  | opened : 0 ≤ s.mMsgFd → Within N s c b .opened (.of s)
  | exhausted : 0 ≤ s.mMsgFd → s.mEmptyMsgs = [] → Within N s c b .exhausted (.of s)
  | filling {slot fresh : Slot} {m : EdMsg} {empty : List Slot} (v : EdMsg) (rest : List Assign) :
      0 ≤ s.mMsgFd → Alloc N s slot m empty fresh → rest.foldl (Assign.run c b) v = b.fill c m →
      Within N s c b (.filling slot rest)
        ⟨empty, s.mQuedMsgs, fresh, fun g => Function.update g slot v⟩
  | queued {slot fresh : Slot} {m : EdMsg} {empty : List Slot} : 0 ≤ s.mMsgFd →
      Alloc N s slot m empty fresh → b.api = .postEdMsg →
      Within N s c b (.queued slot)
        ⟨empty, s.mQuedMsgs ++ [slot], fresh, fun g => Function.update g slot (b.fill c m)⟩

lemma Held.spares_update {slots : List Slot} {slot : Slot} {m : EdMsg} {empty queued : List Slot}
    {fresh : Slot} (hs : slot ∉ slots) :
    (⟨empty, queued, fresh, fun g => Function.update g slot m⟩ : Held).Spares slots := by
  intro x hx g
  have hne : x ≠ slot := fun he => hs (he ▸ hx)
  exact ⟨Function.update_of_ne hne _ _, fun m' => Function.update_comm hne _ _ _⟩

lemma Held.spares_of (s : State) (slots : List Slot) : (Held.of s).Spares slots :=
  fun _ _ _ => ⟨rfl, fun _ => rfl⟩

lemma Within.spares {p : SectionPc} (hw : Within N s c b p h) (hS : SlotsInv s) :
    h.Spares s.pc.inHand := by
  cases hw with
  | filling v rest hfd hal | queued hfd hal => exact Held.spares_update (hal.not_busy hS).1
  | _ => exact Held.spares_of s _

lemma Apart.held (ha : Apart s t) : Held.of t = Held.of s := by
  simp [Held.of, ha.mEmptyMsgs, ha.mQuedMsgs, ha.fresh]

lemma Apart.alloc {slot fresh : Slot} {m : EdMsg} {empty : List Slot} (ha : Apart s t)
    (hS : SlotsInv s) (hal : Alloc N s slot m empty fresh) : Alloc N t slot m empty fresh := by
  have hb := (hal.not_busy hS).1
  cases hal with
  | recycled he =>
    rw [← ha.msg slot hb, ← ha.fresh]
    exact .recycled (ha.mEmptyMsgs.trans he)
  | new he hlt =>
    rw [← ha.fresh]
    exact .new (ha.mEmptyMsgs.trans he) (ha.mQuedMsgs ▸ hlt)

lemma Within.apart {p : SectionPc} (hw : Within N s c b p h) (hS : SlotsInv s) (ha : Apart s t) :
    Within N t c b p h := by
  cases hw with
  | locked => exact ha.held ▸ .locked
  | opened hfd => exact ha.held ▸ .opened (ha.mMsgFd hfd)
  | exhausted hfd he => exact ha.held ▸ .exhausted (ha.mMsgFd hfd) (ha.mEmptyMsgs.trans he)
  | filling v rest hfd hal hv =>
    exact ha.mQuedMsgs ▸ .filling v rest (ha.mMsgFd hfd) (ha.alloc hS hal) hv
  | queued hfd hal hb =>
    exact ha.mQuedMsgs ▸ .queued (ha.mMsgFd hfd) (ha.alloc hS hal) hb

/-- Only call `c` is in a section. -/
abbrev Sections.only (s : State) (c : CallId) (p : SectionPc) : Sections :=
  ⟨s, Function.update nobody c p, .outside⟩

/-- The state in which the thread that is in a section has not yet begun it, or has ended it:
the section happens with the test of `mMsgFd` or of the size that refuses the message, with the
`write` of `postEdMsg`, with the `push_back` of `sendEdMsg`, with the list operation of
`dispatchMsgs`. -/
inductive Refines (N : Int) : Sections → State → Prop
  | free (s : State) : Refines N ⟨s, nobody, .outside⟩ s
  | caller {s : State} {c : CallId} {b : CallArgs} {p : SectionPc} {h : Held} :
      s.mMsgMutex = false → s.Called c b → Within N s c b p h →
      Refines N (.only (s.over h) c p) s
  | leaving {s : State} (c : CallId) : s.mMsgMutex = false →
      Refines N (.only (s.over (.of s)) c .leaving) s
  | dispatcher {s : State} (p : DispatchPc) : s.mMsgMutex = false → p ≠ .outside →
      Refines N ⟨s.over (.of s), nobody, p⟩ s

lemma Refines.other {x y : Sections} (hR : Refines N x s) (hS : SlotsInv s) (hG : GateInv s)
    (hs : sectionStep N x (.other a) = some y) :
    ∃ t, step N s a = some t ∧ Refines N y t := by
  simp only [sectionStep, Option.ite_none_left_eq_some, Option.map_eq_some_iff] at hs
  obtain ⟨-, u, hu, rfl⟩ := hs
  have hunder : ∀ h : Held, h.Spares s.pc.inHand → s.mMsgMutex = false →
      step N (s.over h) a = some u → ∃ t, step N s a = some t ∧ u = t.over h ∧ Apart s t := by
    intro h hh hm hu
    obtain ⟨t, ht, hut, ha⟩ := (step_cases hu).under hh (hG.mutex ▸ hm)
    exact ⟨t, step_of_cases ht, hut, ha⟩
  cases hR with
  | free => exact ⟨u, hu, .free u⟩
  | caller hm hc hw =>
    obtain ⟨t, ht, rfl, ha⟩ := hunder _ (hw.spares hS) hm hu
    exact ⟨t, ht, .caller (ha.mMsgMutex.trans hm) (ha.called _ _ hc) (hw.apart hS ha)⟩
  | leaving c hm =>
    obtain ⟨t, ht, rfl, ha⟩ := hunder _ (Held.spares_of s _) hm hu
    exact ⟨t, ht, ha.held ▸ .leaving c (ha.mMsgMutex.trans hm)⟩
  | dispatcher p hm hp =>
    obtain ⟨t, ht, rfl, ha⟩ := hunder _ (Held.spares_of s _) hm hu
    exact ⟨t, ht, ha.held ▸ .dispatcher p (ha.mMsgMutex.trans hm) hp⟩

lemma over_of (hm : s.mMsgMutex = false) :
    { s.over (.of s) with mMsgMutex := false } = s := by
  cases s
  simp_all [State.over, Held.of]

lemma only_outside : Sections.only s c .outside = ⟨s, nobody, .outside⟩ := by
  have hn : Function.update nobody c .outside = nobody := Function.update_eq_self c nobody
  rw [Sections.only, hn]

lemma only_caller (c : CallId) (p : SectionPc) : Function.update nobody c p c = p :=
  Function.update_self _ _ _

lemma Refines.dispatchStep {x y : Sections} (hR : Refines N x s) (hs : DispatchStep x y) :
    ∃ t, (t = s ∨ ∃ a, step N s a = some t) ∧ Refines N y t := by
  cases hR with
  | free =>
    cases hs with
    | lock hd hm hpc => exact ⟨s, .inl rfl, .dispatcher .locked hm (by simp)⟩
    | pop left hd | recycle slot left hd | unlock hd => cases hd
  | caller | leaving =>
    cases hs with
    | lock hd hm => exact absurd hm (by simp [State.over])
    | pop left hd | recycle slot left hd | unlock hd => cases hd
  | dispatcher p hm hp =>
    cases hs with
    | lock hd => exact absurd hd hp
    | pop left hd hpc =>
      have hpc : s.pc = .loop (left + 1) := hpc
      refine ⟨s.popMsg left, .inr ⟨.popMsg, by simp [step, hpc, hm]⟩, ?_⟩
      have heq : (s.over (.of s)).popMsg left = (s.popMsg left).over (.of (s.popMsg left)) := by
        cases hq : s.mQuedMsgs <;> simp [State.popMsg, State.over, Held.of, hq]
      have hm' : (s.popMsg left).mMsgMutex = false := by
        cases hq : s.mQuedMsgs <;> simp [State.popMsg, hq, hm]
      exact heq ▸ .dispatcher .leaving hm' (by simp)
    | recycle slot left hd hpc =>
      refine ⟨_, .inr ⟨.recycle, step_of_cases (.recycle slot left hpc hm)⟩, ?_⟩
      exact .dispatcher (s := { s with mEmptyMsgs := s.mEmptyMsgs ++ [slot], pc := .loop left })
        .leaving hm (by simp)
    | unlock hd => exact ⟨s, .inl rfl, by simpa only [over_of hm] using .free (N := N) s⟩

lemma State.Called.calls {k : Call} (hc : s.Called c b) (hk : s.calls[c]? = some k) :
    k.pc = .called ∧ k.args = b := by
  obtain ⟨k', hk', hpc, hb⟩ := hc
  obtain rfl := Option.some.inj (hk.symm.trans hk')
  exact ⟨hpc, hb⟩

lemma CallerStep.inside {x y : Sections} {k : Call} (hs : CallerStep N x c k y)
    (hm : x.queue.mMsgMutex = true) : x.caller c ≠ .outside := by
  cases hs with
  | lock hd hpc hm' => simp [hm] at hm'
  | _ => simp [*]

lemma setCaller_only {s t : State} {p q : SectionPc} :
    (Sections.only s c p).setCaller c q t = .only t c q := by
  simp [Sections.setCaller]

lemma Within.callerStep {p : SectionPc} {y : Sections} {k : Call} (hm : s.mMsgMutex = false)
    (hk : s.calls[c]? = some k) (hpc : k.pc = .called) (hw : Within N s c k.args p h)
    (hs : CallerStep N (.only (s.over h) c p) c k y) :
    ∃ t, (t = s ∨ ∃ a, step N s a = some t) ∧ Refines N y t := by
  have hc : s.Called c k.args := ⟨k, hk, hpc, rfl⟩
  cases hw with
  | locked =>
    cases hs with
    | refuse hd hfd =>
      refine ⟨_, .inr ⟨.enter c, step_of_cases (.refused c k hk hpc hm hfd)⟩, ?_⟩
      rw [setCaller_only]
      exact .leaving (s := { s with calls := s.calls.modify c (Call.leave .refused) }) c hm
    | go hd hfd =>
      rw [setCaller_only]
      exact ⟨s, .inl rfl, .caller hm hc (.opened hfd)⟩
    | _ => simp_all
  | opened hfd =>
    cases hs with
    | recycled slot rest hd he =>
      have hv := foldl_assigns k.args c (s.msg slot)
      have hR := Refines.caller (N := N) hm hc
        (.filling (s.msg slot) k.args.api.assigns hfd (.recycled he) hv)
      rw [setCaller_only]
      simp only [State.over, Function.update_eq_self] at hR
      exact ⟨s, .inl rfl, hR⟩
    | exhaust hd he =>
      rw [setCaller_only]
      exact ⟨s, .inl rfl, .caller hm hc (.exhausted hfd he)⟩
    | _ => simp_all
  | exhausted hfd he =>
    have heq : (s.over (.of s)).mEmptyMsgs = s.mEmptyMsgs := rfl
    cases hs with
    | new hd hlt =>
      rw [heq, he] at hlt
      have hv := foldl_assigns k.args c EdMsg.zero
      have hR := Refines.caller hm hc (.filling EdMsg.zero k.args.api.assigns hfd (.new he hlt) hv)
      rw [setCaller_only]
      simp only [State.over, ← he] at hR
      exact ⟨s, .inl rfl, hR⟩
    | full hd hlt =>
      rw [heq, he] at hlt
      have hfull : s.allocMsgObj N = none := by
        simp only [State.allocMsgObj, he]
        exact if_neg hlt
      refine ⟨_, .inr ⟨.enter c, step_of_cases (.queueFull c k hk hpc hm hfd hfull)⟩, ?_⟩
      rw [setCaller_only]
      exact .leaving (s := { s with calls := s.calls.modify c (Call.leave .queueFull) }) c hm
    | _ => simp_all
  | @filling slot fresh m empty v rest hfd hal hv =>
    cases hs with
    | assign slot' a rest' hd =>
      obtain ⟨rfl, rfl⟩ : slot = slot' ∧ rest = a :: rest' := by
        simpa using (only_caller c _).symm.trans hd
      have hR := Refines.caller hm hc (.filling (a.run c k.args v) rest' hfd hal hv)
      rw [setCaller_only]
      simp only [State.over] at hR ⊢
      rw [Function.update_self, Function.update_idem]
      exact ⟨s, .inl rfl, hR⟩
    | append slot' hd hb =>
      obtain ⟨rfl, rfl⟩ : slot = slot' ∧ rest = [] := by
        simpa using (only_caller c _).symm.trans hd
      obtain rfl : v = k.args.fill c m := hv
      rw [setCaller_only]
      exact ⟨s, .inl rfl, .caller hm hc (.queued hfd hal hb)⟩
    | push slot' hd hb =>
      obtain ⟨rfl, rfl⟩ : slot = slot' ∧ rest = [] := by
        simpa using (only_caller c _).symm.trans hd
      obtain rfl : v = k.args.fill c m := hv
      have hstep := Step.pushed c k slot m empty fresh hk hpc hm hfd hb hal
      refine ⟨_, .inr ⟨.enter c, step_of_cases hstep⟩, ?_⟩
      rw [setCaller_only]
      simp only [CallArgs.fill, hb]
      exact .leaving (s := { s with
        mEmptyMsgs := empty
        fresh := fresh
        msg := Function.update s.msg slot (m.fillSend c k.args)
        mQuedMsgs := s.mQuedMsgs ++ [slot]
        owner := Function.update s.owner slot c
        accepted := s.accepted ++ [c]
        calls := s.calls.modify c Call.push }) c hm
    | _ => simp_all
  | @queued slot fresh m empty hfd hal hb =>
    cases hs with
    | write slot' hd =>
      obtain rfl : slot = slot' := by simpa using (only_caller c _).symm.trans hd
      have hstep := Step.posted c k slot m empty fresh hk hpc hm hfd hb hal
      refine ⟨_, .inr ⟨.enter c, step_of_cases hstep⟩, ?_⟩
      rw [setCaller_only]
      simp only [CallArgs.fill, hb, State.writeEventfd, State.over, hfd, if_true]
      exact .leaving (s := { s with
        mEmptyMsgs := empty
        fresh := fresh
        msg := Function.update s.msg slot (m.fillPost k.args)
        mQuedMsgs := s.mQuedMsgs ++ [slot]
        owner := Function.update s.owner slot c
        accepted := s.accepted ++ [c]
        eventfd := s.eventfd + 1
        calls := s.calls.modify c (Call.leave (.posted 0)) }) c hm
    | _ => simp_all

lemma Refines.callerStep {x y : Sections} {k : Call} (hR : Refines N x s)
    (hk : x.queue.calls[c]? = some k) (hs : CallerStep N x c k y) :
    ∃ t, (t = s ∨ ∃ a, step N s a = some t) ∧ Refines N y t := by
  cases hR with
  | free =>
    cases hs with
    | lock hd hpc hm => exact ⟨s, .inl rfl, .caller hm ⟨k, hk, hpc, rfl⟩ .locked⟩
    | _ => simp_all [nobody]
  | dispatcher p hm hp => exact absurd rfl (hs.inside rfl)
  | leaving d hm =>
    have hd : c = d := by
      by_contra hd
      exact hs.inside rfl (by simp [hd, nobody])
    subst hd
    cases hs with
    | unlock hd =>
      rw [setCaller_only, over_of hm, only_outside]
      exact ⟨s, .inl rfl, .free s⟩
    | _ => simp_all
  | @caller _ d b p h hm hc hw =>
    have hd : c = d := by
      by_contra hd
      exact hs.inside rfl (by simp [hd, nobody])
    subst hd
    obtain ⟨hpc, rfl⟩ := hc.calls hk
    exact hw.callerStep hm hk hpc hs

/-- The system in which a section is one step simulates the statements. -/
theorem sections_simulation (N : Int) :
    Simulation (sections N) (fun _ _ => True) (queue N) (fun _ _ => True) (Refines N) := by
  refine ⟨fun x hx => ⟨State.init, rfl, hx ▸ .free _⟩, ?_⟩
  intro x a y s _ hr hR _ hs
  have hstep : ∃ t, (t = s ∨ ∃ b, step N s b = some t) ∧ Refines N y t := by
    cases a with
    | caller c =>
      obtain ⟨k, hk, hc⟩ := callerStep_iff.mp hs
      exact hR.callerStep hk hc
    | dispatcher => exact hR.dispatchStep (dispatchStep_iff.mp hs)
    | other a =>
      obtain ⟨t, ht, hR'⟩ := hR.other (reachable_slots hr) (reachable_gate hr) hs
      exact ⟨t, .inr ⟨a, ht⟩, hR'⟩
  obtain ⟨t, rfl | ⟨b, hb⟩, hR'⟩ := hstep
  · exact ⟨t, .refl, hR'⟩
  · exact ⟨t, .single trivial hb, hR'⟩

section Converse

variable {u : State} {k : Call} {slot fresh : Slot} {m : EdMsg} {empty : List Slot}

lemma leads_caller {p q : SectionPc} (hk : s.calls[c]? = some k)
    (hs : CallerStep N (.only s c p) c k ((Sections.only s c p).setCaller c q t)) :
    (sections N).Leads (.only s c p) (.only t c q) := by
  rw [setCaller_only] at hs
  exact .step .refl (a := .caller c) (callerStep_iff.mpr ⟨k, hk, hs⟩)

lemma leads_locked (hk : s.calls[c]? = some k) (hpc : k.pc = .called) (hm : s.mMsgMutex = false) :
    (sections N).Leads ⟨s, nobody, .outside⟩ (.only (s.over (.of s)) c .locked) := by
  rw [← only_outside (c := c)]
  exact leads_caller hk (.lock (only_caller c _) hpc hm)

lemma leads_outside {x : Sections} (hr : (sections N).Leads x (.only u c .leaving))
    (hu : u = t.over (.of t)) (hk : t.calls[c]? = some k) (hm : t.mMsgMutex = false) :
    (sections N).Leads x ⟨t, nobody, .outside⟩ := by
  subst hu
  have hs := leads_caller (N := N) (s := t.over (.of t)) hk (.unlock (only_caller c _))
  rw [over_of hm, only_outside] at hs
  exact hr.trans hs

lemma leads_dispatcher (hm : s.mMsgMutex = false) (hm' : t.mMsgMutex = false)
    (hpc : (∃ left, s.pc = .loop (left + 1)) ∨ ∃ slot left, s.pc = .hand slot left .recycling)
    (hs : DispatchStep ⟨s.over (.of s), nobody, .locked⟩ ⟨t.over (.of t), nobody, .leaving⟩) :
    (sections N).Leads ⟨s, nobody, .outside⟩ ⟨t, nobody, .outside⟩ := by
  have hlock : DispatchStep ⟨s, nobody, .outside⟩ ⟨s.over (.of s), nobody, .locked⟩ :=
    .lock rfl hm hpc
  have hunlock := DispatchStep.unlock (x := ⟨t.over (.of t), nobody, .leaving⟩) rfl
  simp only [over_of hm'] at hunlock
  exact .step (.step (.step .refl (a := .dispatcher) (dispatchStep_iff.mpr hlock))
    (a := .dispatcher) (dispatchStep_iff.mpr hs)) (a := .dispatcher) (dispatchStep_iff.mpr hunlock)

lemma leads_assigns (slot : Slot) (hk : s.calls[c]? = some k) (rest : List Assign) (v : EdMsg) :
    (sections N).Leads
      (.only { s with msg := Function.update s.msg slot v } c (.filling slot rest))
      (.only { s with msg := Function.update s.msg slot (rest.foldl (Assign.run c k.args) v) } c
        (.filling slot [])) := by
  induction rest generalizing v with
  | nil => exact .refl
  | cons a rest ih =>
    have hs := leads_caller (N := N) (s := { s with msg := Function.update s.msg slot v }) hk
      (.assign slot a rest (only_caller c _))
    simp only [Function.update_self, Function.update_idem] at hs
    exact hs.trans (ih _)

/-- A call whose message is not refused gets to the end of its assignments. -/
lemma leads_filled (hk : s.calls[c]? = some k) (hpc : k.pc = .called) (hm : s.mMsgMutex = false)
    (hfd : 0 ≤ s.mMsgFd) (hal : Alloc N s slot m empty fresh) :
    (sections N).Leads ⟨s, nobody, .outside⟩
      (.only (s.over ⟨empty, s.mQuedMsgs, fresh,
        fun g => Function.update g slot (k.args.fill c m)⟩) c (.filling slot [])) := by
  have hgo := (leads_locked (N := N) hk hpc hm).trans (leads_caller hk (.go (only_caller c _) hfd))
  have hfill := leads_assigns slot (N := N) (s := s.over ⟨empty, s.mQuedMsgs, fresh, id⟩) hk
    k.args.api.assigns m
  rw [foldl_assigns] at hfill
  refine hgo.trans (.trans ?_ hfill)
  cases hal with
  | recycled he =>
    have hs := leads_caller (N := N) (s := s.over (.of s)) (k := k) hk
      (.recycled slot empty (only_caller c _) he)
    simpa only [State.over, Held.of, id, Function.update_eq_self] using hs
  | new he hlt =>
    have hx := leads_caller (N := N) (s := s.over (.of s)) (k := k) hk
      (.exhaust (only_caller c _) he)
    have hs := leads_caller (N := N) (s := s.over (.of s)) (k := k) hk
      (.new (only_caller c _) (by rw [show (s.over (.of s)).mEmptyMsgs = [] from he]; exact hlt))
    simpa only [State.over, Held.of, he] using hx.trans hs

/-- The statements of a section, one after the other, are the section. -/
lemma leads_step (hs : Step N s a t) :
    (sections N).Leads ⟨s, nobody, .outside⟩ ⟨t, nobody, .outside⟩ := by
  have hother : ∀ b, b ≠ .popMsg → b ≠ .recycle → (∀ c, b ≠ .enter c) → Step N s b t →
      (sections N).Leads ⟨s, nobody, .outside⟩ ⟨t, nobody, .outside⟩ := by
    intro b h1 h2 h3 hb
    have hfree : (Sections.mk s nobody .outside).busy b = false := by
      cases b <;> simp_all [Sections.busy, nobody]
    refine .step .refl (a := .other b) ?_
    simp [sections, sectionStep, hfree, step_of_cases hb]
  have hstep := hs
  cases hs with
  | refused c k hk hpc hm hfd =>
    have hr := (leads_locked (N := N) hk hpc hm).trans
      (leads_caller hk (.refuse (only_caller c _) hfd))
    have hk' : (s.calls.modify c (Call.leave .refused))[c]? = some (k.leave .refused) := by
      simp [hk]
    exact leads_outside hr rfl hk' hm
  | queueFull c k hk hpc hm hfd hfull =>
    have he : s.mEmptyMsgs = [] := by
      cases he : s.mEmptyMsgs with
      | nil => rfl
      | cons slot rest => simp [State.allocMsgObj, he] at hfull
    have hlt : ¬ toI32 (State.size s.mEmptyMsgs + State.size s.mQuedMsgs) < N := by
      intro hlt
      rw [he] at hlt
      simp [State.allocMsgObj, he, hlt] at hfull
    have hx := ((leads_locked (N := N) hk hpc hm).trans
      (leads_caller hk (.go (only_caller c _) hfd))).trans
      (leads_caller hk (.exhaust (only_caller c _) he))
    have hr := hx.trans (leads_caller hk (.full (only_caller c _) hlt))
    have hk' : (s.calls.modify c (Call.leave .queueFull))[c]? = some (k.leave .queueFull) := by
      simp [hk]
    exact leads_outside hr rfl hk' hm
  | posted c k slot m empty fresh hk hpc hm hfd hb hal =>
    have hx := (leads_filled (N := N) hk hpc hm hfd hal).trans
      (leads_caller hk (.append slot (only_caller c _) hb))
    have hr := hx.trans (leads_caller hk (.write slot (only_caller c _)))
    simp only [CallArgs.fill, hb, State.writeEventfd, State.over, hfd, if_true] at hr
    have hk' : (s.calls.modify c (Call.leave (.posted 0)))[c]? = some (k.leave (.posted 0)) := by
      simp [hk]
    exact leads_outside hr rfl hk' hm
  | pushed c k slot m empty fresh hk hpc hm hfd hb hal =>
    have hr := (leads_filled (N := N) hk hpc hm hfd hal).trans
      (leads_caller hk (.push slot (only_caller c _) hb))
    simp only [CallArgs.fill, hb, State.over] at hr
    have hk' : (s.calls.modify c Call.push)[c]? = some k.push := by simp [hk]
    exact leads_outside hr rfl hk' hm
  | popped left slot rest hpc hm hq =>
    refine leads_dispatcher hm hm (.inl ⟨left, hpc⟩) ?_
    simpa [State.popMsg, State.over, Held.of, hq] using
      DispatchStep.pop (x := ⟨s.over (.of s), nobody, .locked⟩) left rfl hpc
  | queError left hpc hm hq =>
    refine leads_dispatcher hm hm (.inl ⟨left, hpc⟩) ?_
    simpa [State.popMsg, State.over, Held.of, hq] using
      DispatchStep.pop (x := ⟨s.over (.of s), nobody, .locked⟩) left rfl hpc
  | recycle slot left hpc hm =>
    refine leads_dispatcher hm hm (.inr ⟨slot, left, hpc⟩) ?_
    exact .recycle (x := ⟨s.over (.of s), nobody, .locked⟩) slot left rfl hpc
  | _ => exact hother _ (by simp) (by simp) (by simp) hstep

end Converse

/-- With nobody in a section, the statements get the memory into the same states as the system
in which a section is one step. -/
theorem sections_reachable_iff (N : Int) (s : State) :
    (sections N).Reachable ⟨s, nobody, .outside⟩ ↔ (queue N).Reachable s := by
  constructor
  · intro h
    obtain ⟨t, ht, hR⟩ := (sections_simulation N).reaches h
    suffices hst : s = t by rwa [hst]
    generalize hx : Sections.mk s nobody .outside = x at hR
    cases hR with
    | free t => exact congrArg Sections.queue hx
    | @caller t c b p h hm hc hw =>
      have hp : SectionPc.outside = p := by
        simpa [nobody] using congrFun (congrArg Sections.caller hx) c
      subst hp
      cases hw
    | leaving c hm => simpa [nobody] using congrFun (congrArg Sections.caller hx) c
    | dispatcher p hm hp => exact absurd (congrArg Sections.dispatcher hx).symm hp
  · intro h
    induction h with
    | init h0 => exact .init (h0 ▸ rfl)
    | step _ _ hs ih => exact System.Reaches.leads ih (leads_step (step_cases hs))

/-- What a run has shown so far to the callers and to the handlers. -/
def State.shown (s : State) : List Call × List CallId × List CallId × List Delivery ×
    List (CallId × Int) × Nat × TaskPc :=
  (s.calls, s.accepted, s.finished, s.delivered, s.stored, s.eventfd, s.pc)

/-- At every statement of a run one thread at most is in a section, and it holds the mutex; the
callers and the handlers have been shown what a run shows them in which a section is one step. -/
theorem sections_atomic {x : Sections} (hx : (sections N).Reachable x) :
    (∀ c d, x.caller c ≠ .outside → x.caller d ≠ .outside → c = d) ∧
    (∀ c, x.caller c ≠ .outside → x.dispatcher = .outside ∧ x.queue.mMsgMutex = true) ∧
    (x.dispatcher ≠ .outside → x.queue.mMsgMutex = true) ∧
    ∃ s, (queue N).Reachable s ∧ s.shown = x.queue.shown := by
  obtain ⟨s, hr, hR⟩ := (sections_simulation N).reaches hx
  have hone : ∀ p c d, Function.update nobody c p d ≠ SectionPc.outside → d = c := by
    intro p c d hd
    by_contra hne
    exact hd (by simp [hne, nobody])
  cases hR with
  | free => exact ⟨by simp [nobody], by simp [nobody], by simp, s, hr, rfl⟩
  | caller hm hc hw | leaving c hm =>
    exact ⟨fun c d hc hd => (hone _ _ c hc).trans (hone _ _ d hd).symm, fun _ _ => ⟨rfl, rfl⟩,
      fun _ => rfl, s, hr, rfl⟩
  | dispatcher p hm hp => exact ⟨by simp [nobody], by simp [nobody], fun _ => rfl, s, hr, rfl⟩

/-- While call 1 fills its message the task thread reads the eventfd and runs the handler of the
message of call 0. -/
def betweenRun : List SectionAction :=
  List.flatten [[.other (.initMsg 3), .other (.call (postMsg 1000 1 2))],
    .replicate 11 (.caller 0), [.other (.call (sendMsg 1001 3 4)), .other .msgevent_cb],
    .replicate 3 .dispatcher, .replicate 6 (.caller 1),
    [.other .branch, .other .handlerReturn, .caller 1]]

theorem sections_atomic_betweenRun : ∃ x, (sections 8).Reachable x ∧
    x.caller 1 = .filling 1 [.msgid, .payload, .sync 1, .psend_result] ∧
    x.queue.pc = .hand 0 0 .handled ∧ x.dispatcher = .outside ∧
    ∃ s, (queue 8).Reachable s ∧ s.shown = x.queue.shown := by
  obtain ⟨x, hr, hx⟩ := System.exists_of_exec (M := sections 8) rfl
    (show ((sections 8).exec ⟨State.init, nobody, .outside⟩ betweenRun).map
      (fun x => (x.caller 1, x.queue.pc)) =
        some (.filling 1 [.msgid, .payload, .sync 1, .psend_result], .hand 0 0 .handled) by
      decide +kernel)
  simp only [Prod.mk.injEq] at hx
  obtain ⟨-, hin, -, hs⟩ := sections_atomic hr
  exact ⟨x, hr, hx.1, hx.2, (hin 1 (by simp [hx.1])).1, hs⟩

end EdNio.Task
