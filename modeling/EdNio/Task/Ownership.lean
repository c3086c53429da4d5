import EdNio.Library.Simulation
import EdNio.Task.Count
import EdNio.Task.Payload

/-!
# Who owns a message object

An object given to `postObj` or `sendObj` as a `upEdMsgObj` belongs to the call, then to the
message slot, and then to the handler if that takes it. What a handler leaves in its message
stays in the slot: it is destroyed when the slot is given the next object, or by `closeMsg`.
-/

namespace EdNio.Task
open Transition

/-- The object that a call has still to give to a message, or to destroy. -/
def Call.holds (k : Call) : Option MsgObj :=
  if k.pc = .called then k.args.msgobj else none

/-- A queue with the objects that were created: those that the user holds, and those that
have been destroyed. -/
structure Owned where
  task : State
  user : List MsgObj
  freed : List MsgObj
  made : List MsgObj

/-- The user creates or destroys an object of his own, or the queue goes on. -/
inductive OwnAction
  | create (o : MsgObj)
  | delete (o : MsgObj)
  | task (a : Action)
deriving DecidableEq, Repr

namespace State

variable (s : State)

def callObjs : List MsgObj :=
  s.calls.filterMap Call.holds

def slotObjs : List MsgObj :=
  s.slots.filterMap (fun slot => (s.msg slot).msgobj)

/-- What is left in the slots of `mEmptyMsgs`. -/
def emptyObjs : List MsgObj :=
  s.mEmptyMsgs.filterMap (fun slot => (s.msg slot).msgobj)

/-- What the user moves into a call, or a handler into its message. -/
def takes : Action → Option MsgObj
  | .call a => a.msgobj
  | .editMsg v =>
    match s.pc with
    | .hand slot _ _ => if v.msgobj = (s.msg slot).msgobj then none else v.msgobj
    | _ => none
  | _ => none

/-- What a handler moves out of its message. -/
def gives : Action → Option MsgObj
  | .editMsg v =>
    match s.pc with
    | .hand slot _ _ => if v.msgobj = (s.msg slot).msgobj then none else (s.msg slot).msgobj
    | _ => none
  | _ => none

/-- What a step destroys: the object of a refused call at its end, the one that was left in a
slot when it is assigned another, and all that are in the slots that `closeMsg` frees. -/
def frees (N : Int) : Action → List MsgObj
  | .enter c =>
    match s.calls[c]? with
    | some k =>
      if s.mMsgFd < 0 then k.args.msgobj.toList
      else
        match s.allocMsgObj N with
        | some (slot, t) => if k.args.type = 0 then [] else (t.msg slot).msgobj.toList
        | none => k.args.msgobj.toList
    | none => []
  | .closeMsg => if 0 < size s.mQuedMsgs then [] else s.emptyObjs
  | .drainEnd => s.emptyObjs
  | _ => []

end State

/-- A call with `type` 0 has no object: the functions that pass 0 leave `tmsg.msgobj` alone. -/
def Action.objTyped : Action → Bool
  | .call a => a.type ≠ 0 || a.msgobj = none
  | _ => true

namespace Owned

variable (N : Int) (x : Owned)

def step : OwnAction → Option Owned
  | .create o =>
    if o ∈ x.made then none else some { x with user := o :: x.user, made := o :: x.made }
  | .delete o =>
    if o ∈ x.user then some { x with user := x.user.erase o, freed := x.freed ++ [o] } else none
  | .task a =>
    if a.objTyped = true ∧ (x.task.takes a).toList ⊆ x.user then
      (Task.step N x.task a).map (fun t => { x with
        task := t
        user := (x.task.gives a).toList ++ x.user.diff (x.task.takes a).toList
        freed := x.freed ++ x.task.frees N a })
    else none

/-- Where the objects are. -/
def places : List MsgObj :=
  x.user ++ x.task.callObjs ++ x.task.slotObjs ++ x.freed

end Owned

/-- All runs of a queue with the objects of its messages. -/
def owned (N : Int) : System Owned OwnAction where
  init x := x = ⟨State.init, [], [], []⟩
  step := Owned.step N

section Places

variable {N : Int} {s s' : State} {a : Action} {o : MsgObj}

lemma count_modify {l : List Call} {c : CallId} {k : Call} (hk : l[c]? = some k)
    (f : Call → Call) (o : MsgObj) :
    ((l.modify c f).filterMap Call.holds).count o + k.holds.toList.count o =
      (l.filterMap Call.holds).count o + (f k).holds.toList.count o := by
  obtain ⟨hlt, hget⟩ := List.getElem?_eq_some_iff.mp hk
  obtain ⟨l₁, b, l₂, hl, hlen, hmod⟩ := List.exists_of_modify f hlt
  have hb : b = k := by
    subst hl hlen
    simpa using hget
  have hcons : ∀ k : Call, (k :: l₂).filterMap Call.holds =
      k.holds.toList ++ l₂.filterMap Call.holds := by
    intro k
    cases h : k.holds with
    | none => rw [List.filterMap_cons_none h]; rfl
    | some p => rw [List.filterMap_cons_some h]; rfl
  subst hb
  rw [hmod, hl]
  simp only [List.filterMap_append, hcons, List.count_append]
  omega

lemma callObjs_modify {l : List Call} {c : CallId} {f : Call → Call}
    (h : ∀ k, l[c]? = some k → (f k).holds = k.holds) (o : MsgObj) :
    ((l.modify c f).filterMap Call.holds).count o = (l.filterMap Call.holds).count o := by
  cases hk : l[c]? with
  | none => rw [List.modify_eq_self (List.getElem?_eq_none_iff.mp hk)]
  | some k =>
    have hcount := count_modify hk f o
    rw [h k hk] at hcount
    exact Nat.add_right_cancel hcount

lemma holds_of_callPc {c : CallId} {k : Call} {pc : CallPc} (hk : s.calls[c]? = some k)
    (hpc : s.callPc c = some pc) (hne : pc ≠ .called) : k.holds = none := by
  have hk' : k.pc = pc := by simpa [State.callPc, hk] using hpc
  exact if_neg (hk' ▸ hne)

lemma holds_wake (k : Call) : k.wake.holds = k.holds := by
  unfold Call.wake
  split
  · rename_i hpc
    simp [Call.holds, hpc]
  · rfl

lemma msgobj_fillPost (m : EdMsg) (a : CallArgs) :
    (m.fillPost a).msgobj = if a.type = 0 then m.msgobj else a.msgobj := by
  by_cases ht : a.type = 0 <;> simp [EdMsg.fillPost, EdMsg.setPayload, ht]

lemma msgobj_fillSend (m : EdMsg) (c : CallId) (a : CallArgs) :
    (m.fillSend c a).msgobj = if a.type = 0 then m.msgobj else a.msgobj := by
  by_cases ht : a.type = 0 <;> simp [EdMsg.fillSend, EdMsg.setPayload, ht]

lemma slotObjs_update {slot : Slot} (l₁ l₂ : List Slot) (h : slot ∉ l₁ ++ l₂)
    (msg : Slot → EdMsg) (m : EdMsg) (o : MsgObj) :
    ((l₁ ++ slot :: l₂).filterMap (fun x => (Function.update msg slot m x).msgobj)).count o =
      ((l₁ ++ l₂).filterMap (fun x => (msg x).msgobj)).count o + m.msgobj.toList.count o := by
  have hsame : ∀ l : List Slot, slot ∉ l →
      l.filterMap (fun x => (Function.update msg slot m x).msgobj) =
        l.filterMap (fun x => (msg x).msgobj) := by
    intro l hl
    refine List.filterMap_congr (fun x hx => ?_)
    rw [Function.update_of_ne (ne_of_mem_of_not_mem hx hl)]
  rw [List.mem_append, not_or] at h
  cases hm : m.msgobj with
  | none =>
    simp [List.filterMap_append, hsame _ h.1, hsame _ h.2, hm]
  | some p =>
    simp [List.filterMap_append, hsame _ h.1, hsame _ h.2, hm, List.count_cons]
    omega

lemma Alloc.slotObjs {slot fresh : Slot} {m m' : EdMsg} {empty : List Slot}
    (hal : Alloc N s slot m empty fresh) (hS : SlotsInv s) (hpc : s'.pc = s.pc)
    (hq : s'.mQuedMsgs = s.mQuedMsgs ++ [slot]) (he : s'.mEmptyMsgs = empty)
    (hmsg : s'.msg = Function.update s.msg slot m') (o : MsgObj) :
    s'.slotObjs.count o + m.msgobj.toList.count o =
      s.slotObjs.count o + m'.msgobj.toList.count o := by
  have hs' : s'.slots = (s.pc.inHand ++ s.mQuedMsgs) ++ slot :: empty := by
    simp [State.slots, hpc, hq, he]
  have hnew : slot ∉ (s.pc.inHand ++ s.mQuedMsgs) ++ empty ∧
      s.slotObjs.count o = (((s.pc.inHand ++ s.mQuedMsgs) ++ empty).filterMap
        (fun x => (s.msg x).msgobj)).count o + m.msgobj.toList.count o := by
    cases hal with
    | recycled hrec =>
      have hs : s.slots = (s.pc.inHand ++ s.mQuedMsgs) ++ slot :: empty := by
        simp [State.slots, hrec]
      have hnodup := hS.nodup
      rw [hs, List.nodup_middle, List.nodup_cons] at hnodup
      refine ⟨hnodup.1, ?_⟩
      have hup := slotObjs_update _ _ hnodup.1 s.msg (s.msg slot) o
      rwa [Function.update_eq_self, ← hs] at hup
    | new hrec _ =>
      have hs : s.slots = (s.pc.inHand ++ s.mQuedMsgs) ++ [] := by
        simp [State.slots, hrec]
      rw [← hs]
      exact ⟨fun hm => Nat.lt_irrefl _ (hS.bound _ hm), rfl⟩
  have hup := slotObjs_update _ _ hnew.1 s.msg m' o
  rw [← hs', ← hmsg] at hup
  change s'.slotObjs.count o = _ at hup
  omega

lemma slotObjs_perm (hs : s'.slots.Perm s.slots) (hm : s'.msg = s.msg) (o : MsgObj) :
    s'.slotObjs.count o = s.slotObjs.count o := by
  unfold State.slotObjs
  rw [hm]
  exact (hs.filterMap _).count_eq o

/-- Steps that neither fill a slot nor free one. -/
def Action.movesOnly : Action → Bool
  | .enter _ | .closeMsg | .drainEnd => false
  | _ => true

lemma Step.slots_perm (h : Step N s a s') (ha : a.movesOnly = true) :
    s'.slots.Perm s.slots := by
  cases h with
  | refused | queueFull | posted | pushed | closeMsg | closeEmpty | drainEnd => cases ha
  | popped left slot rest hpc hm hq => simp [State.slots, TaskPc.inHand, hpc, hq]
  | drainSync slot rest hpc hq hs => simp [State.slots, TaskPc.inHand, hpc, hq]
  | recycle slot left hpc hm =>
    simp only [State.slots, TaskPc.inHand, hpc, List.nil_append, List.cons_append,
      ← List.append_assoc]
    exact List.perm_append_singleton _ _
  | drainPost slot rest hpc hq hs =>
    simp only [State.slots, TaskPc.inHand, hpc, hq, List.nil_append, List.cons_append,
      ← List.append_assoc]
    exact List.perm_append_singleton _ _
  | drainUnlock slot c hpc hc =>
    simp only [State.slots, TaskPc.inHand, hpc, List.nil_append, List.cons_append,
      ← List.append_assoc]
    exact List.perm_append_singleton _ _
  | _ => exact .of_eq (by simp [State.slots, TaskPc.inHand, State.createTaskMsgQue,
      State.destroyTaskMsgQue, State.deliver, State.finish, State.setSendMsgResult, *])

/-- What an object that changes its place does in the counts: it leaves one and comes to
another. -/
def Balanced (N : Int) (s : State) (a : Action) (s' : State) (o : MsgObj) : Prop :=
  s'.callObjs.count o + s'.slotObjs.count o + (s.frees N a).count o + (s.gives a).toList.count o =
    s.callObjs.count o + s.slotObjs.count o + (s.takes a).toList.count o

lemma Step.balanced_of_quiet (h : Step N s a s') (ha : a.movesOnly = true)
    (hmsg : s'.msg = s.msg) (hcalls : s'.callObjs.count o = s.callObjs.count o)
    (htakes : s.takes a = none) (hgives : s.gives a = none) (hfrees : s.frees N a = []) :
    Balanced N s a s' o := by
  unfold Balanced
  rw [hcalls, slotObjs_perm (h.slots_perm ha) hmsg, htakes, hgives, hfrees]
  rfl

/-- The object of a refused call is destroyed when the call ends. -/
lemma balanced_of_refusal {c : CallId} {k : Call} {r : Outcome} (hk : s.calls[c]? = some k)
    (hpc : k.pc = .called) (hfrees : s.frees N (.enter c) = k.args.msgobj.toList)
    (hcalls : s'.calls = s.calls.modify c (Call.leave r)) (hslots : s'.slotObjs = s.slotObjs) :
    Balanced N s (.enter c) s' o := by
  have hcall := count_modify hk (Call.leave r) o
  have hholds : k.holds = k.args.msgobj := if_pos hpc
  have hleft : (Call.leave r k).holds = none := if_neg (by simp [Call.leave])
  rw [hholds, hleft, ← hcalls] at hcall
  change s'.callObjs.count o + _ = s.callObjs.count o + _ at hcall
  unfold Balanced
  rw [hfrees, hslots]
  simp only [State.takes, State.gives, Option.toList_none, List.count_nil] at hcall ⊢
  omega

lemma balanced_of_editMsg {slot : Slot} {left : Nat} {st : HandStage} {v : View}
    (hS : SlotsInv s) (hpc : s.pc = .hand slot left st) :
    Balanced N s (.editMsg v)
      { s with msg := Function.update s.msg slot ((s.msg slot).setView v) } o := by
  have hs : s.slots = [] ++ slot :: (s.mQuedMsgs ++ s.mEmptyMsgs) := by
    simp [State.slots, hpc, TaskPc.inHand]
  have hnodup := hS.nodup
  rw [hs, List.nil_append, List.nodup_cons] at hnodup
  have hold := slotObjs_update [] (s.mQuedMsgs ++ s.mEmptyMsgs) hnodup.1 s.msg (s.msg slot) o
  rw [Function.update_eq_self, ← hs] at hold
  have hnew := slotObjs_update [] (s.mQuedMsgs ++ s.mEmptyMsgs) hnodup.1 s.msg
    ((s.msg slot).setView v) o
  rw [← hs] at hnew
  change s.slotObjs.count o = _ at hold
  change (State.slotObjs { s with
    msg := Function.update s.msg slot ((s.msg slot).setView v) }).count o = _ at hnew
  unfold Balanced
  rw [hnew, hold]
  simp only [State.takes, State.gives, State.frees, hpc, EdMsg.setView, List.count_nil]
  change s.callObjs.count o + _ + 0 + _ = _
  split
  · rename_i heq
    rw [heq]
    simp
  · omega

/-- `closeMsg` frees the slots of `mEmptyMsgs` with what is in them. -/
lemma balanced_of_free (hcalls : s'.calls = s.calls)
    (hslots : s'.slotObjs = (s.pc.inHand ++ s.mQuedMsgs).filterMap (fun x => (s.msg x).msgobj))
    (htakes : s.takes a = none) (hgives : s.gives a = none) (hfrees : s.frees N a = s.emptyObjs) :
    Balanced N s a s' o := by
  have hs : s.slotObjs = s'.slotObjs ++ s.emptyObjs := by
    rw [hslots]
    exact List.filterMap_append
  unfold Balanced
  rw [hs, hfrees, htakes, hgives, List.count_append, State.callObjs, hcalls]
  simp only [Option.toList_none, List.count_nil, State.callObjs]
  omega

lemma balanced_of_call (b : CallArgs) : Balanced N s (.call b)
    { s with calls := s.calls ++ [⟨b, .called, 0, none⟩] } o := by
  have hnew : State.callObjs { s with calls := s.calls ++ [⟨b, .called, 0, none⟩] } =
      s.callObjs ++ b.msgobj.toList := by
    have hlast : ∀ p : Option MsgObj, [(⟨b, .called, 0, none⟩ : Call)].filterMap (fun _ => p) =
        p.toList := by
      intro p
      cases p <;> rfl
    simp only [State.callObjs, List.filterMap_append]
    exact congrArg (s.callObjs ++ ·) (hlast b.msgobj)
  unfold Balanced
  rw [hnew, List.count_append]
  change _ + s.slotObjs.count o + 0 + 0 = _ + s.slotObjs.count o + b.msgobj.toList.count o
  omega

/-- An accepted call: its object goes into the slot, and the one that was there is destroyed. -/
lemma Step.balanced_of_alloc {c : CallId} {k : Call} {slot fresh : Slot} {m m' : EdMsg}
    {empty : List Slot} {f : Call → Call} (hS : SlotsInv s)
    (htyped : k.args.type = 0 → k.args.msgobj = none) (hk : s.calls[c]? = some k)
    (hpc : k.pc = .called) (hfd : 0 ≤ s.mMsgFd) (hal : Alloc N s slot m empty fresh)
    (hobj : m'.msgobj = if k.args.type = 0 then m.msgobj else k.args.msgobj)
    (hf : (f k).pc ≠ .called) (hpc' : s'.pc = s.pc) (hq : s'.mQuedMsgs = s.mQuedMsgs ++ [slot])
    (he : s'.mEmptyMsgs = empty) (hmsg : s'.msg = Function.update s.msg slot m')
    (hcalls : s'.calls = s.calls.modify c f) : Balanced N s (.enter c) s' o := by
  have hcall := count_modify hk f o
  have hslot := hal.slotObjs hS hpc' hq he hmsg o
  have hholds : k.holds = k.args.msgobj := if_pos hpc
  have hleft : (f k).holds = none := if_neg hf
  rw [hholds, hleft, ← hcalls] at hcall
  change s'.callObjs.count o + _ = s.callObjs.count o + _ at hcall
  have hfrees : s.frees N (.enter c) =
      if k.args.type = 0 then [] else m.msgobj.toList := by
    obtain ⟨g, hg, -, hcall⟩ := hal.allocMsgObj
    have hneg : ¬ s.mMsgFd < 0 := by omega
    simp only [State.frees, hk, hneg, if_false, hcall, hg]
  unfold Balanced
  rw [hfrees]
  rw [hobj] at hslot
  simp only [State.takes, State.gives, Option.toList_none, List.count_nil] at hcall ⊢
  by_cases ht : k.args.type = 0
  · rw [htyped ht] at hcall
    simp only [if_pos ht, Option.toList_none, List.count_nil] at hslot hcall ⊢
    omega
  · simp only [if_neg ht] at hslot ⊢
    omega

theorem Step.balanced (hS : SlotsInv s)
    (htyped : ∀ k ∈ s.calls, k.args.type = 0 → k.args.msgobj = none) (h : Step N s a s')
    (o : MsgObj) : Balanced N s a s' o := by
  have hstep := h
  have hpcs : ∀ {c : CallId} {pc : CallPc} {f : Call → Call}, s.callPc c = some pc →
      pc ≠ .called → (∀ k, (f k).holds = none) →
      ((s.calls.modify c f).filterMap Call.holds).count o = s.callObjs.count o := by
    intro c pc f hpc hne hf
    refine callObjs_modify (fun k hk => ?_) o
    rw [hf, holds_of_callPc hk hpc hne]
  cases h with
  | call b => exact balanced_of_call b
  | refused c k hk hpc hm hfd =>
    exact balanced_of_refusal hk hpc (by simp [State.frees, hk, hfd]) rfl rfl
  | queueFull c k hk hpc hm hfd hal =>
    have hneg : ¬ s.mMsgFd < 0 := by omega
    exact balanced_of_refusal hk hpc (by simp [State.frees, hk, hneg, hal]) rfl rfl
  | posted c k slot m empty fresh hk hpc hm hfd ha hal =>
    exact Step.balanced_of_alloc hS (htyped k (List.mem_of_getElem? hk)) hk hpc hfd hal
      (msgobj_fillPost m k.args) (by simp [Call.leave]) rfl rfl rfl rfl rfl
  | pushed c k slot m empty fresh hk hpc hm hfd ha hal =>
    exact Step.balanced_of_alloc hS (htyped k (List.mem_of_getElem? hk)) hk hpc hfd hal
      (msgobj_fillSend m c k.args) (by simp [Call.push]) rfl rfl rfl rfl rfl
  | editMsg slot left t v hpc => exact balanced_of_editMsg hS hpc
  | drainEnd hpc hq =>
    exact balanced_of_free rfl (by simp [State.slotObjs, State.slots, hpc, TaskPc.inHand])
      rfl rfl rfl
  | closeEmpty hpc hm hq =>
    exact balanced_of_free rfl (by simp [State.slotObjs, State.slots, hpc, TaskPc.inHand])
      rfl rfl (by simp [State.frees, hq])
  | closeMsg hpc hm hq =>
    unfold Balanced
    have hslots : s.closeFd.slotObjs = s.slotObjs := by
      simp [State.slotObjs, State.slots, State.closeFd, hpc, TaskPc.inHand]
    have hfrees : s.frees N .closeMsg = [] := by simp [State.frees, hq]
    rw [hslots, hfrees]
    rfl
  | write c hpc | writeFails c hpc | wait c hpc | resume c hpc =>
    exact hstep.balanced_of_quiet rfl rfl (hpcs hpc (by rintro ⟨⟩) (fun _ => rfl)) rfl rfl rfl
  | spuriousWake c hpc =>
    exact hstep.balanced_of_quiet rfl rfl
      (callObjs_modify (fun k _ => holds_wake k) o) rfl rfl rfl
  | notify slot left c hpc hc =>
    exact hstep.balanced_of_quiet rfl rfl
      (callObjs_modify (fun k _ => holds_wake k) o) rfl rfl rfl
  | lockMtx slot left c | unlockMtx slot left c | drainLock slot c | drainUnlock slot c =>
    exact hstep.balanced_of_quiet rfl rfl
      (callObjs_modify (by intro k _; rfl) o) rfl rfl rfl
  | drainNotify slot c d =>
    refine hstep.balanced_of_quiet rfl rfl ?_ rfl rfl rfl
    exact (callObjs_modify (fun k _ => holds_wake k) o).trans
      (callObjs_modify (by intro k _; rfl) o)
  | setSendMsgResult slot left t code hpc =>
    refine hstep.balanced_of_quiet rfl rfl ?_ rfl rfl rfl
    simp only [State.callObjs, State.setSendMsgResult]
    split
    · split
      · exact callObjs_modify (by intro k _; rfl) o
      · rfl
    · rfl
  | _ => exact hstep.balanced_of_quiet rfl rfl rfl rfl rfl rfl

lemma closed_slots (hN : N < 2 ^ 31 - 1) (h : (queue N).Reachable s) :
    s.pc = .closed → s.slots = [] := by
  have hempty : s.pc = .closed → s.mEmptyMsgs = [] := by
    refine h.invariant (I := fun s => s.pc = .closed → s.mEmptyMsgs = [])
      (fun s h0 hpc => ?_) (fun s a s' hr hI _ hs hpc => ?_)
    · rw [h0] at hpc
      cases hpc
    · have hfd := (reachable_history hr).closedFd
      cases step_cases hs with
      | posted c k slot m empty fresh _ _ _ hopen | pushed c k slot m empty fresh _ _ _ hopen =>
        have hneg := hfd (congrArg TaskPc.closing hpc)
        omega
      | drainPost slot rest hdrain =>
        cases hdrain.symm.trans hpc
      | closeEmpty | drainEnd => rfl
      | recycle | drainUnlock => cases hpc
      | initMsg | read | popped | queError | endLoop | exitMsg | onEventProc | find | invoke
      | noListener | handlerReturn | isSync | notSync | lockMtx | notify | unlockMtx | leaveLoop
      | closeMsg | drainSync | drainLock | drainNotify => cases hpc
      | _ => exact hI hpc
  intro hpc
  simp [State.slots, hpc, TaskPc.inHand, closed_queue hN h hpc, hempty hpc]

end Places

/-- Every object that was created is in one place. -/
structure OwnInv (x : Owned) : Prop where
  typed : ∀ k ∈ x.task.calls, k.args.type = 0 → k.args.msgobj = none
  placed : ∀ o, x.places.count o = x.made.count o
  nodup : x.made.Nodup

section Owned

variable {N : Int} {x y : Owned}

lemma Owned.task_reachable (h : (owned N).Reachable x) : (queue N).Reachable x.task := by
  have h0 : ∀ x, (owned N).init x → (queue N).init x.task := fun x h0 => h0 ▸ rfl
  refine h.project h0 (fun x a y _ _ hs => ?_)
  cases a with
  | create o =>
    obtain ⟨-, hs⟩ := Option.ite_none_left_eq_some.mp hs
    cases hs
    exact .inl rfl
  | delete o =>
    obtain ⟨-, hs⟩ := Option.ite_none_right_eq_some.mp hs
    cases hs
    exact .inl rfl
  | task a =>
    obtain ⟨-, hs⟩ := Option.ite_none_right_eq_some.mp hs
    obtain ⟨t, ht, rfl⟩ := Option.map_eq_some_iff.mp hs
    exact .inr ⟨a, trivial, ht⟩

lemma places_count (x : Owned) (o : MsgObj) : x.places.count o = x.user.count o +
    x.task.callObjs.count o + x.task.slotObjs.count o + x.freed.count o := by
  simp only [Owned.places, List.count_append]

lemma Step.calls_length {s s' : State} {a : Action} (h : Step N s a s') (ha : ∀ b, a ≠ .call b) :
    s'.calls.length = s.calls.length := by
  cases h with
  | call b => exact absurd rfl (ha b)
  | setSendMsgResult slot left t code hpc =>
    simp only [State.setSendMsgResult]
    split
    · split
      · exact List.length_modify _ _ _
      · rfl
    · rfl
  | _ => simp [State.createTaskMsgQue, State.destroyTaskMsgQue, State.deliver, State.finish,
      State.closeFd]

lemma typed_step {s s' : State} {a : Action} (h : Step N s a s') (ha : a.objTyped = true)
    (hI : ∀ k ∈ s.calls, k.args.type = 0 → k.args.msgobj = none) :
    ∀ k ∈ s'.calls, k.args.type = 0 → k.args.msgobj = none := by
  intro k hk
  by_cases hcall : ∃ b, a = .call b
  · obtain ⟨b, rfl⟩ := hcall
    cases h
    rcases List.mem_append.mp hk with hk | hk
    · exact hI k hk
    · obtain rfl := List.mem_singleton.mp hk
      intro ht
      simp only [Action.objTyped, Bool.or_eq_true, decide_eq_true_eq] at ha
      exact ha.resolve_left (fun hne => hne ht)
  · obtain ⟨c, hc, rfl⟩ := List.getElem_of_mem hk
    rw [h.calls_length (fun b hb => hcall ⟨b, hb⟩)] at hc
    have hold : s.callArgs c = some s.calls[c].args := by simp [State.callArgs, hc]
    have hnew := h.callArgs hold
    rw [callArgs_eq (List.getElem?_eq_getElem _) hnew]
    exact hI _ (List.getElem_mem hc)

lemma OwnInv.step {a : OwnAction} (hI : OwnInv x) (hS : SlotsInv x.task)
    (hs : x.step N a = some y) : OwnInv y := by
  cases a with
  | create o =>
    obtain ⟨hnew, hs⟩ := Option.ite_none_left_eq_some.mp hs
    cases hs
    refine ⟨hI.typed, fun p => ?_, List.nodup_cons.mpr ⟨hnew, hI.nodup⟩⟩
    have hp := hI.placed p
    rw [places_count] at hp ⊢
    simp only [List.count_cons] at hp ⊢
    omega
  | delete o =>
    obtain ⟨hmem, hs⟩ := Option.ite_none_right_eq_some.mp hs
    cases hs
    refine ⟨hI.typed, fun p => ?_, hI.nodup⟩
    have hp := hI.placed p
    rw [places_count] at hp ⊢
    have herase := (List.perm_cons_erase hmem).count_eq p
    simp only [List.count_append, List.count_cons, List.count_nil] at herase ⊢
    omega
  | task a =>
    obtain ⟨⟨htyped, htakes⟩, hs⟩ := Option.ite_none_right_eq_some.mp hs
    obtain ⟨t, ht, rfl⟩ := Option.map_eq_some_iff.mp hs
    have hstep := step_cases ht
    refine ⟨typed_step hstep htyped hI.typed, fun p => ?_, hI.nodup⟩
    have hp := hI.placed p
    have hbal := hstep.balanced hS hI.typed p
    unfold Balanced at hbal
    rw [places_count] at hp ⊢
    have hdiff : (x.user.diff (x.task.takes a).toList).count p +
        (x.task.takes a).toList.count p = x.user.count p := by
      cases htake : x.task.takes a with
      | none => rfl
      | some o =>
        have hmem : o ∈ x.user := htakes (by rw [htake]; exact List.mem_singleton_self o)
        have herase := (List.perm_cons_erase hmem).count_eq p
        simp only [Option.toList_some, List.diff_cons, List.diff_nil, List.count_cons,
          List.count_nil] at herase ⊢
        omega
    simp only [List.count_append] at hp ⊢
    omega

lemma own_reachable (h : (owned N).Reachable x) : OwnInv x := by
  refine h.invariant (fun x h0 => ?_) (fun x a y hr hI _ hs =>
    hI.step (reachable_slots (Owned.task_reachable hr)) hs)
  subst h0
  exact ⟨by simp [State.init], fun _ => rfl, List.nodup_nil⟩

/-- In every run, every object that was created is in exactly one place: with the user, in a
call that has not passed its section, in one message slot, or it has been destroyed, once. After
`closeMsg` nothing is left in a slot, if the limit is below the largest `int`. -/
theorem objects_conserved (h : (owned N).Reachable x) :
    x.made.Nodup ∧ x.places.Perm x.made ∧
      (N < 2 ^ 31 - 1 → x.task.pc = .closed →
        (x.user ++ x.task.callObjs ++ x.freed).Perm x.made) := by
  have hI := own_reachable h
  have hperm : x.places.Perm x.made := List.perm_iff_count.mpr hI.placed
  refine ⟨hI.nodup, hperm, fun hN hpc => ?_⟩
  have hnone : x.task.slotObjs = [] := by
    rw [State.slotObjs, closed_slots hN (Owned.task_reachable h) hpc]
    rfl
  rwa [Owned.places, hnone, List.append_nil] at hperm

/-- A handler leaves the object 7 in its message. -/
def leftRun : List Action :=
  [.call (postMsgObj 1000 (some 7)), .enter 0, .msgevent_cb, .popMsg, .branch, .handlerReturn,
    .checkSync, .recycle, .endLoop]

/-- The next handler keeps the object 8, and the task ends. -/
def takenRun : List Action :=
  [.call (postMsgObj 1001 (some 8)), .enter 1, .msgevent_cb, .popMsg, .branch,
    .editMsg ⟨1001, 0, none, 0⟩, .handlerReturn, .checkSync, .recycle, .endLoop,
    .call (postMsg EDM_EXIT 0 0), .enter 2, .msgevent_cb, .popMsg, .branch, .checkSync,
    .recycle, .endLoop, .leaveLoop, .closeMsg]

/-- The object 7 is destroyed when the slot takes the object 8. -/
def keptRun : List OwnAction :=
  .create 7 :: .task (.initMsg 5) ::
    (leftRun.map OwnAction.task ++ OwnAction.create 8 :: takenRun.map OwnAction.task)

theorem objects_conserved_keptRun : ∃ x, (owned 2).Reachable x ∧ x.task.pc = .closed ∧
    x.user = [8] ∧ x.freed = [7] ∧ x.made.Nodup ∧
    (x.user ++ x.task.callObjs ++ x.freed).Perm x.made := by
  obtain ⟨x, hx, hobs⟩ := System.exists_of_exec (M := owned 2) (l := keptRun)
    (f := fun x => (x.task.pc, x.user, x.freed)) (b := (.closed, [8], [7])) rfl
    (by decide +kernel)
  obtain ⟨hpc, hobs⟩ := Prod.mk.inj hobs
  obtain ⟨huser, hfreed⟩ := Prod.mk.inj hobs
  obtain ⟨hnodup, -, hclosed⟩ := objects_conserved hx
  exact ⟨x, hx, hpc, huser, hfreed, hnodup, hclosed (by decide) hpc⟩

end Owned

end EdNio.Task
