import EdNio.Event.EventObjects

/-!
# Registering an object again

`deregisterEvent` takes the task pointer away from an object that is registered, and the calls
after it need one.
-/

namespace EdNio.Event.Objects
open Transition

/-- epoll watches `fd` for these events, and calls the object. -/
def OwnTask.Watches (s : OwnTask) (o : Nat) (fd : Int) (flags : UInt32) : Prop :=
  s.interest fd = some ⟨⟨fd, o⟩, flags⟩

/-- The object can be deregistered, and then registered again on its descriptor, deregistered once
more, or closed. -/
structure Reversible (s : OwnTask) (o : Nat) : Prop where
  register : ∀ flags, ∃ t u, s.deregisterEvent o = some t ∧
    t.registerEvent o flags true = some u ∧ u.Watches o (s.objs o).mFd flags
  change : ∀ flags, ∃ t u, s.deregisterEvent o = some t ∧
    t.changeEvent o flags true = some u ∧ u.Watches o (s.objs o).mFd flags
  again : ∃ t u, s.deregisterEvent o = some t ∧ t.deregisterEvent o = some u
  close : ∃ t u, s.deregisterEvent o = some t ∧ t.close o = some u

/-- The object has its task and a descriptor that can be watched, and is not registered. -/
structure Registrable (s : OwnTask) (o : Nat) : Prop where
  mIsReg : (s.objs o).mIsReg = false
  mTask : (s.objs o).mTask = true
  mContext : (s.objs o).mContext = true
  canAdd : s.canAdd (s.objs o).mFd = true

namespace OwnTask

variable {s t : OwnTask} {o : Nat} {flags : UInt32} {room : Bool} {fd : Int}

/-- An object with an event is registered. -/
def Sound (s : OwnTask) : Prop :=
  ∀ o, (s.objs o).mEvt ≠ none → (s.objs o).mIsReg = true

namespace Sound

lemma mEvt_eq_none (h : s.Sound) (hreg : (s.objs o).mIsReg = false) :
    (s.objs o).mEvt = none := by
  by_contra hne
  have hreg' := h o hne
  rw [hreg] at hreg'
  cases hreg'

lemma of_objs (h : s.Sound) (ht : t.objs = s.objs) : t.Sound := by
  intro i
  rw [ht]
  exact h i

lemma setObj (h : s.Sound) {x : Object} (hx : x.mEvt ≠ none → x.mIsReg = true) :
    (s.setObj o x).Sound := by
  intro i
  by_cases hi : i = o
  · subst hi
    simpa [OwnTask.setObj] using hx
  · simpa [OwnTask.setObj, hi] using h i

lemma sysOpen (h : s.Sound) (fd : Int) : (s.sysOpen fd).Sound := by
  refine h.of_objs ?_
  unfold OwnTask.sysOpen
  split <;> rfl

lemma sysClose (h : s.Sound) (fd : Int) : (s.sysClose fd).Sound := h.of_objs rfl

lemma setFd (h : s.Sound) (fd : Int) : (s.setFd o fd).Sound := h.setObj (h o)

lemma setContext (h : s.Sound) (ctx : Bool) : (s.setContext o ctx).Sound := h.setObj (h o)

lemma setClass (h : s.Sound) (cls : Subclass) : (s.setClass o cls).Sound := h.setObj (h o)

lemma regEdEvent (h : s.Sound) (fd : Int) (events : UInt32) (user : Nat) (room : Bool) :
    (s.regEdEvent fd events user room).2.Sound := by
  refine h.of_objs ?_
  unfold OwnTask.regEdEvent
  dsimp only
  split <;> rfl

lemma registerEvent (h : s.Sound) (hs : s.registerEvent o flags room = some t) : t.Sound := by
  unfold OwnTask.registerEvent at hs
  dsimp only at hs
  split at hs
  · cases hs
    exact h
  split at hs
  · cases hs
  split at hs
  · split at hs
    · cases hs
      exact (h.regEdEvent _ _ _ _).setObj (fun _ => rfl)
    · cases hs
  · cases hs
    exact h

lemma deregisterEvent (h : s.Sound) (hs : s.deregisterEvent o = some t) : t.Sound := by
  unfold OwnTask.deregisterEvent at hs
  dsimp only at hs
  split at hs
  · cases hs
  split at hs
  · cases hs
    exact h
  split at hs
  · cases hs
  obtain ⟨u, hu, rfl⟩ := Option.map_eq_some_iff.mp hs
  have hobjs : u.objs = s.objs := by
    split at hu
    · unfold OwnTask.deregEdEvent at hu
      split at hu
      · cases hu
        rfl
      · cases hu
    · cases hu
      rfl
  exact (h.of_objs hobjs).setObj (fun hne => absurd rfl hne)

lemma changeEvent (h : s.Sound) (hs : s.changeEvent o flags room = some t) : t.Sound := by
  unfold OwnTask.changeEvent at hs
  dsimp only at hs
  split at hs
  · cases hs
  split at hs
  · split at hs
    · cases hs
      refine h.of_objs ?_
      unfold OwnTask.changeEdEvent
      split <;> rfl
    · cases hs
  · exact h.registerEvent hs

lemma openFd (h : s.Sound) (hs : s.openFd o fd flags room = some t) : t.Sound :=
  ((h.sysOpen fd).setFd fd).registerEvent hs

lemma closeFd (h : s.Sound) (hs : s.closeFd o = some t) : t.Sound := by
  unfold OwnTask.closeFd at hs
  dsimp only at hs
  split at hs
  · obtain ⟨u, hu, rfl⟩ := Option.map_eq_some_iff.mp hs
    have hu' := h.deregisterEvent hu
    exact (hu'.sysClose _).setObj (hu' o)
  · cases hs
    exact h

lemma EdPipe_close {mRecvFd mSendFd : Int} (h : s.Sound)
    (hs : EdPipe.close s o mRecvFd mSendFd = some t) : t.Sound := by
  unfold EdPipe.close at hs
  split at hs
  · obtain ⟨u, hu, rfl⟩ := Option.map_eq_some_iff.mp hs
    exact (((h.deregisterEvent hu).sysClose _).sysClose _).setClass _
  · cases hs
    exact h

lemma EdMq_close {mMqd : Int} (h : s.Sound) (hs : EdMq.close s o mMqd = some t) : t.Sound := by
  unfold EdMq.close at hs
  split at hs
  · obtain ⟨u, hu, rfl⟩ := Option.map_eq_some_iff.mp hs
    exact ((h.deregisterEvent hu).sysClose _).setClass _
  · cases hs
    exact h

lemma close (h : s.Sound) (hs : s.close o = some t) : t.Sound := by
  unfold OwnTask.close at hs
  split at hs
  · exact h.closeFd hs
  · exact h.closeFd hs
  · exact h.closeFd hs
  · exact h.closeFd hs
  · exact h.EdPipe_close hs
  · exact h.EdMq_close hs

lemma EdPipe_open {fds : Option (Int × Int)} (h : s.Sound)
    (hs : EdPipe.open s o fds room = some t) : t.Sound := by
  cases fds with
  | none =>
    cases hs
    exact h
  | some p =>
    have hclass : ((s.sysOpen p.2).setClass o (.EdPipe p.1 p.2)).Sound :=
      (h.sysOpen p.2).setClass _
    unfold EdPipe.open at hs
    dsimp only at hs
    split at hs
    · exact (hclass.setContext true).openFd hs
    · exact hclass.openFd hs

lemma EdMq_open {mMqd : Int} {creat : Bool} (h : s.Sound)
    (hs : EdMq.open s o mMqd fd creat room = some t) : t.Sound := by
  have hclosed : (EdMq.mqClose s mMqd).Sound := by
    unfold EdMq.mqClose
    split
    · exact h.sysClose _
    · exact h
  unfold EdMq.open at hs
  dsimp only at hs
  split at hs
  · cases hs
    exact hclosed.setClass _
  · exact (hclosed.setClass _).openFd hs

lemma call {c : Call} (h : s.Sound) (hs : s.call o c = some t) : t.Sound := by
  cases c with
  | setFd fd =>
    cases hs
    exact h.setFd fd
  | setContext ctx =>
    cases hs
    exact h.setContext ctx
  | registerEvent flag room => exact h.registerEvent hs
  | deregisterEvent => exact h.deregisterEvent hs
  | changeEvent flags room => exact h.changeEvent hs
  | openSock fd =>
    simp only [OwnTask.call, Option.ite_none_right_eq_some, Option.some.injEq] at hs
    obtain ⟨-, rfl⟩ := hs
    exact ((h.sysOpen fd).setContext true).setFd fd
  | openChildSock fd room =>
    simp only [OwnTask.call, Option.ite_none_right_eq_some] at hs
    exact (h.setContext true).openFd hs.2
  | setUsec fd room =>
    simp only [OwnTask.call, Option.ite_none_right_eq_some] at hs
    obtain ⟨-, hs⟩ := hs
    unfold EdTimer.setUsec at hs
    split at hs
    · exact h.openFd hs
    · cases hs
      exact h
  | openEventFd fd room =>
    simp only [OwnTask.call, Option.ite_none_right_eq_some] at hs
    obtain ⟨-, hs⟩ := hs
    unfold EdEventFd.open at hs
    split at hs
    · exact h.openFd hs
    · cases hs
      exact h
  | setSignal fd room =>
    simp only [OwnTask.call, Option.ite_none_right_eq_some] at hs
    obtain ⟨-, hs⟩ := hs
    unfold EdSignalFd.setSignal at hs
    split at hs
    · cases hs
      exact h
    · exact h.openFd hs
  | openPipe fds room =>
    simp only [OwnTask.call] at hs
    split at hs
    · rw [Option.ite_none_right_eq_some] at hs
      exact h.EdPipe_open hs.2
    · cases hs
  | openMq fd creat room =>
    simp only [OwnTask.call] at hs
    split at hs
    · rw [Option.ite_none_right_eq_some] at hs
      exact h.EdMq_open hs.2
    · cases hs
  | close => exact h.close hs

end Sound

theorem sound_reachable (h : ownTask.Reachable s) : s.Sound := by
  refine h.invariant (I := Sound) ?_ (fun s a t _ hI _ hs => ?_)
  · rintro s ⟨hnew, -⟩ o hne
    obtain ⟨mContext, cls, -, ho⟩ := hnew o
    rw [ho] at hne
    exact absurd rfl hne
  · cases a with
    | call o c => exact hI.call hs
    | sysOpen fd =>
      obtain ⟨-, hs⟩ := Option.ite_none_right_eq_some.mp hs
      cases hs
      exact hI.sysOpen fd
    | sysClose fd =>
      cases hs
      exact hI.sysClose fd

/-- With no registration there is nothing to undo; with one the task pointer is lost. -/
lemma deregisterEvent_cases (hs : s.deregisterEvent o = some t) :
    (s.objs o).mTask = true ∧
      ((s.objs o).mIsReg = false ∧ t = s ∨
        (s.objs o).mIsReg = true ∧ (t.objs o).mTask = false) := by
  unfold deregisterEvent at hs
  dsimp only at hs
  split at hs
  · cases hs
  rename_i htask
  refine ⟨by simpa using htask, ?_⟩
  split at hs
  · rename_i hreg
    cases hs
    exact .inl ⟨hreg, rfl⟩
  rename_i hreg
  split at hs
  · cases hs
  obtain ⟨u, -, rfl⟩ := Option.map_eq_some_iff.mp hs
  exact .inr ⟨by simpa using hreg, by simp [setObj]⟩

lemma deregisterEvent_none (htask : (s.objs o).mTask = false) : s.deregisterEvent o = none := by
  unfold deregisterEvent
  exact if_pos htask

lemma deregisterEvent_same (htask : (s.objs o).mTask = true) (hreg : (s.objs o).mIsReg = false) :
    s.deregisterEvent o = some s := by
  unfold deregisterEvent
  dsimp only
  rw [if_neg (by rw [htask]; decide), if_pos hreg]

/-- A registration that is not there is added, if it can be. -/
lemma registerEvent_cases (hreg : (s.objs o).mIsReg = false)
    (hs : s.registerEvent o flags room = some t) :
    (s.objs o).mContext = true ∧ (s.canAdd (s.objs o).mFd = true ∨ t.interest = s.interest) := by
  unfold registerEvent at hs
  dsimp only at hs
  rw [if_neg (by rw [hreg]; decide)] at hs
  split at hs
  · cases hs
  rename_i hctx
  refine ⟨by simpa using hctx, ?_⟩
  split at hs
  · split at hs
    · cases hs
      by_cases hadd : s.canAdd (s.objs o).mFd = true
      · exact .inl hadd
      · right
        show (s.regEdEvent _ _ _ _).2.interest = s.interest
        unfold regEdEvent
        dsimp only
        rw [if_neg (fun hc => hadd hc.1)]
    · cases hs
  · cases hs
    exact .inr rfl

/-- An object without an event is registered for its descriptor. -/
lemma registerEvent_new (hreg : (s.objs o).mIsReg = false) (hevt : (s.objs o).mEvt = none)
    (htask : (s.objs o).mTask = true) (hctx : (s.objs o).mContext = true) :
    s.registerEvent o flags room =
      some ((s.regEdEvent (s.objs o).mFd flags o room).2.setObj o
        { s.objs o with
          mEvt := (s.regEdEvent (s.objs o).mFd flags o room).1
          mIsReg := true }) := by
  unfold registerEvent
  dsimp only
  rw [if_neg (by rw [hreg]; decide), if_neg (by rw [hctx]; decide), if_pos hevt, if_pos htask]

lemma registerEvent_same (hreg : (s.objs o).mIsReg = true) :
    s.registerEvent o flags room = some s := by
  unfold registerEvent
  exact if_pos hreg

/-- The descriptor of an object that can be registered is watched. -/
lemma registerEvent_watches (h : s.Sound) (hr : Registrable s o) (flags : UInt32) :
    ∃ u, s.registerEvent o flags true = some u ∧ u.Watches o (s.objs o).mFd flags := by
  have hevt := h.mEvt_eq_none hr.mIsReg
  rw [registerEvent_new hr.mIsReg hevt hr.mTask hr.mContext]
  refine ⟨_, rfl, ?_⟩
  show (s.regEdEvent _ _ _ _).2.interest _ = _
  unfold regEdEvent
  dsimp only
  rw [if_pos ⟨hr.canAdd, rfl⟩]
  exact Function.update_self ..

lemma changeEvent_watches (h : s.Sound) (hr : Registrable s o) (flags : UInt32) :
    ∃ u, s.changeEvent o flags true = some u ∧ u.Watches o (s.objs o).mFd flags := by
  have hevt := h.mEvt_eq_none hr.mIsReg
  unfold changeEvent
  dsimp only
  rw [if_neg (by rw [hr.mContext]; decide), hevt]
  exact registerEvent_watches h hr flags

/-- No class looks at more than its own descriptor before it deregisters the object. -/
lemma close_isSome (hs : s.deregisterEvent o = some t) : ∃ u, s.close o = some u := by
  unfold OwnTask.close
  split
  all_goals
    simp only [EdSocket.close, EdTimer.kill, EdEventFd.close, EdSignalFd.close, closeFd,
      EdPipe.close, EdMq.close, hs, Option.map_some]
    split
    · exact ⟨_, rfl⟩
    · exact ⟨_, rfl⟩

end OwnTask

open OwnTask

/-- In every state of every run an object can be deregistered and registered again exactly if it
is not registered and has its task still, and a descriptor that can be watched. -/
theorem reversible_iff {s : OwnTask} (h : ownTask.Reachable s) (o : Nat) :
    Reversible s o ↔ Registrable s o := by
  constructor
  · intro hrev
    obtain ⟨t, u, ht, hu⟩ := hrev.again
    obtain ⟨htask, ⟨hreg, rfl⟩ | ⟨-, hlost⟩⟩ := deregisterEvent_cases ht
    · have hreg' : ∀ flags, ∃ u, t.registerEvent o flags true = some u ∧
          u.Watches o (t.objs o).mFd flags := by
        intro flags
        obtain ⟨v, w, hv, hw, hwatch⟩ := hrev.register flags
        rw [ht] at hv
        obtain rfl := Option.some.inj hv
        exact ⟨w, hw, hwatch⟩
      obtain ⟨v, hv, hread⟩ := hreg' EVT_READ
      obtain ⟨w, hw, hwrite⟩ := hreg' EVT_WRITE
      obtain ⟨hctx, hadd | hsame⟩ := registerEvent_cases hreg hv
      · exact ⟨hreg, htask, hctx, hadd⟩
      obtain ⟨-, hadd | hsame'⟩ := registerEvent_cases hreg hw
      · exact ⟨hreg, htask, hctx, hadd⟩
      -- what epoll watches does not depend on the flags then
      · rw [Watches, hsame] at hread
        rw [Watches, hsame', hread, Option.some.injEq, Watch.mk.injEq] at hwrite
        exact absurd hwrite.2 (by decide)
    · rw [deregisterEvent_none hlost] at hu
      cases hu
  · intro hr
    have hsame := deregisterEvent_same hr.mTask hr.mIsReg
    have hsound := sound_reachable h
    constructor
    · intro flags
      obtain ⟨u, hu, hwatch⟩ := registerEvent_watches hsound hr flags
      exact ⟨s, u, hsame, hu, hwatch⟩
    · intro flags
      obtain ⟨u, hu, hwatch⟩ := changeEvent_watches hsound hr flags
      exact ⟨s, u, hsame, hu, hwatch⟩
    · exact ⟨s, s, hsame, hsame⟩
    · obtain ⟨u, hu⟩ := close_isSome hsame
      exact ⟨s, u, hsame, hu⟩

/-- A task with new objects of one class. -/
def newTask (cls : Subclass) : OwnTask := ⟨fun _ => .new true cls, fun _ => false, fun _ => none⟩

/-- A socket that is open and not yet bound or connected. -/
theorem reversible_openSock : ∃ s, ownTask.Reachable s ∧ (s.objs 0).isOpen = true ∧
    Reversible s 0 := by
  obtain ⟨s, hr, hs⟩ := System.exists_of_exec (M := ownTask) (s := newTask .EdSocket)
    (l := [.call 0 (.openSock 3)])
    (f := fun s => (s.objs 0, s.canAdd (s.objs 0).mFd))
    ⟨fun _ => ⟨true, .EdSocket, trivial, rfl⟩, fun _ _ => rfl, rfl⟩
    (b := (⟨⟨3, false, none, true, true⟩, .EdSocket⟩, true)) (by decide +kernel)
  rw [Prod.mk.injEq] at hs
  obtain ⟨hobj, hadd⟩ := hs
  refine ⟨s, hr, by rw [hobj]; rfl, (reversible_iff hr 0).mpr ⟨?_, ?_, ?_, hadd⟩⟩
  · rw [hobj]
  · rw [hobj]
  · rw [hobj]

/-- An eventfd that is open is registered. -/
theorem not_reversible : ¬ ∀ s o, ownTask.Reachable s → (s.objs o).isOpen = true →
    Reversible s o := by
  intro hall
  obtain ⟨s, hr, hs⟩ := System.exists_of_exec (M := ownTask) (s := newTask .EdEventFd)
    (l := [.call 0 (.openEventFd 3 true)])
    (f := fun s => ((s.objs 0).isOpen,
      ((s.deregisterEvent 0).bind (fun t => t.deregisterEvent 0)).isSome))
    ⟨fun _ => ⟨true, .EdEventFd, trivial, rfl⟩, fun _ _ => rfl, rfl⟩
    (b := (true, false)) (by decide +kernel)
  rw [Prod.mk.injEq] at hs
  obtain ⟨hopen, hagain⟩ := hs
  obtain ⟨t, u, ht, hu⟩ := (hall s 0 hr hopen).again
  rw [ht, Option.bind_some, hu] at hagain
  cases hagain

end EdNio.Event.Objects
