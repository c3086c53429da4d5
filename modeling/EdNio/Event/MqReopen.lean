import EdNio.Event.Reregister

/-!
# Opening a queue again

`EdMq::open` closes a queue that is open and does not deregister it. The kernel drops what it
watched, and `registerEvent` does nothing for an object that is registered already.
-/

namespace EdNio.Event.Objects
open Transition

/-- The descriptor of a queue. -/
def Object.mMqd (x : Object) : Option Int :=
  match x.cls with
  | .EdMq mMqd => some mMqd
  | _ => none

/-- A queue is opened, created or closed, or the program opens or closes a descriptor that is not
the one of the queue. -/
def queueCall (o : Nat) (s : OwnTask) : Action → Bool
  | .call i (.openMq _ _ _) => i = o
  | .call i .close => i = o && (s.objs o).mMqd.isSome
  | .call _ _ => false
  | .sysOpen _ => true
  | .sysClose fd => (s.objs o).mMqd ≠ some fd

/-- A queue is not registered when it is opened, its new descriptor is not 0, and epoll has room
for it. -/
def opensUnregistered (o : Nat) (s : OwnTask) : Action → Bool
  | .call _ (.openMq fd _ room) => fd < 0 || !(s.objs o).mIsReg && 0 < fd && room
  | _ => true

/-- Through the object epoll watches the descriptor of the queue and nothing else, it watches no
descriptor that is closed, and `close` deregisters the object. -/
structure WatchesQueue (s : OwnTask) (o : Nat) : Prop where
  watched : ∀ fd, (∃ flags, s.Watches o fd flags) ↔ (s.objs o).mMqd = some fd
  opened : ∀ fd, s.interest fd ≠ none → s.opened fd = true
  close : ∃ t, s.close o = some t ∧ ∀ fd flags, ¬ t.Watches o fd flags

/-- Every watch is of an open descriptor, and is the one that the object has. -/
def WatchesEvt (o : Nat) (s : OwnTask) : Prop :=
  ∀ fd w, s.interest fd = some w →
    s.opened fd = true ∧ w.ptr = ⟨fd, o⟩ ∧ (s.objs o).mEvt = some ⟨fd, o⟩

/-- The object is registered for `fd`, and can be deregistered. -/
structure Registered (s : OwnTask) (o : Nat) (fd : Int) : Prop where
  mIsReg : (s.objs o).mIsReg = true
  mTask : (s.objs o).mTask = true
  mContext : (s.objs o).mContext = true
  mEvt : (s.objs o).mEvt = some ⟨fd, o⟩
  watched : ∃ flags, s.Watches o fd flags

/-- A queue with its new descriptor, which is not registered yet. -/
def EdMq.opened (s : OwnTask) (o : Nat) (mMqd fd : Int) : OwnTask :=
  (((EdMq.mqClose s mMqd).setClass o (.EdMq fd)).sysOpen fd).setFd o fd

variable {s t : OwnTask} {o : Nat} {fd mMqd : Int} {flags : UInt32} {creat room : Bool}

lemma opensUnregistered_iff {i : Nat} (hfd : 0 ≤ fd) :
    opensUnregistered o s (.call i (.openMq fd creat room)) = true ↔
      (s.objs o).mIsReg = false ∧ 0 < fd ∧ room = true := by
  simp [opensUnregistered, Int.not_lt.mpr hfd, and_assoc]

lemma sysOpen_objs (s : OwnTask) (fd : Int) : (s.sysOpen fd).objs = s.objs := by
  unfold OwnTask.sysOpen
  split <;> rfl

lemma mqClose_objs (s : OwnTask) (mMqd : Int) : (EdMq.mqClose s mMqd).objs = s.objs := by
  unfold EdMq.mqClose
  split <;> rfl

lemma setClass_mMqd (s : OwnTask) (o : Nat) (mMqd : Int) :
    ((s.setClass o (.EdMq mMqd)).objs o).mMqd = some mMqd := by
  simp [OwnTask.setClass, OwnTask.setObj, Object.mMqd]

lemma opened_obj (s : OwnTask) (o : Nat) (mMqd fd : Int) :
    (EdMq.opened s o mMqd fd).objs o =
      { s.objs o with cls := .EdMq fd, mFd := fd, mContext := true, mTask := true } := by
  simp [EdMq.opened, OwnTask.setFd, OwnTask.setClass, OwnTask.setObj, sysOpen_objs, mqClose_objs]

lemma opened_interest (s : OwnTask) (o : Nat) (mMqd fd : Int) :
    (EdMq.opened s o mMqd fd).interest = (EdMq.mqClose s mMqd).interest := by
  unfold EdMq.opened OwnTask.sysOpen
  split <;> rfl

lemma opened_opened (hfd : 0 ≤ fd) : (EdMq.opened s o mMqd fd).opened =
    Function.update (EdMq.mqClose s mMqd).opened fd true := by
  unfold EdMq.opened OwnTask.sysOpen
  rw [if_pos hfd]
  rfl

/-- The descriptor that the system gives is one that was not open. -/
lemma openMq_eq (hfd : 0 ≤ fd) (hs : s.call o (.openMq fd creat room) = some t) :
    ∃ mMqd, (s.objs o).mMqd = some mMqd ∧ (EdMq.mqClose s mMqd).opened fd = false ∧
      (EdMq.opened s o mMqd fd).registerEvent o (if creat then EVT_READ else 0) room = some t := by
  simp only [OwnTask.call] at hs
  split at hs
  · rename_i mMqd hcls
    obtain ⟨hnew, hs⟩ := Option.ite_none_right_eq_some.mp hs
    refine ⟨mMqd, by rw [Object.mMqd, hcls], ?_, ?_⟩
    · have hne : fd ≠ -1 := by omega
      simpa [OwnTask.newFd, hne, hfd] using hnew
    · rw [EdMq.open, if_neg (Int.not_lt.mpr hfd)] at hs
      exact hs
  · cases hs

/-- The new descriptor of an object that is not registered is given to epoll. -/
lemma openMq_register (hfd : 0 ≤ fd) (hreg : (s.objs o).mIsReg = false)
    (hevt : (s.objs o).mEvt = none) (hs : s.call o (.openMq fd creat room) = some t) :
    ∃ mMqd flags, (EdMq.mqClose s mMqd).opened fd = false ∧
      t = ((EdMq.opened s o mMqd fd).regEdEvent fd flags o room).2.setObj o
        ⟨⟨fd, true, ((EdMq.opened s o mMqd fd).regEdEvent fd flags o room).1, true, true⟩,
          .EdMq fd⟩ := by
  obtain ⟨mMqd, -, hnew, hs⟩ := openMq_eq hfd hs
  have hobj := opened_obj s o mMqd fd
  rw [OwnTask.registerEvent_new (by rw [hobj]; exact hreg) (by rw [hobj]; exact hevt)
    (by rw [hobj]) (by rw [hobj]), Option.some.injEq, hobj] at hs
  exact ⟨mMqd, _, hnew, hs.symm⟩

lemma openMq_failed (hfd : fd < 0) (hs : s.call o (.openMq fd creat room) = some t) :
    ∃ mMqd, t = (EdMq.mqClose s mMqd).setClass o (.EdMq fd) := by
  simp only [OwnTask.call] at hs
  split at hs
  · rename_i mMqd hcls
    obtain ⟨-, hs⟩ := Option.ite_none_right_eq_some.mp hs
    rw [EdMq.open, if_pos hfd, Option.some.injEq] at hs
    exact ⟨mMqd, hs.symm⟩
  · cases hs

lemma registerEvent_cls (hs : s.registerEvent o flags room = some t) :
    (t.objs o).cls = (s.objs o).cls := by
  unfold OwnTask.registerEvent at hs
  dsimp only at hs
  split at hs
  · obtain rfl := Option.some.inj hs
    rfl
  split at hs
  · cases hs
  split at hs
  · obtain ⟨-, hs⟩ := Option.ite_none_right_eq_some.mp hs
    obtain rfl := Option.some.inj hs
    simp [OwnTask.setObj]
  · obtain rfl := Option.some.inj hs
    rfl

/-- The queue has the descriptor that the system gave. -/
lemma openMq_mMqd (hs : s.call o (.openMq fd creat room) = some t) :
    (t.objs o).mMqd = some fd := by
  by_cases hfd : 0 ≤ fd
  · obtain ⟨mMqd, -, -, hs⟩ := openMq_eq hfd hs
    rw [Object.mMqd, registerEvent_cls hs, opened_obj]
  · obtain ⟨mMqd, rfl⟩ := openMq_failed (Int.not_le.mp hfd) hs
    exact setClass_mMqd ..

lemma close_eq (h : (s.objs o).mMqd = some mMqd) : s.close o = EdMq.close s o mMqd := by
  unfold OwnTask.close
  unfold Object.mMqd at h
  split at h
  · rename_i m hcls
    obtain rfl := Option.some.inj h
    rw [hcls]
  · cases h

namespace WatchesEvt

lemma sysClose (h : WatchesEvt o s) (fd : Int) : WatchesEvt o (s.sysClose fd) := by
  intro f w hw
  change Function.update s.interest fd none f = some w at hw
  have hne : f ≠ fd := by
    rintro rfl
    rw [Function.update_self] at hw
    cases hw
  rw [Function.update_of_ne hne] at hw
  obtain ⟨hopen, hptr, hevt⟩ := h f w hw
  exact ⟨(Function.update_of_ne hne ..).trans hopen, hptr, hevt⟩

lemma sysOpen (h : WatchesEvt o s) (fd : Int) : WatchesEvt o (s.sysOpen fd) := by
  unfold OwnTask.sysOpen
  split
  · intro f w hw
    obtain ⟨hopen, hptr, hevt⟩ := h f w hw
    refine ⟨?_, hptr, hevt⟩
    by_cases hne : f = fd
    · rw [hne]
      exact Function.update_self ..
    · exact (Function.update_of_ne hne ..).trans hopen
  · exact h

lemma setObj (h : WatchesEvt o s) {x : Object} (hx : x.mEvt = (s.objs o).mEvt) :
    WatchesEvt o (s.setObj o x) := by
  intro f w hw
  obtain ⟨hopen, hptr, hevt⟩ := h f w hw
  refine ⟨hopen, hptr, ?_⟩
  change (Function.update s.objs o x o).mEvt = some ⟨f, o⟩
  rw [Function.update_self, hx, hevt]

lemma setFd (h : WatchesEvt o s) (fd : Int) : WatchesEvt o (s.setFd o fd) := h.setObj rfl

lemma setClass (h : WatchesEvt o s) (cls : Subclass) : WatchesEvt o (s.setClass o cls) :=
  h.setObj rfl

lemma mqClose (h : WatchesEvt o s) (mMqd : Int) : WatchesEvt o (EdMq.mqClose s mMqd) := by
  unfold EdMq.mqClose
  split
  · exact h.sysClose mMqd
  · exact h

lemma opened (h : WatchesEvt o s) (mMqd fd : Int) : WatchesEvt o (EdMq.opened s o mMqd fd) :=
  (((h.mqClose mMqd).setClass (.EdMq fd)).sysOpen fd).setFd fd

/-- What is not the event of the object is not watched. -/
lemma eq_none (h : WatchesEvt o s) (hevt : (s.objs o).mEvt ≠ some ⟨fd, o⟩) :
    s.interest fd = none := by
  by_contra hne
  obtain ⟨w, hw⟩ := Option.ne_none_iff_exists'.mp hne
  exact hevt (h fd w hw).2.2

lemma of_mEvt (hevt : (t.objs o).mEvt = some ⟨fd, o⟩) {w : Watch} (hptr : w.ptr = ⟨fd, o⟩)
    (ht : t.interest = Function.update s.interest fd (some w)) (hopen : t.opened fd = true)
    (hnone : ∀ f, s.interest f = none) : WatchesEvt o t := by
  intro f v hv
  rw [ht] at hv
  by_cases hne : f = fd
  · subst hne
    rw [Function.update_self] at hv
    obtain rfl := Option.some.inj hv
    exact ⟨hopen, hptr, hevt⟩
  · rw [Function.update_of_ne hne, hnone f] at hv
    cases hv

end WatchesEvt

namespace WatchesEvt

/-- Nothing is watched of a descriptor that is new. -/
lemma new_eq_none (h : WatchesEvt o s) (hnew : (EdMq.mqClose s mMqd).opened fd = false) :
    (EdMq.opened s o mMqd fd).interest fd = none := by
  rw [opened_interest]
  by_contra hne
  obtain ⟨w, hw⟩ := Option.ne_none_iff_exists'.mp hne
  rw [((h.mqClose mMqd) fd w hw).1] at hnew
  cases hnew

/-- The queue that is registered already keeps the event it has. -/
lemma openMq_again (h : WatchesEvt o s) (hfd : 0 ≤ fd) (hreg : (s.objs o).mIsReg = true)
    (hs : s.call o (.openMq fd creat room) = some t) : WatchesEvt o t ∧ t.interest fd = none := by
  obtain ⟨mMqd, -, hnew, hs⟩ := openMq_eq hfd hs
  have hreg' : ((EdMq.opened s o mMqd fd).objs o).mIsReg = true := by
    rw [opened_obj]
    exact hreg
  rw [OwnTask.registerEvent_same hreg', Option.some.injEq] at hs
  subst hs
  exact ⟨h.opened mMqd fd, h.new_eq_none hnew⟩

/-- The kernel has no room for the watch, which the object does not see. -/
lemma openMq_full (h : WatchesEvt o s) (hfd : 0 ≤ fd) (hreg : (s.objs o).mIsReg = false)
    (hevt : (s.objs o).mEvt = none) (hs : s.call o (.openMq fd creat false) = some t) :
    WatchesEvt o t ∧ t.interest fd = none := by
  obtain ⟨mMqd, flags, hnew, rfl⟩ := openMq_register hfd hreg hevt hs
  simp only [OwnTask.regEdEvent, Bool.false_eq_true, and_false, if_false]
  refine ⟨(h.opened mMqd fd).setObj ?_, h.new_eq_none hnew⟩
  rw [opened_obj]
  exact hevt.symm

lemma openMq_new (h : WatchesEvt o s) (hfd : 0 ≤ fd) (hreg : (s.objs o).mIsReg = false)
    (hevt : (s.objs o).mEvt = none) (hs : s.call o (.openMq fd creat true) = some t) :
    WatchesEvt o t ∧ Registered t o fd := by
  obtain ⟨mMqd, flags, hnew, ht⟩ := openMq_register hfd hreg hevt hs
  have hopen : (EdMq.opened s o mMqd fd).opened fd = true := by
    rw [opened_opened hfd]
    exact Function.update_self ..
  have hadd : (EdMq.opened s o mMqd fd).canAdd fd = true := by
    rw [OwnTask.canAdd, hopen, h.new_eq_none hnew]
    rfl
  have hnone : ∀ f, (EdMq.opened s o mMqd fd).interest f = none := by
    intro f
    apply (h.opened mMqd fd).eq_none
    rw [opened_obj, hevt]
    exact (Option.some_ne_none _).symm
  simp only [OwnTask.regEdEvent, hadd, and_self, if_true] at ht
  have hobj : t.objs o = ⟨⟨fd, true, some ⟨fd, o⟩, true, true⟩, .EdMq fd⟩ := by
    rw [ht]
    exact Function.update_self ..
  have hwatch : t.interest = Function.update (EdMq.opened s o mMqd fd).interest fd
      (some ⟨⟨fd, o⟩, flags⟩) := by
    rw [ht]
    rfl
  constructor
  · refine of_mEvt ?_ rfl hwatch ?_ hnone
    · rw [hobj]
    · rw [ht]
      exact hopen
  · constructor
    · rw [hobj]
    · rw [hobj]
    · rw [hobj]
    · rw [hobj]
    · refine ⟨flags, ?_⟩
      rw [OwnTask.Watches, hwatch]
      exact Function.update_self ..

/-- An object that is deregistered has nothing watched. -/
lemma deregisterEvent (h : WatchesEvt o s) (hs : s.deregisterEvent o = some t) :
    WatchesEvt o t ∧ ((s.objs o).mIsReg = true → ∀ f, t.interest f = none) := by
  unfold OwnTask.deregisterEvent at hs
  dsimp only at hs
  split at hs
  · cases hs
  split at hs
  · rename_i hreg
    obtain rfl := Option.some.inj hs
    refine ⟨h, fun htrue => ?_⟩
    rw [hreg] at htrue
    cases htrue
  split at hs
  · cases hs
  obtain ⟨u, hu, rfl⟩ := Option.map_eq_some_iff.mp hs
  have hnone : ∀ f, u.interest f = none := by
    intro f
    split at hu
    · rename_i pevt hevt
      obtain ⟨-, hu⟩ := Option.ite_none_right_eq_some.mp hu
      obtain rfl := Option.some.inj hu
      by_cases hf : f = pevt.fd
      · rw [hf]
        exact Function.update_self ..
      · refine (Function.update_of_ne hf ..).trans (h.eq_none fun heq => hf ?_)
        rw [hevt, Option.some.injEq] at heq
        rw [heq]
    · rename_i hevt
      obtain rfl := Option.some.inj hu
      apply h.eq_none
      rw [hevt]
      exact (Option.some_ne_none _).symm
  refine ⟨fun f w hw => ?_, fun _ => hnone⟩
  change u.interest f = some w at hw
  rw [hnone f] at hw
  cases hw

lemma close (h : WatchesEvt o s) (hcls : (s.objs o).mMqd = some mMqd) (hs : s.close o = some t) :
    WatchesEvt o t ∧ (0 < mMqd → (t.objs o).mMqd = some 0) ∧
      (0 < mMqd → (s.objs o).mIsReg = true → ∀ f, t.interest f = none) := by
  rw [close_eq hcls, EdMq.close] at hs
  split at hs
  · obtain ⟨u, hu, rfl⟩ := Option.map_eq_some_iff.mp hs
    obtain ⟨hinv, hnone⟩ := h.deregisterEvent hu
    refine ⟨(hinv.sysClose mMqd).setClass _, fun _ => ?_, fun _ hreg f => ?_⟩
    · exact setClass_mMqd ..
    · change Function.update u.interest mMqd none f = none
      rw [Function.update_apply, hnone hreg f, ite_self]
  · rename_i hpos
    obtain rfl := Option.some.inj hs
    exact ⟨h, fun hlt => absurd hlt hpos, fun hlt => absurd hlt hpos⟩

/-- A queue that is registered for the descriptor that it has. -/
lemma watchesQueue (h : WatchesEvt o s) (hr : Registered s o mMqd)
    (hcls : (s.objs o).mMqd = some mMqd) (hpos : 0 < mMqd) : WatchesQueue s o := by
  obtain ⟨flags, hw⟩ := hr.watched
  constructor
  · intro fd
    rw [hcls, Option.some.injEq]
    constructor
    · rintro ⟨flags', hw'⟩
      have hevt := (h fd _ hw').2.2
      rw [hr.mEvt, Option.some.injEq, Edevt.mk.injEq] at hevt
      exact hevt.1
    · rintro rfl
      exact hr.watched
  · intro fd hne
    obtain ⟨w, hw⟩ := Option.ne_none_iff_exists'.mp hne
    exact (h fd w hw).1
  · have hdereg : ∃ u, s.deregisterEvent o = some u := by
      unfold OwnTask.deregisterEvent
      dsimp only
      rw [if_neg (by rw [hr.mTask]; decide), if_neg (by rw [hr.mIsReg]; decide),
        if_neg (by rw [hr.mContext]; decide), hr.mEvt]
      dsimp only
      rw [OwnTask.deregEdEvent, if_pos (by rw [hw]; rfl)]
      exact ⟨_, rfl⟩
    obtain ⟨u, hu⟩ := hdereg
    obtain ⟨t, ht⟩ := OwnTask.close_isSome hu
    refine ⟨t, ht, fun fd flags hw => ?_⟩
    rw [OwnTask.Watches, (h.close hcls ht).2.2 hpos hr.mIsReg fd] at hw
    cases hw

end WatchesEvt

/-- The descriptor of a new queue is watched exactly if the object was not registered. -/
lemma openMq_watches_iff (h : WatchesEvt o s) (hsound : s.Sound) (hfd : 0 ≤ fd)
    (hs : s.call o (.openMq fd creat room) = some t) :
    WatchesQueue t o ↔ opensUnregistered o s (.call o (.openMq fd creat room)) = true := by
  rw [opensUnregistered_iff hfd]
  constructor
  · intro hw
    have hwatched : t.interest fd ≠ none := by
      obtain ⟨flags, hwatch⟩ := (hw.watched fd).mpr (openMq_mMqd hs)
      rw [hwatch]
      exact Option.some_ne_none _
    have hreg : (s.objs o).mIsReg = false := by
      by_contra hreg
      rw [Bool.not_eq_false] at hreg
      exact hwatched (h.openMq_again hfd hreg hs).2
    have hevt := hsound.mEvt_eq_none hreg
    obtain rfl : room = true := by
      by_contra hroom
      rw [Bool.not_eq_true] at hroom
      subst hroom
      exact hwatched (h.openMq_full hfd hreg hevt hs).2
    refine ⟨hreg, ?_, rfl⟩
    by_contra hzero
    obtain rfl : fd = 0 := by omega
    -- `close` takes the descriptor 0 for a queue that is closed
    obtain ⟨u, hu, hgone⟩ := hw.close
    rw [close_eq (openMq_mMqd hs), EdMq.close, if_neg (Int.lt_irrefl 0), Option.some.injEq] at hu
    subst hu
    obtain ⟨flags, hwatch⟩ := (hw.watched 0).mpr (openMq_mMqd hs)
    exact hgone 0 flags hwatch
  · rintro ⟨hreg, hpos, rfl⟩
    obtain ⟨hinv, hr⟩ := h.openMq_new hfd hreg (hsound.mEvt_eq_none hreg) hs
    exact hinv.watchesQueue hr (openMq_mMqd hs) hpos

lemma Registered.sysOpen (h : Registered s o mMqd) (fd : Int) :
    Registered (s.sysOpen fd) o mMqd := by
  unfold OwnTask.sysOpen
  split
  · exact ⟨h.mIsReg, h.mTask, h.mContext, h.mEvt, h.watched⟩
  · exact h

lemma Registered.sysClose (h : Registered s o mMqd) (hne : mMqd ≠ fd) :
    Registered (s.sysClose fd) o mMqd := by
  obtain ⟨flags, hw⟩ := h.watched
  exact ⟨h.mIsReg, h.mTask, h.mContext, h.mEvt, flags, (Function.update_of_ne hne ..).trans hw⟩

/-- A queue that is open is registered for its descriptor. -/
structure QueueInv (o : Nat) (s : OwnTask) : Prop where
  watches : WatchesEvt o s
  registered : ∀ mMqd, (s.objs o).mMqd = some mMqd → 0 < mMqd → Registered s o mMqd

namespace WatchesEvt

lemma init (h0 : ownTask.init s) : WatchesEvt o s := by
  intro fd w hw
  rw [h0.2.2] at hw
  cases hw

lemma openMq (h : WatchesEvt o s) (hsound : s.Sound)
    (hs : s.call o (.openMq fd creat room) = some t) : WatchesEvt o t := by
  by_cases hfd : 0 ≤ fd
  · by_cases hreg : (s.objs o).mIsReg = true
    · exact (h.openMq_again hfd hreg hs).1
    · rw [Bool.not_eq_true] at hreg
      cases room with
      | true => exact (h.openMq_new hfd hreg (hsound.mEvt_eq_none hreg) hs).1
      | false => exact (h.openMq_full hfd hreg (hsound.mEvt_eq_none hreg) hs).1
  · obtain ⟨mMqd, rfl⟩ := openMq_failed (Int.not_le.mp hfd) hs
    exact (h.mqClose mMqd).setClass _

lemma step {a : Action} (h : WatchesEvt o s) (hsound : s.Sound) (ha : queueCall o s a = true)
    (hs : ownTask.step s a = some t) : WatchesEvt o t := by
  cases a with
  | call i c =>
    cases c with
    | openMq fd creat room =>
      obtain rfl : i = o := of_decide_eq_true ha
      exact h.openMq hsound hs
    | close =>
      rw [queueCall, Bool.and_eq_true, decide_eq_true_eq, Option.isSome_iff_exists] at ha
      obtain ⟨rfl, mMqd, hcls⟩ := ha
      exact (h.close hcls hs).1
    | _ => cases ha
  | sysOpen fd =>
    obtain ⟨-, hs⟩ := Option.ite_none_right_eq_some.mp hs
    obtain rfl := Option.some.inj hs
    exact h.sysOpen fd
  | sysClose fd =>
    obtain rfl := Option.some.inj hs
    exact h.sysClose fd

end WatchesEvt

namespace QueueInv

lemma init (h0 : ownTask.init s) : QueueInv o s := by
  refine ⟨.init h0, fun mMqd hcls hpos => ?_⟩
  obtain ⟨mContext, cls, hnew, ho⟩ := h0.1 o
  rw [ho, Object.mMqd, Object.new] at hcls
  split at hcls
  · rename_i m hm
    obtain rfl := Option.some.inj hcls
    dsimp only at hm
    subst hm
    change m = -1 at hnew
    omega
  · cases hcls

lemma step {a : Action} (h : QueueInv o s) (hsound : s.Sound) (ha : queueCall o s a = true)
    (hok : opensUnregistered o s a = true) (hs : ownTask.step s a = some t) : QueueInv o t := by
  refine ⟨h.watches.step hsound ha hs, fun mMqd hcls hpos => ?_⟩
  cases a with
  | call i c =>
    cases c with
    | openMq fd creat room =>
      obtain rfl : i = o := of_decide_eq_true ha
      rw [openMq_mMqd hs, Option.some.injEq] at hcls
      subst hcls
      obtain ⟨hreg, -, rfl⟩ := (opensUnregistered_iff (Int.le_of_lt hpos)).mp hok
      exact (h.watches.openMq_new (Int.le_of_lt hpos) hreg (hsound.mEvt_eq_none hreg) hs).2
    | close =>
      rw [queueCall, Bool.and_eq_true, decide_eq_true_eq, Option.isSome_iff_exists] at ha
      obtain ⟨rfl, m, hm⟩ := ha
      by_cases hopen : 0 < m
      · rw [(h.watches.close hm hs).2.1 hopen, Option.some.injEq] at hcls
        omega
      · change s.close i = some t at hs
        rw [close_eq hm, EdMq.close, if_neg hopen, Option.some.injEq] at hs
        subst hs
        exact h.registered mMqd hcls hpos
    | _ => cases ha
  | sysOpen fd =>
    obtain ⟨-, hs⟩ := Option.ite_none_right_eq_some.mp hs
    obtain rfl := Option.some.inj hs
    rw [sysOpen_objs] at hcls
    exact (h.registered mMqd hcls hpos).sysOpen fd
  | sysClose fd =>
    obtain rfl := Option.some.inj hs
    change (s.objs o).mMqd = some mMqd at hcls
    rw [queueCall, decide_eq_true_eq, hcls] at ha
    exact (h.registered mMqd hcls hpos).sysClose (fun heq => ha (congrArg some heq))

end QueueInv

/-- In every run of a queue, what is opened is watched, and `close` deregisters it, exactly if the
queue was not registered before, its descriptor is not 0 and epoll has room. While all calls are
such, a queue that is open is watched in every state. -/
theorem reopen_watches_exact (h : ownTask.Reaches (fun s a => queueCall o s a = true) s) :
    (∀ fd creat room t, 0 ≤ fd → ownTask.step s (.call o (.openMq fd creat room)) = some t →
      (WatchesQueue t o ↔ opensUnregistered o s (.call o (.openMq fd creat room)) = true)) ∧
    (ownTask.Reaches (fun s a => queueCall o s a = true ∧ opensUnregistered o s a = true) s →
      ∀ mMqd, (s.objs o).mMqd = some mMqd → 0 < mMqd → WatchesQueue s o) := by
  have hw : WatchesEvt o s := by
    refine h.invariant ?_ ?_
    · intro s h0
      exact .init h0
    · intro s a t hr hI ha hs
      exact hI.step (OwnTask.sound_reachable hr.reachable) ha hs
  constructor
  · intro fd creat room t hfd hs
    exact openMq_watches_iff hw (OwnTask.sound_reachable h.reachable) hfd hs
  · intro hcalls mMqd hcls hpos
    have hI : QueueInv o s := by
      refine hcalls.invariant ?_ ?_
      · intro s h0
        exact .init h0
      · intro s a t hr hI ha hs
        exact hI.step (OwnTask.sound_reachable hr.reachable) ha.1 ha.2 hs
    exact hw.watchesQueue (hI.registered mMqd hcls hpos) hcls hpos

/-- A queue that is closed before it is opened again, with the descriptor that it had. -/
theorem reopen_watches_exact_closed : ∃ s, (s.objs 0).mMqd = some 3 ∧ s.Watches 0 3 EVT_READ ∧
    WatchesQueue s 0 := by
  obtain ⟨s, hr, hs⟩ := System.exists_of_exec_restrict (M := ownTask)
    (T := fun s a => queueCall 0 s a && opensUnregistered 0 s a)
    (s := newTask (.EdMq (-1)))
    (l := [.call 0 (.openMq 3 true true), .call 0 .close, .call 0 (.openMq 3 true true)])
    (f := fun s => ((s.objs 0).mMqd, s.interest 3))
    ⟨fun _ => ⟨true, .EdMq (-1), rfl, rfl⟩, fun _ _ => rfl, rfl⟩
    (b := (some 3, some ⟨⟨3, 0⟩, EVT_READ⟩)) (by decide +kernel)
  rw [Prod.mk.injEq] at hs
  have hcalls := hr.mono fun s a hok => Bool.and_eq_true_iff.mp hok
  have hqueue := hcalls.mono fun s a hok => hok.1
  exact ⟨s, hs.1, hs.2, (reopen_watches_exact hqueue).2 hcalls 3 hs.1 (by decide)⟩

/-- A queue that is opened twice gets the descriptor that was closed. -/
theorem not_reopen_watches : ¬ ∀ s fd creat t,
    ownTask.Reaches (fun s a => queueCall 0 s a = true) s → 0 < fd →
      ownTask.step s (.call 0 (.openMq fd creat true)) = some t → WatchesQueue t 0 := by
  intro hall
  obtain ⟨s, hr, hs⟩ := System.exists_of_exec_restrict (M := ownTask) (T := queueCall 0)
    (s := newTask (.EdMq (-1))) (l := [.call 0 (.openMq 3 true true)])
    (f := fun s => (s.step (.call 0 (.openMq 3 true true))).map
      (fun t => (t.interest 3, (t.close 0).isSome)))
    ⟨fun _ => ⟨true, .EdMq (-1), rfl, rfl⟩, fun _ _ => rfl, rfl⟩
    (b := some (none, false)) (by decide +kernel)
  obtain ⟨t, ht, hs⟩ := Option.map_eq_some_iff.mp hs
  obtain ⟨u, hu, -⟩ := (hall s 3 true t hr (by decide) ht).close
  rw [hu, Prod.mk.injEq] at hs
  cases hs.2

end EdNio.Event.Objects
