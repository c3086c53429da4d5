import EdNio.Event.BatchSafety
import EdNio.Event.Descriptors
import EdNio.Library.Simulation
import Mathlib.Data.Finset.Basic
import Mathlib.Data.Fintype.EquivFin

/-!
# Event objects in the main loop

The calls on the objects of a task are made in a callback of its main loop. There each of them that
does not end the process is one or more operations of `EdEvent`, so that what holds in every
run of the main loop holds with these objects.
-/

namespace EdNio.Event.Objects
open Transition

/-- The descriptors that a call gives to `EdEvent`. -/
def Call.fds : Call → List Int
  | .setFd fd | .openSock fd | .openChildSock fd _ | .setUsec fd _ | .openEventFd fd _
  | .setSignal fd _ | .openMq fd _ _ => [fd]
  | .openPipe (some (mRecvFd, _)) _ => [mRecvFd]
  | _ => []

/-- None of them is 0, on which `esMain` ends the process, or that of the messages. -/
def LedgerAction.usable (mMsgFd : Int) : LedgerAction → Bool
  | .act (.call _ c) => c.fds.all (fun fd => fd ≠ 0 && fd ≠ mMsgFd)
  | _ => true

/-- What epoll watches of a descriptor. -/
def OwnTask.setInterest (s : OwnTask) (fd : Int) (w : Option Watch) : OwnTask :=
  { s with interest := Function.update s.interest fd w }

/-- An object in the main loop. -/
structure Shown (mMsgFd : Int) (x : EdNio.Event.EdEvent) (y : Object) : Prop where
  mFd : x.mFd = y.mFd
  mIsReg : x.mIsReg = y.mIsReg
  mTask : x.mTask = y.mTask
  usable : y.mFd ≠ 0 ∧ y.mFd ≠ mMsgFd
  registered : y.mEvt ≠ none → y.mIsReg = true

lemma Shown.update {mMsgFd : Int} {f : Nat → EdNio.Event.EdEvent} {g : Nat → Object} {o : Nat}
    {x : EdNio.Event.EdEvent} {y : Object} (h : ∀ i, Shown mMsgFd (f i) (g i))
    (hxy : Shown mMsgFd x y) (i : Nat) :
    Shown mMsgFd (Function.update f o x i) (Function.update g o y i) := by
  by_cases hi : i = o
  · subst hi
    rw [Function.update_self, Function.update_self]
    exact hxy
  · rw [Function.update_of_ne hi, Function.update_of_ne hi]
    exact h i

/-- The objects as the main loop has them in a callback. The event of an object is on the heap, and
epoll points to the events of the objects that it watches. -/
structure InLoop (L : Layout) (mMsgFd : Int) (s : OwnTask) (m : State) : Prop where
  inv : Inv L m
  evtcb : ∃ st e rest, m.pc = .evtcb st e rest
  pos : 0 < mMsgFd
  objs : ∀ o, Shown mMsgFd (m.objs o) (s.objs o)
  mEvt : ∀ o, (s.objs o).mEvt = ((m.objs o).mEvt.bind m.reg.heap).map (fun p => ⟨p.fd, o⟩)
  interest : ∀ fd, fd ≠ mMsgFd →
    m.reg.interest fd = (s.interest fd).bind (fun w => (m.objs w.ptr.user).mEvt)
  watched : ∀ fd w, s.interest fd = some w → w.ptr.fd = fd ∧ (s.objs w.ptr.user).mEvt = some w.ptr
  events : ∀ o p, (s.objs o).mEvt = some p → p.fd ≠ mMsgFd
  opened : ∀ fd < 0, s.opened fd = false

/-- Some steps of the main loop do what the objects do from `s` to `t`. -/
def Does (L : Layout) (mMsgFd : Int) (s t : OwnTask) : Prop :=
  ∀ m, InLoop L mMsgFd s m → ∃ u,
    (mainLoop L).LeadsBy (fun _ _ => True) m u ∧ InLoop L mMsgFd t u

variable {L : Layout} {c : Int} {s t u : OwnTask} {m : State} {o : Nat}

lemma Does.trans (h : Does L c s t) (h' : Does L c t u) : Does L c s u := by
  intro m hm
  obtain ⟨m', hl, hm'⟩ := h m hm
  obtain ⟨m'', hl', hm''⟩ := h' m' hm'
  exact ⟨m'', hl.trans hl', hm''⟩

lemma Does.refl (s : OwnTask) : Does L c s s := fun m hm => ⟨m, .refl, hm⟩

namespace OwnTask

/-- `registerEvent` does nothing, or calls `regEdEvent`. -/
lemma registerEvent_registers {flags : UInt32} {room : Bool}
    (hs : s.registerEvent o flags room = some t) :
    t = s ∨ (s.objs o).mIsReg = false ∧ (s.objs o).mEvt = none ∧ (s.objs o).mTask = true ∧
      t = (s.regEdEvent (s.objs o).mFd flags o room).2.setObj o
        { s.objs o with
          mEvt := (s.regEdEvent (s.objs o).mFd flags o room).1
          mIsReg := true } := by
  unfold OwnTask.registerEvent at hs
  dsimp only at hs
  split at hs
  · exact .inl (Option.some.inj hs).symm
  rename_i hreg
  split at hs
  · cases hs
  split at hs
  · rename_i hnone
    split at hs
    · rename_i htask
      exact .inr ⟨by simpa using hreg, hnone, htask, (Option.some.inj hs).symm⟩
    · cases hs
  · exact .inl (Option.some.inj hs).symm

lemma mIsReg_of_deregisterEvent (hs : s.deregisterEvent o = some t) :
    (t.objs o).mIsReg = false := by
  unfold OwnTask.deregisterEvent at hs
  dsimp only at hs
  split at hs
  · cases hs
  split at hs
  · rename_i hreg
    cases hs
    exact hreg
  split at hs
  · cases hs
  obtain ⟨u, -, rfl⟩ := Option.map_eq_some_iff.mp hs
  simp [OwnTask.setObj]

end OwnTask

namespace InLoop

lemma user (h : InLoop L c s m) (m' : State) : m.user (some m') = some m' := by
  obtain ⟨st, e, rest, hpc⟩ := h.evtcb
  simp [State.user, hpc]

lemma keeps {m' : State} (h : InLoop L c s m) (hk : Keeps L m m') :
    Inv L m' ∧ ∃ st e rest, m'.pc = .evtcb st e rest := by
  obtain ⟨st, e, rest, hpc⟩ := h.evtcb
  exact ⟨h.inv.user hpc hk, st, e, rest, hk.pc.trans hpc⟩

lemma keeps_refl (h : InLoop L c s m) : Keeps L m m := .refl h.inv.wf h.inv.owned

/-- Members of an object that the main loop does not look at. -/
lemma congr (h : InLoop L c s m) (hobjs : ∀ i, (t.objs i).toEdEvent =
      { (s.objs i).toEdEvent with mContext := (t.objs i).mContext })
    (hint : t.interest = s.interest) (hopen : ∀ fd < 0, t.opened fd = false) :
    InLoop L c t m := by
  have hevt : ∀ i, (t.objs i).mEvt = (s.objs i).mEvt := fun i => by rw [hobjs]
  constructor
  case inv => exact h.inv
  case evtcb => exact h.evtcb
  case pos => exact h.pos
  case objs =>
    intro i
    have hi := h.objs i
    constructor
    · rw [hobjs, hi.mFd]
    · rw [hobjs, hi.mIsReg]
    · rw [hobjs, hi.mTask]
    · rw [hobjs]
      exact hi.usable
    · rw [hobjs]
      exact hi.registered
  case mEvt => exact fun i => (hevt i).trans (h.mEvt i)
  case interest => exact hint ▸ h.interest
  case watched =>
    intro fd w hw
    rw [hevt]
    exact h.watched fd w (hint ▸ hw)
  case events => exact fun i p hp => h.events i p (hevt i ▸ hp)
  case opened => exact hopen

/-- An object gets other members, with the event that it had. -/
lemma setObj {r : Registry} {x : EdNio.Event.EdEvent} {y : Object} (h : InLoop L c s m)
    (hk : Keeps L m ({ m with reg := r }.setObj o x)) (hheap : r.heap = m.reg.heap)
    (hint : r.interest = m.reg.interest) (hxy : Shown c x y) (hevt : x.mEvt = (m.objs o).mEvt)
    (hevt' : y.mEvt = (s.objs o).mEvt) :
    InLoop L c (s.setObj o y) ({ m with reg := r }.setObj o x) := by
  have hm : ∀ i, (({ m with reg := r }.setObj o x).objs i).mEvt = (m.objs i).mEvt := by
    intro i
    by_cases hi : i = o
    · subst hi
      simp [State.setObj, hevt]
    · simp [State.setObj, hi]
  have hs : ∀ i, ((s.setObj o y).objs i).mEvt = (s.objs i).mEvt := by
    intro i
    by_cases hi : i = o
    · subst hi
      simp [OwnTask.setObj, hevt']
    · simp [OwnTask.setObj, hi]
  obtain ⟨hinv, hpc⟩ := h.keeps hk
  constructor
  case inv => exact hinv
  case evtcb => exact hpc
  case pos => exact h.pos
  case objs => exact Shown.update h.objs hxy
  case mEvt =>
    intro i
    rw [hs, hm, h.mEvt]
    change _ = (((m.objs i).mEvt).bind r.heap).map _
    rw [hheap]
  case interest =>
    intro fd hne
    change r.interest fd = _
    rw [hint, h.interest fd hne]
    simp only [hm]
    rfl
  case watched =>
    intro fd w hw
    rw [hs]
    exact h.watched fd w hw
  case events =>
    intro i p hp
    rw [hs] at hp
    exact h.events i p hp
  case opened => exact h.opened

lemma sysClose (h : InLoop L c s m) (fd : Int) :
    InLoop L c (s.sysClose fd) { m with reg := m.reg.sysClose fd } := by
  obtain ⟨hinv, hpc⟩ := h.keeps (h.keeps_refl.sysClose fd)
  constructor
  case inv => exact hinv
  case evtcb => exact hpc
  case pos => exact h.pos
  case objs => exact h.objs
  case mEvt => exact h.mEvt
  case interest =>
    intro i hne
    by_cases hi : i = fd
    · subst hi
      simp [Registry.sysClose, OwnTask.sysClose]
    · simpa [Registry.sysClose, OwnTask.sysClose, hi] using h.interest i hne
  case watched =>
    intro i w hw
    by_cases hi : i = fd
    · subst hi
      simp [OwnTask.sysClose] at hw
    · simp only [OwnTask.sysClose, Function.update_of_ne hi] at hw
      exact h.watched i w hw
  case events => exact h.events
  case opened =>
    intro i hlt
    by_cases hi : i = fd
    · simp [OwnTask.sysClose, hi]
    · simpa [OwnTask.sysClose, hi] using h.opened i hlt

lemma mEvt_none_iff (h : InLoop L c s m) : (s.objs o).mEvt = none ↔ (m.objs o).mEvt = none := by
  rw [h.mEvt]
  cases he : (m.objs o).mEvt with
  | none => simp
  | some a =>
    obtain ⟨p, hp, -⟩ := h.inv.owned o a he
    simp [hp]

lemma mEvt_some {p : Edevt} (h : InLoop L c s m) (hp : (s.objs o).mEvt = some p) :
    ∃ a q, (m.objs o).mEvt = some a ∧ m.reg.heap a = some q ∧ q.isReg = true ∧ p = ⟨q.fd, o⟩ := by
  rw [h.mEvt] at hp
  obtain ⟨q, hq, rfl⟩ := Option.map_eq_some_iff.mp hp
  obtain ⟨a, ha, hq⟩ := Option.bind_eq_some_iff.mp hq
  obtain ⟨q', hq', hreg, -⟩ := h.inv.owned o a ha
  rw [hq, Option.some.injEq] at hq'
  subst hq'
  exact ⟨a, q, ha, hq, hreg, rfl⟩

/-- An object that epoll points to has an event. -/
lemma interest_isSome {fd : Int} (h : InLoop L c s m) (hne : fd ≠ c) :
    (m.reg.interest fd).isSome = (s.interest fd).isSome := by
  rw [h.interest fd hne]
  cases hw : s.interest fd with
  | none => rfl
  | some w =>
    obtain ⟨a, q, ha, -⟩ := h.mEvt_some (h.watched fd w hw).2
    simp [ha]

lemma added {a : Addr} {flags : UInt32} (h : InLoop L c s m) (hnone : (s.objs o).mEvt = none)
    (ha : m.reg.heap a = none)
    (hk : Keeps L m ({ m with reg := m.reg.added L a (m.objs o).mFd (.obj o) }.setObj o
      { m.objs o with mEvt := some a, mIsReg := true })) :
    InLoop L c ((s.setInterest (s.objs o).mFd (some ⟨⟨(s.objs o).mFd, o⟩, flags⟩)).setObj o
        { s.objs o with mEvt := some ⟨(s.objs o).mFd, o⟩, mIsReg := true })
      ({ m with reg := m.reg.added L a (m.objs o).mFd (.obj o) }.setObj o
        { m.objs o with mEvt := some a, mIsReg := true }) := by
  obtain ⟨hinv, hpc⟩ := h.keeps hk
  have hmFd := (h.objs o).mFd
  have hother : ∀ fd w, s.interest fd = some w → w.ptr.user ≠ o := by
    rintro fd w hw rfl
    have hevt := (h.watched fd w hw).2
    rw [hnone] at hevt
    cases hevt
  constructor
  case inv => exact hinv
  case evtcb => exact hpc
  case pos => exact h.pos
  case objs =>
    have ho := h.objs o
    exact Shown.update h.objs ⟨ho.mFd, rfl, ho.mTask, ho.usable, fun _ => rfl⟩
  case mEvt =>
    intro i
    by_cases hi : i = o
    · subst hi
      simp [OwnTask.setObj, OwnTask.setInterest, State.setObj, Registry.added, hmFd]
    · simp only [OwnTask.setObj, OwnTask.setInterest, State.setObj, Function.update_of_ne hi,
        h.mEvt]
      cases he : (m.objs i).mEvt with
      | none => rfl
      | some b =>
        obtain ⟨p, hp, -⟩ := h.inv.owned i b he
        have hb : b ≠ a := by
          rintro rfl
          simp [ha] at hp
        simp [Registry.added, hb]
  case interest =>
    intro fd hne
    by_cases hfd : fd = (s.objs o).mFd
    · subst hfd
      simp [OwnTask.setObj, OwnTask.setInterest, State.setObj, Registry.added, hmFd]
    · simp only [OwnTask.setObj, OwnTask.setInterest, State.setObj, Registry.added, hmFd,
        Function.update_of_ne hfd, h.interest fd hne]
      cases hw : s.interest fd with
      | none => rfl
      | some w => simp [hother fd w hw]
  case watched =>
    intro fd w hw
    by_cases hfd : fd = (s.objs o).mFd
    · subst hfd
      simp only [OwnTask.setObj, OwnTask.setInterest, Function.update_self, Option.some.injEq]
        at hw
      subst hw
      simp [OwnTask.setObj]
    · simp only [OwnTask.setObj, OwnTask.setInterest, Function.update_of_ne hfd] at hw
      simpa [OwnTask.setObj, OwnTask.setInterest, hother fd w hw] using h.watched fd w hw
  case events =>
    intro i p hp
    by_cases hi : i = o
    · subst hi
      simp only [OwnTask.setObj, Function.update_self, Option.some.injEq] at hp
      subst hp
      exact (h.objs i).usable.2
    · simp only [OwnTask.setObj, Function.update_of_ne hi] at hp
      exact h.events i p hp
  case opened => exact h.opened

/-- `deregEdEvent` of the event of an object. -/
lemma retired {a : Addr} {q : EdNio.Event.Edevt} (h : InLoop L c s m)
    (ha : (m.objs o).mEvt = some a) (hq : m.reg.heap a = some q)
    (hk : Keeps L m ({ m with reg := m.reg.retired L a q }.setObj o
      { m.objs o with mEvt := none, mIsReg := false, mTask := false })) :
    InLoop L c ((s.setInterest q.fd none).setObj o
        { s.objs o with mEvt := none, mIsReg := false, mTask := false })
      ({ m with reg := m.reg.retired L a q }.setObj o
        { m.objs o with mEvt := none, mIsReg := false, mTask := false }) := by
  obtain ⟨hinv, hpc⟩ := h.keeps hk
  have hevt : (s.objs o).mEvt = some ⟨q.fd, o⟩ := by
    rw [h.mEvt, ha]
    simp [hq]
  have hother : ∀ fd w, fd ≠ q.fd → s.interest fd = some w → w.ptr.user ≠ o := by
    rintro fd w hfd hw rfl
    obtain ⟨hptr, hsome⟩ := h.watched fd w hw
    rw [hevt, Option.some.injEq] at hsome
    exact hfd (by rw [← hptr, ← hsome])
  constructor
  case inv => exact hinv
  case evtcb => exact hpc
  case pos => exact h.pos
  case objs =>
    have ho := h.objs o
    exact Shown.update h.objs ⟨ho.mFd, rfl, rfl, ho.usable, fun hne => absurd rfl hne⟩
  case mEvt =>
    intro i
    by_cases hi : i = o
    · subst hi
      simp [OwnTask.setObj, State.setObj]
    · simp only [OwnTask.setObj, OwnTask.setInterest, State.setObj, Function.update_of_ne hi,
        h.mEvt]
      cases he : (m.objs i).mEvt with
      | none => rfl
      | some b =>
        -- the events of two objects lie at different addresses
        have hb : b ≠ a := by
          rintro rfl
          obtain ⟨p, hp, -, hpu⟩ := h.inv.owned i b he
          obtain ⟨p', hp', -, hpu'⟩ := h.inv.owned o b ha
          rw [hp, Option.some.injEq] at hp'
          subst hp'
          rw [hpu] at hpu'
          cases hpu'
          exact hi rfl
        simp [Registry.retired, hb]
  case interest =>
    intro fd hne
    by_cases hfd : fd = q.fd
    · subst hfd
      simp [OwnTask.setObj, OwnTask.setInterest, State.setObj, Registry.retired]
    · simp only [OwnTask.setObj, OwnTask.setInterest, State.setObj, Registry.retired,
        Function.update_of_ne hfd, h.interest fd hne]
      cases hw : s.interest fd with
      | none => rfl
      | some w => simp [hother fd w hfd hw]
  case watched =>
    intro fd w hw
    by_cases hfd : fd = q.fd
    · subst hfd
      simp [OwnTask.setObj, OwnTask.setInterest] at hw
    · simp only [OwnTask.setObj, OwnTask.setInterest, Function.update_of_ne hfd] at hw
      simpa [OwnTask.setObj, OwnTask.setInterest, hother fd w hfd hw] using h.watched fd w hw
  case events =>
    intro i p hp
    by_cases hi : i = o
    · subst hi
      simp [OwnTask.setObj] at hp
    · simp only [OwnTask.setObj, Function.update_of_ne hi] at hp
      exact h.events i p hp
  case opened => exact h.opened

/-- `EPOLL_CTL_MOD` for the event of an object. -/
lemma changed {a : Addr} {q : EdNio.Event.Edevt} {flags : UInt32} (h : InLoop L c s m)
    (ha : (m.objs o).mEvt = some a) (hq : m.reg.heap a = some q)
    {r : Registry}
    (hr : r = { m.reg with interest := Function.update m.reg.interest q.fd (some a) })
    (hk : Keeps L m { m with reg := r }) :
    InLoop L c (s.setInterest q.fd (some ⟨⟨q.fd, o⟩, flags⟩)) { m with reg := r } := by
  subst hr
  obtain ⟨hinv, hpc⟩ := h.keeps hk
  constructor
  case inv => exact hinv
  case evtcb => exact hpc
  case pos => exact h.pos
  case objs => exact h.objs
  case mEvt => exact h.mEvt
  case interest =>
    intro fd hne
    by_cases hfd : fd = q.fd
    · subst hfd
      simp [OwnTask.setInterest, ha]
    · simpa [OwnTask.setInterest, hfd] using h.interest fd hne
  case watched =>
    intro fd w hw
    by_cases hfd : fd = q.fd
    · subst hfd
      simp only [OwnTask.setInterest, Function.update_self, Option.some.injEq] at hw
      subst hw
      refine ⟨rfl, ?_⟩
      change (s.objs o).mEvt = _
      rw [h.mEvt, ha]
      simp [hq]
    · simp only [OwnTask.setInterest, Function.update_of_ne hfd] at hw
      exact h.watched fd w hw
  case events => exact h.events
  case opened => exact h.opened

/-- What epoll can watch for the objects, it can watch in the main loop. -/
lemma canAdd {room : Bool} (h : InLoop L c s m)
    (hadd : (s.canAdd (s.objs o).mFd && room) = true) :
    0 < (m.objs o).mFd ∧ m.reg.interest (m.objs o).mFd = none := by
  simp only [OwnTask.canAdd, Bool.and_eq_true, Option.isNone_iff_eq_none] at hadd
  obtain ⟨⟨hopen, hfree⟩, -⟩ := hadd
  obtain ⟨hne, hmsg⟩ := (h.objs o).usable
  rw [(h.objs o).mFd]
  have hpos : ¬ (s.objs o).mFd < 0 := by
    intro hlt
    rw [h.opened _ hlt] at hopen
    cases hopen
  refine ⟨by omega, ?_⟩
  rw [h.interest _ hmsg, hfree]
  rfl

/-- `deregisterEvent` asserts more in the objects than in the main loop. -/
lemma deregisterEvent (h : InLoop L c s m) (hs : s.deregisterEvent o = some t) :
    ∃ m', m.deregisterEvent L o = some m' ∧ Keeps L m m' ∧ InLoop L c t m' := by
  obtain ⟨m', hm', hk⟩ := Keeps.deregisterEvent h.inv.wf h.inv.owned o
  refine ⟨m', hm', hk, ?_⟩
  unfold State.deregisterEvent at hm'
  dsimp only at hm'
  rw [(h.objs o).mIsReg] at hm'
  unfold OwnTask.deregisterEvent at hs
  dsimp only at hs
  split at hs
  · cases hs
  split at hs
  · rename_i hreg
    rw [if_pos hreg] at hm'
    cases hm'
    cases hs
    exact h
  rename_i hreg
  rw [if_neg hreg] at hm'
  split at hs
  · cases hs
  obtain ⟨u, hu, rfl⟩ := Option.map_eq_some_iff.mp hs
  cases hevt : (s.objs o).mEvt with
  | some p =>
    obtain ⟨a, q, ha, hq, hqreg, rfl⟩ := h.mEvt_some hevt
    simp only [hevt, OwnTask.deregEdEvent, Option.ite_none_right_eq_some, Option.some.injEq] at hu
    obtain ⟨-, rfl⟩ := hu
    rw [ha] at hm'
    simp only [Registry.deregEdEvent_eq h.inv.wf hq hqreg, Option.map_some,
      Option.some.injEq] at hm'
    subst hm'
    exact h.retired ha hq hk
  | none =>
    have ha := h.mEvt_none_iff.mp hevt
    simp only [hevt, Option.some.injEq] at hu
    subst hu
    simp only [ha, Option.some.injEq] at hm'
    subst hm'
    have ho := h.objs o
    exact h.setObj (r := m.reg) hk rfl rfl
      ⟨ho.mFd, rfl, rfl, ho.usable, fun hne => absurd rfl hne⟩ ha.symm hevt.symm

/-- The `close` of a descriptor that an object owns. -/
lemma closeFd (h : InLoop L c s m) (hs : s.closeFd o = some t) :
    ∃ m', m.close L o = some m' ∧ InLoop L c t m' := by
  unfold OwnTask.closeFd at hs
  unfold State.close
  dsimp only at hs ⊢
  rw [(h.objs o).mFd]
  by_cases hpos : 0 ≤ (s.objs o).mFd
  · rw [if_pos hpos] at hs ⊢
    obtain ⟨u, hu, rfl⟩ := Option.map_eq_some_iff.mp hs
    obtain ⟨v, hv, -, huv⟩ := h.deregisterEvent hu
    rw [hv]
    refine ⟨_, rfl, ?_⟩
    have hclosed := huv.sysClose (s.objs o).mFd
    have ho := hclosed.objs o
    have hfd : (-1 : Int) ≠ 0 ∧ (-1 : Int) ≠ c := by
      have := h.pos
      omega
    exact hclosed.setObj (hclosed.keeps_refl.setObj (fun _ hb => hb)) rfl rfl
      ⟨rfl, ho.mIsReg, ho.mTask, hfd, ho.registered⟩ rfl rfl
  · rw [if_neg hpos] at hs ⊢
    cases hs
    exact ⟨m, rfl, h⟩

/-- `~EdEvent`, and the constructor of the next object. -/
lemma destroyEdEvent {b : Bool} {k : Subclass} (h : InLoop L c s m)
    (hs : s.destroyEdEvent o = some t) :
    ∃ m', m.destroy L o = some m' ∧ InLoop L c (t.setObj o (.new b k)) m' := by
  have hnew : Shown c .initMembers (.new b k) := by
    refine ⟨rfl, rfl, rfl, ?_, fun hne => absurd rfl hne⟩
    have := h.pos
    change (-1 : Int) ≠ 0 ∧ (-1 : Int) ≠ c
    omega
  unfold OwnTask.destroyEdEvent at hs
  unfold State.destroy
  dsimp only
  split at hs
  · rename_i hevt
    cases hs
    have ha := h.mEvt_none_iff.mp hevt
    simp only [ha, Option.isSome_none, Bool.false_eq_true, if_false, Option.map_some]
    refine ⟨_, rfl, ?_⟩
    have hk := h.keeps_refl.setObj (o := o) (x := .initMembers)
      (by simp [EdNio.Event.EdEvent.initMembers])
    exact h.setObj (r := m.reg) hk rfl rfl hnew ha.symm hevt.symm
  · rename_i hevt
    obtain ⟨v, hv, -, htv⟩ := h.deregisterEvent hs
    have ha : (m.objs o).mEvt.isSome = true := by
      rw [Option.isSome_iff_ne_none]
      exact fun hnone => hevt (h.mEvt_none_iff.mpr hnone)
    rw [if_pos ha, hv]
    refine ⟨_, rfl, ?_⟩
    have hnone : (t.objs o).mEvt = none := by
      by_contra hne
      have hreg := (htv.objs o).registered hne
      rw [OwnTask.mIsReg_of_deregisterEvent hs] at hreg
      cases hreg
    have ha' := htv.mEvt_none_iff.mp hnone
    have hk := htv.keeps_refl.setObj (o := o) (x := .initMembers)
      (by simp [EdNio.Event.EdEvent.initMembers])
    exact htv.setObj (r := v.reg) hk rfl rfl hnew ha'.symm hnone.symm

end InLoop

/-- There is always memory for an event. -/
lemma exists_free (h : Inv L m) : ∃ a, m.reg.heap a = none := by
  obtain ⟨a, ha⟩ := Infinite.exists_notMem_finset
    (m.reg.lists .mEvtList ++ m.reg.lists .mDummyEvtList).toFinset
  refine ⟨a, ?_⟩
  rw [List.mem_toFinset, List.mem_append, not_or] at ha
  cases he : m.reg.heap a with
  | none => rfl
  | some e =>
    have hmem := (h.wf.mem a e.home).mpr ⟨e, he, rfl⟩
    cases hh : e.home with
    | mEvtList => exact absurd (hh ▸ hmem) ha.1
    | mDummyEvtList => exact absurd (hh ▸ hmem) ha.2

namespace Does

variable {flags : UInt32} {room : Bool} {fd : Int}

/-- A change that the main loop does not see. -/
lemma of_congr (hobjs : ∀ i, (t.objs i).toEdEvent =
      { (s.objs i).toEdEvent with mContext := (t.objs i).mContext })
    (hint : t.interest = s.interest)
    (hopen : (∀ fd < 0, s.opened fd = false) → ∀ fd < 0, t.opened fd = false) : Does L c s t :=
  fun m hm => ⟨m, .refl, hm.congr hobjs hint (hopen hm.opened)⟩

lemma sysOpen (s : OwnTask) (fd : Int) : Does L c s (s.sysOpen fd) := by
  unfold OwnTask.sysOpen
  split
  · rename_i hpos
    refine of_congr (fun _ => rfl) rfl (fun h i hlt => ?_)
    have hne : i ≠ fd := by omega
    simpa [hne] using h i hlt
  · exact .refl s

lemma setObj {y : Object} (hevt : y.toEdEvent =
      { (s.objs o).toEdEvent with mContext := y.mContext }) : Does L c s (s.setObj o y) := by
  refine of_congr (fun i => ?_) rfl id
  by_cases hi : i = o
  · subst hi
    simpa [OwnTask.setObj] using hevt
  · simp [OwnTask.setObj, hi]

lemma setContext (s : OwnTask) (o : Nat) (ctx : Bool) : Does L c s (s.setContext o ctx) :=
  setObj rfl

lemma setClass (s : OwnTask) (o : Nat) (cls : Subclass) : Does L c s (s.setClass o cls) :=
  setObj rfl

lemma setFd (s : OwnTask) (o : Nat) (hfd : fd ≠ 0 ∧ fd ≠ c) : Does L c s (s.setFd o fd) := by
  intro m hm
  have hstep : (mainLoop L).step m (.setFd o fd) = some (m.setFd o fd) := by
    change (if fd ≠ 0 then m.user (some (m.setFd o fd)) else none) = _
    rw [if_pos hfd.1, hm.user]
  refine ⟨m.setFd o fd, .single trivial hstep, ?_⟩
  apply hm.setObj (r := m.reg)
  · exact hm.keeps_refl.setObj (fun _ hb => hb)
  · rfl
  · rfl
  · exact ⟨rfl, (hm.objs o).mIsReg, rfl, hfd, (hm.objs o).registered⟩
  · rfl
  · rfl

lemma sysClose (s : OwnTask) (fd : Int) : Does L c s (s.sysClose fd) :=
  fun _ hm => ⟨_, .single (a := .sysClose fd) trivial (hm.user _), hm.sysClose fd⟩

lemma registerEvent (hs : s.registerEvent o flags room = some t) : Does L c s t := by
  intro m hm
  rcases OwnTask.registerEvent_registers hs with rfl | ⟨hreg, hnone, htask, rfl⟩
  · exact ⟨m, .refl, hm⟩
  have ho := hm.objs o
  have hnone' := hm.mEvt_none_iff.mp hnone
  obtain ⟨a, ha⟩ := exists_free hm.inv
  let added : Bool := s.canAdd (s.objs o).mFd && room
  have hc : m.canRegister a (m.objs o).mFd added := ⟨ha, fun hadd => hm.canAdd hadd⟩
  obtain ⟨u, hu, hk⟩ := Keeps.registerEvent hm.inv.wf hm.inv.owned hc
  have hstep : (mainLoop L).step m (.registerEvent o a added) = some u := by
    change (if _ then m.user (m.registerEvent L o a added) else none) = _
    rw [if_pos ⟨ho.mTask.trans htask, hc⟩, hu, hm.user]
  refine ⟨u, .single trivial hstep, ?_⟩
  simp only [State.registerEvent, ho.mIsReg, hreg, Bool.false_eq_true, if_false, hnone',
    if_true] at hu
  unfold OwnTask.regEdEvent
  cases hadd : added with
  | true =>
    simp only [hadd, Registry.regEdEvent_added, Option.map_some, Option.some.injEq] at hu
    subst hu
    rw [if_pos (by simpa [added] using hadd)]
    exact hm.added hnone ha hk
  | false =>
    simp only [hadd, Registry.regEdEvent_refused ha, Option.map_some, Option.some.injEq] at hu
    subst hu
    rw [if_neg (by simpa [added] using hadd)]
    exact hm.setObj hk rfl rfl ⟨ho.mFd, rfl, ho.mTask, ho.usable, fun _ => rfl⟩ hnone'.symm
      hnone.symm

lemma deregisterEvent (hs : s.deregisterEvent o = some t) : Does L c s t := by
  intro m hm
  obtain ⟨u, hu, -, htu⟩ := hm.deregisterEvent hs
  have hstep : (mainLoop L).step m (.deregisterEvent o) = some u := by
    change m.user (m.deregisterEvent L o) = _
    rw [hu, hm.user]
  exact ⟨u, .single trivial hstep, htu⟩

lemma closeFd (hs : s.closeFd o = some t) : Does L c s t := by
  intro m hm
  obtain ⟨u, hu, htu⟩ := hm.closeFd hs
  have hstep : (mainLoop L).step m (.close o) = some u := by
    change m.user (m.close L o) = _
    rw [hu, hm.user]
  exact ⟨u, .single trivial hstep, htu⟩

lemma changeEvent (hs : s.changeEvent o flags room = some t) : Does L c s t := by
  unfold OwnTask.changeEvent at hs
  dsimp only at hs
  split at hs
  · cases hs
  split at hs
  · rename_i p hevt
    obtain ⟨htask, hs⟩ := Option.ite_none_right_eq_some.mp hs
    cases hs
    intro m hm
    obtain ⟨a, q, ha, hq, -, rfl⟩ := hm.mEvt_some hevt
    obtain ⟨b, hb⟩ := exists_free hm.inv
    have hc : m.canRegister b (m.objs o).mFd false := ⟨hb, by simp⟩
    obtain ⟨u, hu, hk⟩ := Keeps.changeEvent hm.inv.wf hm.inv.owned hc
    have hstep : (mainLoop L).step m (.changeEvent o b false) = some u := by
      change (if _ then m.user (m.changeEvent L o b false) else none) = _
      rw [if_pos ⟨(hm.objs o).mTask.trans htask, hc⟩, hu, hm.user]
    refine ⟨u, .single trivial hstep, ?_⟩
    have hsome := hm.interest_isSome (hm.events o _ hevt)
    simp only [State.changeEvent, ha, Registry.changeEdEvent, hq, Option.map_some, hsome,
      Option.some.injEq] at hu
    subst hu
    unfold OwnTask.changeEdEvent
    dsimp only
    split
    · rename_i hw
      rw [if_pos hw] at hk
      exact hm.changed ha hq rfl hk
    · exact hm
  · exact registerEvent hs

lemma openFd (h : fd ≠ 0 ∧ fd ≠ c) (hs : s.openFd o fd flags room = some t) : Does L c s t :=
  ((sysOpen s fd).trans (setFd _ o h)).trans (registerEvent hs)

lemma openPipe {fds : Option (Int × Int)} (h : ∀ r w, fds = some (r, w) → r ≠ 0 ∧ r ≠ c)
    (hs : EdPipe.open s o fds room = some t) : Does L c s t := by
  unfold EdPipe.open at hs
  split at hs
  · rename_i mRecvFd mSendFd
    have hclass := (sysOpen (L := L) (c := c) s mSendFd).trans
      (setClass _ o (.EdPipe mRecvFd mSendFd))
    dsimp only at hs
    split at hs
    · exact (hclass.trans (setContext _ o true)).trans (openFd (h _ _ rfl) hs)
    · exact hclass.trans (openFd (h _ _ rfl) hs)
  · cases hs
    exact .refl s

lemma openMq {mMqd : Int} {creat : Bool} (h : fd ≠ 0 ∧ fd ≠ c)
    (hs : EdMq.open s o mMqd fd creat room = some t) : Does L c s t := by
  have hclose : Does L c s (EdMq.mqClose s mMqd) := by
    unfold EdMq.mqClose
    split
    · exact sysClose s mMqd
    · exact .refl s
  have hclass := hclose.trans (setClass _ o (.EdMq fd))
  unfold EdMq.open at hs
  dsimp only at hs
  split at hs
  · cases hs
    exact hclass
  · exact hclass.trans (openFd h hs)

lemma close (hs : s.close o = some t) : Does L c s t := by
  unfold OwnTask.close at hs
  split at hs
  · exact closeFd hs
  · exact closeFd hs
  · exact closeFd hs
  · exact closeFd hs
  · unfold EdPipe.close at hs
    split at hs
    · obtain ⟨u, hu, rfl⟩ := Option.map_eq_some_iff.mp hs
      exact (((deregisterEvent hu).trans (sysClose u _)).trans (sysClose _ _)).trans
        (setClass _ o _)
    · cases hs
      exact .refl s
  · unfold EdMq.close at hs
    split at hs
    · obtain ⟨u, hu, rfl⟩ := Option.map_eq_some_iff.mp hs
      exact ((deregisterEvent hu).trans (sysClose u _)).trans (setClass _ o _)
    · cases hs
      exact .refl s

lemma call {call : Call} (h : ∀ fd ∈ call.fds, fd ≠ 0 ∧ fd ≠ c) (hs : s.call o call = some t) :
    Does L c s t := by
  cases call with
  | setFd fd =>
    cases hs
    exact setFd s o (h fd (by simp [Call.fds]))
  | setContext ctx =>
    cases hs
    exact setContext s o ctx
  | registerEvent flag room => exact registerEvent hs
  | deregisterEvent => exact deregisterEvent hs
  | changeEvent flags room => exact changeEvent hs
  | openSock fd =>
    obtain ⟨-, hs⟩ := Option.ite_none_right_eq_some.mp hs
    cases hs
    exact ((sysOpen s fd).trans (setContext _ o true)).trans (setFd _ o (h fd (by simp [Call.fds])))
  | openChildSock fd room =>
    obtain ⟨-, hs⟩ := Option.ite_none_right_eq_some.mp hs
    exact (setContext s o true).trans (openFd (h fd (by simp [Call.fds])) hs)
  | setUsec fd room =>
    obtain ⟨-, hs⟩ := Option.ite_none_right_eq_some.mp hs
    unfold EdTimer.setUsec at hs
    split at hs
    · exact openFd (h fd (by simp [Call.fds])) hs
    · cases hs
      exact .refl s
  | openEventFd fd room =>
    obtain ⟨-, hs⟩ := Option.ite_none_right_eq_some.mp hs
    unfold EdEventFd.open at hs
    split at hs
    · exact openFd (h fd (by simp [Call.fds])) hs
    · cases hs
      exact .refl s
  | setSignal fd room =>
    obtain ⟨-, hs⟩ := Option.ite_none_right_eq_some.mp hs
    unfold EdSignalFd.setSignal at hs
    split at hs
    · cases hs
      exact .refl s
    · exact openFd (h fd (by simp [Call.fds])) hs
  | openPipe fds room =>
    simp only [OwnTask.call] at hs
    split at hs
    · obtain ⟨-, hs⟩ := Option.ite_none_right_eq_some.mp hs
      refine openPipe (fun r w hfds => h r ?_) hs
      subst hfds
      simp [Call.fds]
    · cases hs
  | openMq fd creat room =>
    simp only [OwnTask.call] at hs
    split at hs
    · obtain ⟨-, hs⟩ := Option.ite_none_right_eq_some.mp hs
      exact openMq (h fd (by simp [Call.fds])) hs
    · cases hs
  | close => exact close hs

/-- The destructor of a class, and that of `EdEvent`. -/
lemma destroy {ctx : Bool} (hs : s.destroy o ctx = some t) : Does L c s t := by
  obtain ⟨u, hu, hs⟩ := Option.bind_eq_some_iff.mp hs
  obtain ⟨v, hv, rfl⟩ := Option.map_eq_some_iff.mp hs
  have hdestructor : Does L c s u := by
    unfold OwnTask.destructor at hu
    split at hu
    · cases hu
      exact .refl s
    · exact close hu
  refine hdestructor.trans (fun m hm => ?_)
  obtain ⟨m', hm', hin⟩ := hm.destroyEdEvent (b := ctx) (k := (v.objs o).cls.fresh) hv
  have hstep : (mainLoop L).step m (.destroy o) = some m' := by
    change m.user (m.destroy L o) = _
    rw [hm', hm.user]
  exact ⟨m', .single trivial hstep, hin⟩

end Does

lemma Ledger.step_does {x y : Ledger} {a : LedgerAction} (ha : a.usable c = true)
    (hs : x.step a = some y) : Does L c x.task y.task := by
  cases a with
  | destroy o ctx =>
    obtain ⟨u, hu, rfl⟩ := Option.map_eq_some_iff.mp hs
    exact .destroy hu
  | act a =>
    obtain ⟨u, hu, rfl⟩ := Option.map_eq_some_iff.mp hs
    cases a with
    | call o call =>
      refine Does.call ?_ hu
      simpa [LedgerAction.usable] using ha
    | sysOpen fd =>
      obtain ⟨-, hu⟩ := Option.ite_none_right_eq_some.mp hu
      cases hu
      exact .sysOpen _ fd
    | sysClose fd =>
      cases hu
      exact .sysClose _ fd

/-- The first callback of the main loop, of the messages; no object has been used. -/
lemma exists_inLoop (L : Layout) (hc : 0 < c) (h : ownTask.init s) :
    ∃ m, (mainLoop L).Reachable m ∧ InLoop L c s m := by
  obtain ⟨hobjs, hopened, hint⟩ := h
  let ev : Events := ⟨true, false, false, false, false⟩
  let m : State :=
    { State.init with
      reg := { Registry.added L .empty 0 c .task with batch := 1 }
      pc := .evtcb .EVT_READ ⟨0, 0, ev⟩ []
      calls := [⟨0, .EVT_READ, false⟩] }
  have hrun : (mainLoop L).exec State.init
      [.start 0 c true, .epoll_wait [(c, ev)], .esMain, .esMain] = some m := by
    have hne : c ≠ 0 := by omega
    simp [System.exec, mainLoop, State.step, State.init, State.canRegister, Registry.empty, hc, hne,
      Registry.regEdEvent_added, Registry.added, State.report, State.nextEntry, State.esMain,
      Events.calls, m, ev]
  have hr : (mainLoop L).Reachable m := System.reachable_of_exec rfl hrun
  have hinv : Inv L m := hr.invariant (fun _ h0 => h0 ▸ Inv.init)
    (fun _ _ _ _ hI _ hs => hI.step hs)
  have hnew : ∀ o, (s.objs o).mFd = -1 ∧ (s.objs o).mIsReg = false ∧ (s.objs o).mTask = false ∧
      (s.objs o).mEvt = none := by
    intro o
    obtain ⟨ctx, cls, -, ho⟩ := hobjs o
    rw [ho]
    exact ⟨rfl, rfl, rfl, rfl⟩
  refine ⟨m, hr, hinv, ⟨_, _, _, rfl⟩, hc, ?_, ?_, ?_, ?_, ?_, hopened⟩
  · intro o
    obtain ⟨hfd, hreg, htask, hevt⟩ := hnew o
    refine ⟨hfd.symm, hreg.symm, htask.symm, ?_, fun hne => absurd hevt hne⟩
    rw [hfd]
    omega
  · intro o
    rw [(hnew o).2.2.2]
    rfl
  · intro fd hne
    rw [hint]
    exact Function.update_of_ne hne _ _
  · intro fd w hw
    rw [hint] at hw
    cases hw
  · intro o p hp
    rw [(hnew o).2.2.2] at hp
    cases hp

/-- What the objects of a task do is done by the main loop of the task in a callback. -/
theorem objects_in_loop (L : Layout) (hc : 0 < c) {x : Ledger}
    (h : ledger.Reaches (fun _ a => a.usable c = true) x) :
    ∃ m, (mainLoop L).Reachable m ∧ InLoop L c x.task m := by
  induction h with
  | init h0 => exact exists_inLoop L hc h0.1
  | step _ ha hs ih =>
    obtain ⟨m, hr, hm⟩ := ih
    obtain ⟨u, hl, hu⟩ := Ledger.step_does ha hs m hm
    exact ⟨u, hr.leadsBy hl, hu⟩

end EdNio.Event.Objects
