import EdNio.Event.EventsStay
import EdNio.Event.TaskTimers
import EdNio.Event.TimerTask
import Mathlib.Data.List.Induction

/-!
# When `OnTimer` is called

A timer that epoll has reported has expirations to read when its entry comes, unless it was
set, paused, resumed or reset in the same batch.
-/

namespace EdNio.Event
open Transition

/-- What a timer was last set to, when, and the expirations that have been counted by reads
since. -/
structure Arming where
  spec : Timer.Itimerspec
  start : Int
  seen : Nat
deriving DecidableEq, Repr

def Arming.count (a : Arming) (now : Int) : Nat :=
  a.spec.expirations (now - a.start)

def TimerEvent.arm (o : ObjId) (a? : Option Arming) : TimerEvent → Option Arming
  | .settime o' spec now => if o' = o then some ⟨spec, now, 0⟩ else a?
  | .OnTimer o' _ _ now =>
    if o' = o then a?.map (fun a => { a with seen := a.count now }) else a?
  | .epoll_wait => a?

/-- How the timer is set after these events. -/
def arming (o : ObjId) (log : List TimerEvent) : Option Arming :=
  log.foldl (TimerEvent.arm o) none

def TimerEvent.rearm (o : ObjId) (a? : Option Arming) : TimerEvent → Option Arming
  | .epoll_wait => none
  | e => e.arm o a?

/-- The same, if the timer was set since the last batch was reported. -/
def rearmed (o : ObjId) (log : List TimerEvent) : Option Arming :=
  log.foldl (TimerEvent.rearm o) none

/-- `OnTimer` is called for a timer that has expired since it was set, paused, resumed or reset
last, and the hit count is the number of the expirations since the read before. -/
def Expired (before : List TimerEvent) : TimerEvent → Prop
  | .OnTimer o _ hitCount now => ∃ a, arming o before = some a ∧ 0 < a.count now ∧
      a.seen + hitCount = a.count now
  | _ => True

/-- When the callback of a timer comes that was set, paused, resumed or reset since its batch
was reported, the clock has reached its new first expiration. -/
def fresh (s : Recorded TimerTask TimerEvent) : TimerAction → Bool
  | .esMain => s.state.called.all (fun o =>
      (rearmed o s.log).all (fun a =>
        decide (a.spec.it_value.ns ≠ 0 ∧ a.start + a.spec.it_value.ns ≤ s.state.now)))
  | _ => true

section Log

variable {o o' : ObjId} {log : List TimerEvent} {e : TimerEvent} {a : Arming}

lemma arming_concat (o : ObjId) (log : List TimerEvent) (e : TimerEvent) :
    arming o (log ++ [e]) = e.arm o (arming o log) := by
  simp [arming]

lemma rearmed_concat (o : ObjId) (log : List TimerEvent) (e : TimerEvent) :
    rearmed o (log ++ [e]) = e.rearm o (rearmed o log) := by
  simp [rearmed]

/-- The object that an event is about. -/
def TimerEvent.timer : TimerEvent → Option ObjId
  | .settime o _ _ => some o
  | .OnTimer o _ _ _ => some o
  | .epoll_wait => none

lemma arm_other (h : e.timer ≠ some o) (a? : Option Arming) : e.arm o a? = a? := by
  cases e with
  | settime o' spec now =>
    have hne : o' ≠ o := fun heq => h (by rw [heq]; rfl)
    simp [TimerEvent.arm, hne]
  | OnTimer o' edm hitCount now =>
    have hne : o' ≠ o := fun heq => h (by rw [heq]; rfl)
    simp [TimerEvent.arm, hne]
  | epoll_wait => rfl

lemma arming_of_rearmed (h : rearmed o log = some a) : arming o log = some a := by
  induction log using List.reverseRecOn generalizing a with
  | nil => cases h
  | append_singleton log e ih =>
    rw [rearmed_concat] at h
    rw [arming_concat]
    cases e with
    | epoll_wait => cases h
    | settime o' spec now =>
      simp only [TimerEvent.rearm, TimerEvent.arm] at h ⊢
      split at h
      · rename_i ho
        rw [if_pos ho]
        exact h
      · rename_i ho
        rw [if_neg ho]
        exact ih h
    | OnTimer o' edm hitCount now =>
      simp only [TimerEvent.rearm, TimerEvent.arm] at h ⊢
      split at h
      · rename_i ho
        obtain ⟨b, hb, rfl⟩ := Option.map_eq_some_iff.mp h
        rw [if_pos ho, ih hb]
        rfl
      · rename_i ho
        rw [if_neg ho]
        exact ih h

end Log

/-- The entries whose `EVT_READ` part is still to come. -/
def Pc.unread : Pc → List Entry
  | .entry e rest => e :: rest
  | .check .EVT_READ e rest => e :: rest
  | .check _ _ rest => rest
  | .evtcb _ _ rest => rest
  | _ => []

/-- The entry of a timer that is still to come is not in vain, or the timer was set in this
batch and not read since. -/
def Waiting (o : ObjId) (f : Timer.Timerfd) (log : List TimerEvent) : Prop :=
  f.ticks ≠ 0 ∨ ∃ a, rearmed o log = some a ∧ a.seen = 0

structure TimerInv (L : Layout) (s : Recorded TimerTask TimerEvent) : Prop where
  proc : ProcInv L s.state.proc
  spec : ∀ o, (s.state.timers o).mTimerSpec.Valid
  armed : ∀ o f, (s.state.timers o).timerfd = some f → ∃ a, arming o s.log = some a ∧
    f.Tracks a.spec a.start a.seen s.state.now
  distinct : (s.state.proc.loop.pc.unread.map Entry.ptr).Nodup
  entries : ∀ e ∈ s.state.proc.loop.pc.unread, s.state.proc.loop.reg.heap e.ptr ≠ none
  pending : ∀ e ∈ s.state.proc.loop.pc.unread, e.events.EPOLLIN = true →
    ∀ p, s.state.proc.loop.reg.heap e.ptr = some p → p.isReg = true →
      ∀ o f, p.user = .obj o → (s.state.timers o).timerfd = some f → Waiting o f s.log

namespace TimerInv

variable {L : Layout} {s : Recorded TimerTask TimerEvent} {x : TimerTask}
  {log : List TimerEvent} {p : TaskProc} {o : ObjId} {t : Timer.EdTimer}
  {spec : Timer.Itimerspec}

/-- A step that changes the events only by what `Stays` allows, and one timer. -/
lemma write (h : TimerInv L ⟨x, log⟩) (hproc : ProcInv L p)
    (hstays : Stays x.proc.loop.reg p.loop.reg)
    (hsub : p.loop.pc.unread.Sublist x.proc.loop.pc.unread) {more : List TimerEvent}
    (hother : ∀ o', o' ≠ o → arming o' (log ++ more) = arming o' log ∧
      rearmed o' (log ++ more) = rearmed o' log)
    (hspec : t.mTimerSpec.Valid)
    (harmed : ∀ f, t.timerfd = some f → ∃ a, arming o (log ++ more) = some a ∧
      f.Tracks a.spec a.start a.seen x.now)
    (hwaiting : ∀ e ∈ p.loop.pc.unread, e.events.EPOLLIN = true →
      ∀ q, p.loop.reg.heap e.ptr = some q → q.isReg = true → q.user = .obj o →
        ∀ f, t.timerfd = some f → Waiting o f (log ++ more)) :
    TimerInv L ⟨{ x with proc := p }.write o t, log ++ more⟩ where
  proc := hproc
  spec o' := by
    by_cases ho : o' = o
    · subst ho
      simpa [TimerTask.write] using hspec
    · simpa [TimerTask.write, ho] using h.spec o'
  armed o' f hf := by
    by_cases ho : o' = o
    · subst ho
      exact harmed f (by simpa [TimerTask.write] using hf)
    · rw [(hother o' ho).1]
      exact h.armed o' f (by simpa [TimerTask.write, ho] using hf)
  distinct := h.distinct.sublist (hsub.map _)
  entries e he := by
    obtain ⟨q, hq⟩ := Option.ne_none_iff_exists'.mp (h.entries e (hsub.subset he))
    obtain ⟨q', hq', -⟩ := hstays e.ptr q hq
    simp [TimerTask.write, hq']
  pending e he hin q hq hr o' f hu hf := by
    by_cases ho : o' = o
    · subst ho
      exact hwaiting e he hin q hq hr hu f (by simpa [TimerTask.write] using hf)
    · obtain ⟨q₀, hq₀⟩ := Option.ne_none_iff_exists'.mp (h.entries e (hsub.subset he))
      obtain ⟨q', hq', hu', hr'⟩ := hstays e.ptr q₀ hq₀
      obtain rfl : q' = q := Option.some.inj (hq'.symm.trans hq)
      have hold := h.pending e (hsub.subset he) hin q₀ hq₀ (hr' hr) o' f (hu'.symm.trans hu)
        (by simpa [TimerTask.write, ho] using hf)
      rw [Waiting, (hother o' ho).2]
      exact hold

lemma settime (h : TimerInv L ⟨x, log⟩) (hproc : ProcInv L p)
    (hstays : Stays x.proc.loop.reg p.loop.reg) (hpc : p.loop.pc = x.proc.loop.pc)
    (hmem : t.mTimerSpec.Valid) (hspec : spec.Valid)
    (hfd : t.timerfd = some (Timer.timerfd_settime spec x.now)) :
    TimerInv L ⟨{ x with proc := p }.write o t, log ++ [.settime o spec x.now]⟩ := by
  have hself : TimerEvent.arm o (arming o log) (.settime o spec x.now) = some ⟨spec, x.now, 0⟩ :=
    if_pos rfl
  apply h.write hproc hstays (by rw [hpc]) _ hmem
  · intro f hf
    rw [hfd] at hf
    cases hf
    exact ⟨_, (arming_concat o log _).trans hself, .settime hspec⟩
  · intro e _ _ q _ _ _ f _
    exact .inr ⟨⟨spec, x.now, 0⟩, (rearmed_concat o log _).trans (if_pos rfl), rfl⟩
  · intro o' ho
    have hne : TimerEvent.timer (.settime o spec x.now) ≠ some o' :=
      fun heq => ho (Option.some.inj heq).symm
    rw [arming_concat, rearmed_concat]
    exact ⟨arm_other hne _, arm_other hne _⟩

/-- A step that leaves an object without a timerfd. -/
lemma closed (h : TimerInv L ⟨x, log⟩) (hproc : ProcInv L p)
    (hstays : Stays x.proc.loop.reg p.loop.reg) (hpc : p.loop.pc = x.proc.loop.pc)
    (hmem : t.mTimerSpec.Valid) (hfd : t.timerfd = none) :
    TimerInv L ⟨{ x with proc := p }.write o t, log⟩ := by
  have hw : TimerInv L ⟨{ x with proc := p }.write o t, log ++ []⟩ := by
    apply h.write hproc hstays (by rw [hpc]) _ hmem
    · intro f hf
      rw [hfd] at hf
      cases hf
    · intro e _ _ q _ _ _ f hf
      rw [hfd] at hf
      cases hf
    · intro o' _
      rw [List.append_nil]
      exact ⟨rfl, rfl⟩
  rwa [List.append_nil] at hw

lemma keep (h : TimerInv L ⟨x, log⟩) (hproc : ProcInv L p)
    (hstays : Stays x.proc.loop.reg p.loop.reg)
    (hsub : p.loop.pc.unread.Sublist x.proc.loop.pc.unread) :
    TimerInv L ⟨{ x with proc := p }, log⟩ where
  proc := hproc
  spec := h.spec
  armed := h.armed
  distinct := h.distinct.sublist (hsub.map _)
  entries e he := by
    obtain ⟨q, hq⟩ := Option.ne_none_iff_exists'.mp (h.entries e (hsub.subset he))
    obtain ⟨q', hq', -⟩ := hstays e.ptr q hq
    simp [hq']
  pending e he hin q hq hr o f hu hf := by
    obtain ⟨q₀, hq₀⟩ := Option.ne_none_iff_exists'.mp (h.entries e (hsub.subset he))
    obtain ⟨q', hq', hu', hr'⟩ := hstays e.ptr q₀ hq₀
    obtain rfl : q' = q := Option.some.inj (hq'.symm.trans hq)
    exact h.pending e (hsub.subset he) hin q₀ hq₀ (hr' hr) o f (hu'.symm.trans hu) hf

lemma init (now : Int) : TimerInv L ⟨.init now, []⟩ where
  proc := .init
  spec o := ⟨Int.le_refl _, Int.le_refl _⟩
  armed o f hf := by cases hf
  distinct := List.nodup_nil
  entries e he := by cases he
  pending e he := by cases he

lemma tick (h : TimerInv L ⟨x, log⟩) (ns : Nat) :
    TimerInv L ⟨{ x with
      now := x.now + ns
      timers := fun o => (x.timers o).advance (x.now + ns) }, log⟩ where
  proc := h.proc
  spec := h.spec
  armed o f hf := by
    obtain ⟨g, hg, rfl⟩ := Option.map_eq_some_iff.mp hf
    obtain ⟨a, ha, ht⟩ := h.armed o g hg
    exact ⟨a, ha, ht.advance (by dsimp only; omega)⟩
  distinct := h.distinct
  entries := h.entries
  pending e he hin q hq hr o f hu hf := by
    obtain ⟨g, hg, rfl⟩ := Option.map_eq_some_iff.mp hf
    refine (h.pending e he hin q hq hr o g hu hg).imp_left (fun hne => ?_)
    have hle := Timer.Timerfd.ticks_advance g (x.now + ns)
    omega

lemma outside (h : TimerInv L ⟨x, log⟩) (hproc : ProcInv L p) (hpc : p.loop.pc.unread = []) :
    TimerInv L ⟨{ x with proc := p }, log⟩ where
  proc := hproc
  spec := h.spec
  armed := h.armed
  distinct := by rw [hpc]; exact List.nodup_nil
  entries e he := by rw [hpc] at he; cases he
  pending e he := by rw [hpc] at he; cases he

/-- The next entry of the batch, or the next part of one. -/
lemma unread_next (st : Stage) (e : Entry) (rest : List Entry) :
    (State.nextEntry rest).unread = rest ∧ (State.nextStage st e rest).unread = rest := by
  cases rest <;> cases st <;> exact ⟨rfl, rfl⟩

lemma sublist_unread (st : Stage) (e : Entry) (rest : List Entry) :
    rest.Sublist (Pc.check st e rest).unread := by
  cases st with
  | EVT_READ => exact List.sublist_cons_self e rest
  | EVT_HANGUP | EVT_WRITE | release => exact List.Sublist.refl rest

/-- `esMain` goes on in the batch, or ends it. -/
lemma esMain_unread {s t : State} (hs : s.esMain L = some t) :
    t.pc.unread = [] ∨ t.reg = s.reg ∧ t.pc.unread.Sublist s.pc.unread := by
  unfold State.esMain at hs
  split at hs
  · rename_i e rest hpc
    split at hs <;> cases hs
    · exact .inl rfl
    · rw [hpc]
      dsimp only
      split
      · exact .inl rfl
      · exact .inr ⟨rfl, List.Sublist.refl _⟩
  · rename_i st e rest hpc
    have hsub := sublist_unread st e rest
    rw [hpc]
    split at hs
    · cases hs
      exact .inl rfl
    split at hs
    · cases hs
      refine .inr ⟨rfl, ?_⟩
      rw [(unread_next st e rest).1]
      exact hsub
    split at hs <;> cases hs
    · exact .inr ⟨rfl, hsub⟩
    · refine .inr ⟨rfl, ?_⟩
      rw [(unread_next st e rest).2]
      exact hsub
  · split at hs <;> cases hs <;> exact .inl rfl
  · cases hs

/-- The entry at which `OnEventRead` of a timer is called. -/
lemma called_cases (hc : x.called = some o) :
    ∃ e rest q f, x.proc.loop.pc = .check .EVT_READ e rest ∧
      x.proc.loop.reg.heap e.ptr = some q ∧ q.isReg = true ∧ e.events.EPOLLIN = true ∧
      q.user = .obj o ∧ (x.timers o).timerfd = some f := by
  unfold TimerTask.called at hc
  split at hc
  case h_2 => cases hc
  rename_i e rest hpc
  obtain ⟨hreg, hc⟩ := Option.ite_none_right_eq_some.mp hc
  obtain ⟨q, hq, hc⟩ := Option.bind_eq_some_iff.mp hc
  rw [hq, Option.any_some, Bool.and_eq_true] at hreg
  split at hc
  case h_2 => cases hc
  rename_i o' hu
  obtain ⟨hfd, ho⟩ := Option.ite_none_right_eq_some.mp hc
  obtain rfl := Option.some.inj ho
  obtain ⟨f, hf⟩ := Option.isSome_iff_exists.mp hfd
  exact ⟨e, rest, q, f, hpc, hq, hreg.1, hreg.2, hu, hf⟩

lemma timerfd_readHitCount {f : Timer.Timerfd} (hf : t.timerfd = some f) :
    t.readHitCount.timerfd = some { f with ticks := 0 } := by
  obtain ⟨e, i, n⟩ := f
  by_cases h0 : n = 0
  · simp [Timer.EdTimer.readHitCount, hf, h0]
  · simp [Timer.EdTimer.readHitCount, hf, h0]

lemma eq_of_user (h : ProcInv L p) {a b : Addr} {q q' : Edevt}
    (ha : p.loop.reg.heap a = some q) (hr : q.isReg = true) (hu : q.user = .obj o)
    (hb : p.loop.reg.heap b = some q') (hr' : q'.isReg = true) (hu' : q'.user = .obj o) :
    a = b := by
  have held : ∀ {c : Addr} {w : Edevt}, p.loop.reg.heap c = some w → w.isReg = true →
      w.user = .obj o → (p.loop.objs o).mEvt = some c := by
    intro c w hc hw huser
    rcases h.books.held c w hc hw with hm | ⟨o', ho'⟩
    · obtain ⟨v, hv, -, hv'⟩ := h.books.msg c hm
      rw [hc, Option.some.injEq] at hv
      rw [← hv, huser] at hv'
      cases hv'
    · obtain ⟨v, hv, -, hv'⟩ := h.owned o' c ho'
      rw [hc, Option.some.injEq] at hv
      rw [← hv, huser] at hv'
      cases hv'
      exact ho'
  exact Option.some.inj ((held ha hr hu).symm.trans (held hb hr' hu'))

/-- The step of `esMain` that calls `OnEventRead`. -/
lemma onEventRead (h : TimerInv L ⟨x, log⟩) (hc : x.called = some o)
    (hs : x.proc.step L .esMain = some p) (edm : Option UInt32) (hitCount : Nat) :
    TimerInv L ⟨{ x with proc := p }.write o (x.timers o).readHitCount,
      log ++ [.OnTimer o edm hitCount x.now]⟩ := by
  have hproc := h.proc.step hs
  obtain ⟨e, rest, q, f, hpc, hq, hr, hin, hu, hf⟩ := called_cases hc
  simp only [TaskProc.step, Option.ite_none_right_eq_some, Option.map_eq_some_iff,
    State.step, State.esMain, hpc, hq, hr] at hs
  obtain ⟨-, l, hl, rfl⟩ := hs
  simp only [Events.calls, hin, Bool.true_eq_false, if_false, if_true, Option.some.injEq] at hl
  subst hl
  obtain ⟨a, ha, ht⟩ := h.armed o f hf
  have hdistinct := h.distinct
  rw [hpc] at hdistinct
  have hread : arming o (log ++ [.OnTimer o edm hitCount x.now]) =
      some { a with seen := a.count x.now } := by
    rw [arming_concat, ha]
    exact if_pos rfl
  apply h.write hproc (Stays.refl _) _ _ _
  · intro g hg
    rw [timerfd_readHitCount hf, Option.some.injEq] at hg
    subst hg
    exact ⟨_, hread, ht.read⟩
  · intro e' he' _ q' hq' hr' hu' g _
    have heq := eq_of_user h.proc hq hr hu hq' hr' hu'
    exact absurd (heq ▸ List.mem_map_of_mem he') (List.nodup_cons.mp hdistinct).1
  · rw [hpc]
    exact List.sublist_cons_self e rest
  · intro o' ho
    have hne : TimerEvent.timer (.OnTimer o edm hitCount x.now) ≠ some o' :=
      fun heq => ho (Option.some.inj heq).symm
    rw [arming_concat, rearmed_concat]
    exact ⟨arm_other hne _, arm_other hne _⟩
  · unfold Timer.EdTimer.readHitCount
    split
    · split <;> exact h.spec o
    · exact h.spec o

lemma esMain (h : TimerInv L ⟨x, log⟩) (hs : x.proc.step L .esMain = some p) :
    TimerInv L ⟨{ x with proc := p }, log⟩ := by
  have hproc := h.proc.step hs
  simp only [TaskProc.step, Option.ite_none_right_eq_some, Option.map_eq_some_iff] at hs
  obtain ⟨-, l, hl, rfl⟩ := hs
  rcases esMain_unread hl with hnil | ⟨hreg, hsub⟩
  · exact h.outside hproc hnil
  · exact h.keep hproc (.of_heap (by rw [hreg])) hsub

lemma report_ptr {l : State} {fds : List (Int × Events)} {es : List Entry}
    (hw : Wf L l.reg) (hd : (fds.map Prod.fst).Nodup) (hes : fds.mapM l.report = some es) :
    (es.map Entry.ptr).Nodup ∧
      ∀ e ∈ es, ∃ fd ∈ fds, l.reg.interest fd.1 = some e.ptr ∧ e.events = fd.2 := by
  induction fds generalizing es with
  | nil =>
    cases hes
    exact ⟨List.nodup_nil, fun e he => by cases he⟩
  | cons fd fds ih =>
    simp only [List.mapM_cons, Option.pure_def, Option.bind_eq_bind, Option.bind_eq_some_iff,
      Option.some.injEq] at hes
    obtain ⟨e, he, es', hes', rfl⟩ := hes
    obtain ⟨a, ha, rfl⟩ := Option.map_eq_some_iff.mp he
    rw [List.map_cons, List.nodup_cons] at hd
    obtain ⟨hnodup, hall⟩ := ih hd.2 hes'
    refine ⟨List.nodup_cons.mpr ⟨?_, hnodup⟩, ?_⟩
    · intro hmem
      obtain ⟨e', he', hptr⟩ := List.mem_map.mp hmem
      obtain ⟨fd', hfd', hint, -⟩ := hall e' he'
      rw [hptr] at hint
      obtain ⟨q, hq, -, hfd⟩ := hw.interest _ _ ha
      obtain ⟨q', hq', -, hfd''⟩ := hw.interest _ _ hint
      rw [hq, Option.some.injEq] at hq'
      rw [← hq', hfd] at hfd''
      exact hd.1 (hfd'' ▸ List.mem_map_of_mem hfd')
    · intro e' he'
      rcases List.mem_cons.mp he' with rfl | he'
      · exact ⟨fd, List.mem_cons_self, ha, rfl⟩
      · obtain ⟨fd', hfd', hrest⟩ := hall e' he'
        exact ⟨fd', List.mem_cons_of_mem fd hfd', hrest⟩

/-- A timer in a new batch has expirations to read. -/
lemma epoll_wait {fds : List (Int × Events)} (h : TimerInv L ⟨x, log⟩)
    (ha : x.allowed (.epoll_wait fds) = true) (hs : x.proc.step L (.epoll_wait fds) = some p) :
    TimerInv L ⟨{ x with proc := p }, log ++ [.epoll_wait]⟩ := by
  have hproc := h.proc.step hs
  have hw : Wf L x.proc.loop.reg := h.proc.wf
  simp only [TaskProc.step, State.step, Option.ite_none_right_eq_some,
    Option.map_eq_some_iff] at hs
  obtain ⟨-, l, ⟨-, es, hes, rfl⟩, rfl⟩ := hs
  simp only [TimerTask.allowed, Bool.and_eq_true, decide_eq_true_eq, List.all_eq_true] at ha
  obtain ⟨hnodup, hall⟩ := report_ptr hw ha.1 hes
  have hunread := (unread_next .release ⟨0, 0, ⟨false, false, false, false, false⟩⟩ es).1
  constructor
  case proc => exact hproc
  case spec => exact h.spec
  case armed =>
    intro o f hf
    obtain ⟨a, ha', ht⟩ := h.armed o f hf
    exact ⟨a, (arming_concat o log _).trans ha', ht⟩
  case distinct =>
    rw [hunread]
    exact hnodup
  case entries =>
    intro e he
    rw [hunread] at he
    obtain ⟨fd, -, hint, -⟩ := hall e he
    obtain ⟨q, hq, -⟩ := hw.interest _ _ hint
    exact Option.ne_none_iff_exists'.mpr ⟨q, hq⟩
  case pending =>
    intro e he _ q hq _ o f hu hf
    dsimp only at hq hf
    rw [hunread] at he
    obtain ⟨fd, hfd, hint, -⟩ := hall e he
    have hreports := ha.2 fd hfd
    have hat : x.timerAt fd.1 = some o := by
      simp [TimerTask.timerAt, TimerTask.timerOf, hint, hq, hu, hf]
    rw [TimerTask.reports, hat, Option.all_some, Bool.and_eq_true, Timer.EdTimer.readable,
      hf] at hreports
    exact .inl (by simpa using hreports.1)

lemma setUsec {fd : Int} {a : Addr} {added : Bool} {y : TimerTask} (h : TimerInv L ⟨x, log⟩)
    (hin : x.proc.inHandler = true)
    (hs : x.change (x.proc.loop.setUsec L o fd a added) o t = some y)
    (hmem : t.mTimerSpec.Valid)
    (hfd : t.timerfd = some (Timer.timerfd_settime t.mTimerSpec x.now)) :
    TimerInv L ⟨y, log ++ [.settime o t.mTimerSpec x.now]⟩ := by
  obtain ⟨l, hl, rfl⟩ := Option.map_eq_some_iff.mp hs
  have hk := Kept.setUsec h.proc.wf h.proc.owned h.proc.books hl
  exact h.settime (h.proc.handler hin hk x.proc.mTimerMap) (.setUsec hl) hk.keeps.pc hmem hmem hfd

lemma settime_method (h : TimerInv L ⟨x, log⟩) (hspec : spec.Valid) (hmem : t.mTimerSpec.Valid)
    (hfd : t.timerfd = (x.timers o).timerfd.map (fun _ => Timer.timerfd_settime spec x.now)) :
    TimerInv L ⟨x.write o t, log ++ (x.settime o spec).toList⟩ := by
  unfold TimerTask.settime
  cases hf : (x.timers o).timerfd with
  | none =>
    rw [hf] at hfd
    simp only [Option.isSome_none, Bool.false_eq_true, if_false, Option.toList_none,
      List.append_nil]
    exact h.closed h.proc (.refl _) rfl hmem hfd
  | some f =>
    rw [hf] at hfd
    exact h.settime h.proc (.refl _) rfl hmem hspec hfd

lemma dispose {s? : Option State} {y : TimerTask} (h : TimerInv L ⟨x, log⟩)
    (hin : x.proc.inHandler = true)
    (hk : ∃ l, s? = some l ∧ Kept L x.proc.mEdMsgEvt x.proc.loop l)
    (hstays : ∀ l, s? = some l → Stays x.proc.loop.reg l.reg) (hs : x.change s? o t = some y)
    (hmem : t.mTimerSpec.Valid) (hfd : t.timerfd = none) : TimerInv L ⟨y, log⟩ := by
  obtain ⟨l, rfl, hk⟩ := hk
  cases hs
  exact h.closed (h.proc.handler hin hk x.proc.mTimerMap) (hstays l rfl) hk.keeps.pc hmem hfd

lemma setTimer {id : UInt32} {pt : ObjId} {msec inittime : UInt32} {fd : Int} {a : Addr}
    {added : Bool} {y : TimerTask} (h : TimerInv L ⟨x, log⟩) (hin : x.proc.inHandler = true)
    (hs : x.setTimer L id pt msec inittime fd a added = some y) :
    TimerInv L ⟨y, log ++ [.settime (x.taskTimer id pt).1
      ((x.taskTimer id pt).2.set msec inittime x.now).mTimerSpec x.now]⟩ := by
  obtain ⟨p, hp, rfl⟩ := Option.map_eq_some_iff.mp hs
  have hproc : ProcInv L p :=
    h.proc.step (a := .setTimer id pt fd a added) (by simp only [TaskProc.step, hin, if_true, hp])
  have hloop : ∃ o, x.proc.loop.setUsec L o fd a added = some p.loop := by
    unfold TaskProc.setTimer at hp
    split at hp
    · obtain ⟨l, hl, rfl⟩ := Option.map_eq_some_iff.mp hp
      exact ⟨_, hl⟩
    · obtain ⟨-, hp⟩ := Option.ite_none_right_eq_some.mp hp
      obtain ⟨l, hl, rfl⟩ := Option.map_eq_some_iff.mp hp
      exact ⟨_, hl⟩
  obtain ⟨o, ho⟩ := hloop
  have hk := Kept.setUsec h.proc.wf h.proc.owned h.proc.books ho
  have hvalid : ((x.taskTimer id pt).2.set msec inittime x.now).mTimerSpec.Valid :=
    Timer.EdTimer.valid_setUsec _ (Int.natCast_nonneg _) (Int.natCast_nonneg _) _
  exact h.settime hproc (.setUsec ho) hk.keeps.pc hvalid hvalid rfl

lemma killTimer {id : UInt32} {y : TimerTask} (h : TimerInv L ⟨x, log⟩)
    (hin : x.proc.inHandler = true) (hs : x.killTimer L id = some y) : TimerInv L ⟨y, log⟩ := by
  obtain ⟨p, hp, rfl⟩ := Option.map_eq_some_iff.mp hs
  have hproc : ProcInv L p :=
    h.proc.step (a := .killTimer id) (by simp only [TaskProc.step, hin, if_true, hp])
  unfold TaskProc.killTimer at hp
  cases hl : x.proc.mTimerMap.lookup id with
  | none =>
    rw [hl] at hp
    cases hp
    exact h
  | some pt =>
    rw [hl] at hp
    obtain ⟨l, hl, rfl⟩ := Option.map_eq_some_iff.mp hp
    obtain ⟨l', hl', hk⟩ := Kept.dispose h.proc.wf h.proc.owned h.proc.books pt
    obtain rfl : l' = l := Option.some.inj (hl'.symm.trans hl)
    obtain ⟨u, hu, hd⟩ := Option.bind_eq_some_iff.mp hl
    exact h.closed hproc ((Stays.close hu).trans (.delete hd)) hk.keeps.pc
      ⟨Int.le_refl _, Int.le_refl _⟩ rfl

lemma procStep {a : ProcAction} (h : TimerInv L ⟨x, log⟩) (ha : x.allowed a = true)
    (hs : x.proc.step L a = some p) :
    TimerInv L ⟨{ x with proc := p }, log ++ (x.record (.proc a)).toList⟩ := by
  have hproc := h.proc.step hs
  cases a with
  | epoll_wait fds => exact h.epoll_wait ha hs
  | start a fd added =>
    simp only [TaskProc.step, Option.ite_none_right_eq_some, Option.map_eq_some_iff] at hs
    obtain ⟨-, r, -, rfl⟩ := hs
    simpa [TimerTask.record] using h.outside hproc rfl
  | evtcbReturn =>
    simp only [TaskProc.step, Option.ite_none_right_eq_some, Option.map_eq_some_iff] at hs
    obtain ⟨-, l, hl, rfl⟩ := hs
    simp only [State.step] at hl
    split at hl
    · rename_i st e rest hpc
      cases hl
      have hsub : (State.nextStage st e rest).unread.Sublist x.proc.loop.pc.unread := by
        rw [hpc, (unread_next st e rest).2]
        exact List.Sublist.refl rest
      simpa [TimerTask.record] using h.keep hproc (.refl _) hsub
    · cases hl
  | user act =>
    simp only [TaskProc.step, Option.ite_none_right_eq_some, Option.map_eq_some_iff] at hs
    obtain ⟨-, l, hl, rfl⟩ := hs
    have hk := Kept.op h.proc.wf h.proc.owned h.proc.books hl
    have hsub : l.pc.unread.Sublist x.proc.loop.pc.unread := by
      rw [show l.pc = x.proc.loop.pc from hk.keeps.pc]
    simpa [TimerTask.record] using h.keep hproc (.op hl) hsub
  | exitMsg =>
    simp only [TaskProc.step] at hs
    split at hs
    · simp only [Option.ite_none_right_eq_some, Option.some.injEq] at hs
      obtain ⟨-, rfl⟩ := hs
      simpa [TimerTask.record] using h.keep hproc (.refl _) (List.Sublist.refl _)
    · cases hs
  | leaveLoop =>
    simp only [TaskProc.step, Option.ite_none_right_eq_some, Option.some.injEq] at hs
    obtain ⟨-, rfl⟩ := hs
    simpa [TimerTask.record] using h.keep hproc (.refl _) (List.Sublist.refl _)
  | handlerReturn =>
    simp only [TaskProc.step, Option.ite_none_right_eq_some, Option.some.injEq] at hs
    obtain ⟨-, rfl⟩ := hs
    simpa [TimerTask.record] using h.keep hproc (.refl _) (List.Sublist.refl _)
  | esMain => cases ha
  | setTimer id t fd a added => cases ha
  | killTimer id => cases ha

theorem step {a : TimerAction} {y : TimerTask} (h : TimerInv L ⟨x, log⟩)
    (hs : x.step L a = some y) : TimerInv L ⟨y, log ++ (x.record a).toList⟩ := by
  cases a with
  | tick ns =>
    cases hs
    simpa [TimerTask.record] using h.tick ns
  | proc a =>
    simp only [TimerTask.step, Option.ite_none_right_eq_some, Option.map_eq_some_iff] at hs
    obtain ⟨ha, p, hp, rfl⟩ := hs
    exact h.procStep ha hp
  | esMain =>
    obtain ⟨p, hp, rfl⟩ := Option.map_eq_some_iff.mp hs
    cases hc : x.called with
    | none => simpa [TimerTask.record, hc] using h.esMain hp
    | some o => simpa [TimerTask.record, hc] using h.onEventRead hc hp _ _
  | setUsec o usec first_usec fd a added =>
    simp only [TimerTask.step, Option.ite_none_right_eq_some] at hs
    exact h.setUsec hs.1.1.1 hs.2
      (Timer.EdTimer.valid_setUsec _ (Int.natCast_nonneg _) (Int.natCast_nonneg _) _) rfl
  | set o msec first_msec fd a added =>
    simp only [TimerTask.step, Option.ite_none_right_eq_some] at hs
    exact h.setUsec hs.1.1.1 hs.2
      (Timer.EdTimer.valid_setUsec _ (Int.natCast_nonneg _) (Int.natCast_nonneg _) _) rfl
  | pause o =>
    simp only [TimerTask.step, Option.ite_none_right_eq_some, Option.some.injEq] at hs
    obtain ⟨-, rfl⟩ := hs
    exact h.settime_method ⟨Int.le_refl _, Int.le_refl _⟩ (h.spec o) rfl
  | resume o =>
    simp only [TimerTask.step, Option.ite_none_right_eq_some, Option.some.injEq] at hs
    obtain ⟨-, rfl⟩ := hs
    exact h.settime_method (h.spec o) (h.spec o) rfl
  | reset o =>
    simp only [TimerTask.step, Option.ite_none_right_eq_some, Option.some.injEq] at hs
    obtain ⟨-, rfl⟩ := hs
    exact h.settime_method (h.spec o) (h.spec o) (Option.map_map _ _ _)
  | kill o =>
    simp only [TimerTask.step, Option.ite_none_right_eq_some] at hs
    simpa [TimerTask.record] using h.dispose hs.1.1
      (Kept.close h.proc.wf h.proc.owned h.proc.books o) (fun _ => .close) hs.2 (h.spec o) rfl
  | delete o =>
    simp only [TimerTask.step, Option.ite_none_right_eq_some] at hs
    simpa [TimerTask.record] using h.dispose hs.1.1
      (Kept.delete h.proc.wf h.proc.owned h.proc.books o) (fun _ => .delete) hs.2
      ⟨Int.le_refl _, Int.le_refl _⟩ rfl
  | setTimer id t msec inittime fd a added =>
    simp only [TimerTask.step, Option.ite_none_right_eq_some] at hs
    exact h.setTimer hs.1.1 hs.2
  | killTimer id =>
    simp only [TimerTask.step, Option.ite_none_right_eq_some] at hs
    simpa [TimerTask.record] using h.killTimer hs.1 hs.2

lemma reachable {s : Recorded TimerTask TimerEvent} (h : (timerHistory L).Reachable s) :
    TimerInv L s := by
  apply h.invariant
  · rintro ⟨x, log⟩ ⟨h0, hlog⟩
    dsimp only at h0 hlog
    rw [h0, hlog]
    exact .init x.now
  · intro s a t _ hI _ hs
    obtain ⟨hstep, hlog⟩ := recorded_step hs
    have hI' := TimerInv.step hI hstep
    rw [← hlog] at hI'
    exact hI'

/-- `OnEventRead` calls `OnTimer` for nothing exactly when the timer was set in the batch and
has not expired since. -/
lemma expired_iff (h : TimerInv L ⟨x, log⟩) (hc : x.called = some o) (edm : Option UInt32) :
    Expired log (.OnTimer o edm (x.timers o).readHitCount.mHitCount x.now) ↔
      fresh ⟨x, log⟩ .esMain = true := by
  obtain ⟨e, rest, q, f, hpc, hq, hr, hin, hu, hf⟩ := called_cases hc
  obtain ⟨a, ha, ht⟩ := h.armed o f hf
  have hticks : a.seen + f.ticks = a.count x.now := ht.ticks
  have hpos : 0 < a.count x.now ↔
      a.spec.it_value.ns ≠ 0 ∧ a.start + a.spec.it_value.ns ≤ x.now := by
    rw [Arming.count, Timer.Itimerspec.expirations_pos]
    constructor <;> rintro ⟨hv, hle⟩ <;> exact ⟨hv, by omega⟩
  simp only [Expired, ha, Option.some.injEq, exists_eq_left', fresh, hc, Option.all_some]
  constructor
  · rintro ⟨hcount, -⟩
    apply Option.all_eq_true _ _ |>.mpr
    intro b hb
    obtain rfl : b = a := Option.some.inj ((arming_of_rearmed hb).symm.trans ha)
    exact decide_eq_true (hpos.mp hcount)
  · intro hfresh
    have hne : f.ticks ≠ 0 := by
      rcases h.pending e (by simp [hpc, Pc.unread]) hin q hq hr o f hu hf with hne | ⟨b, hb, hseen⟩
      · exact hne
      · obtain rfl : b = a := Option.some.inj ((arming_of_rearmed hb).symm.trans ha)
        rw [hb, Option.all_some, decide_eq_true_eq, ← hpos] at hfresh
        omega
    have hread : (x.timers o).readHitCount.mHitCount = f.ticks := by
      simp [Timer.EdTimer.readHitCount, hf, hne]
    rw [hread]
    exact ⟨by omega, hticks⟩

lemma expired_record {a : TimerAction} {e : TimerEvent} (h : TimerInv L ⟨x, log⟩)
    (he : x.record a = some e) : Expired log e ↔ fresh ⟨x, log⟩ a = true := by
  have hsettime : ∀ {o spec}, x.settime o spec = some e → Expired log e := by
    intro o spec hs
    obtain ⟨-, hs⟩ := Option.ite_none_right_eq_some.mp hs
    cases hs
    trivial
  cases a with
  | esMain =>
    obtain ⟨o, hc, rfl⟩ := Option.map_eq_some_iff.mp he
    exact h.expired_iff hc _
  | proc a =>
    cases a with
    | epoll_wait fds =>
      cases he
      exact iff_of_true trivial rfl
    | _ => cases he
  | pause o | resume o | reset o => exact iff_of_true (hsettime he) rfl
  | setUsec | set | setTimer =>
    cases he
    exact iff_of_true trivial rfl
  | tick | kill | delete | killTimer => cases he

lemma fresh_of_none {s : Recorded TimerTask TimerEvent} {a : TimerAction}
    (he : s.state.record a = none) : fresh s a = true := by
  cases a with
  | esMain =>
    rw [fresh, Option.map_eq_none_iff.mp he]
    rfl
  | _ => rfl

end TimerInv

/-- In a run whose steps all meet the condition `OnTimer` is only called for timers that have
expired, and the first step that does not meet it calls it for one that has not. -/
theorem onTimer_expired (L : Layout) {s : Recorded TimerTask TimerEvent}
    (h : (timerHistory L).Reaches (fun s a => fresh s a = true) s) :
    Always Expired s.log ∧ ∀ a t, (timerHistory L).step s a = some t →
      (Always Expired t.log ↔ fresh s a = true) := by
  have hlog : Always Expired s.log :=
    recorded_always (fun s a t e hr ha _ he =>
      ((TimerInv.reachable hr.reachable).expired_record he).mpr ha) h
  refine ⟨hlog, fun a t hs => ?_⟩
  obtain ⟨-, ht⟩ := recorded_step hs
  rw [ht]
  cases he : s.state.record a with
  | none =>
    simp only [Option.toList_none, List.append_nil, hlog, true_iff]
    exact TimerInv.fresh_of_none he
  | some e =>
    rw [Option.toList_some, always_concat, and_iff_right hlog]
    exact (TimerInv.reachable h.reachable).expired_record he

/-- `EPOLLIN`. -/
def readEvent : Events := ⟨true, false, false, false, false⟩

/-- Two timers of 1 ms, and the batch that reports both of them. The callback of the first one
does `call` before the rest of the batch. -/
def twoTimersRun (call : List TimerAction) : List TimerAction :=
  .proc (.start 10 3 true) :: .proc (.epoll_wait [(3, readEvent)]) :: .esMain :: .esMain ::
    .set 0 1 0 5 20 true :: .set 1 1 0 6 21 true :: .proc .evtcbReturn :: .esMain :: .esMain ::
    .esMain :: .esMain :: .tick 1000000 ::
    .proc (.epoll_wait [(5, readEvent), (6, readEvent)]) :: .esMain :: .esMain :: call

/-- The rest of that batch. -/
def secondEntry : List TimerAction :=
  [.proc .evtcbReturn, .esMain, .esMain, .esMain, .esMain, .esMain]

def oneMs : Timer.Itimerspec := ⟨⟨0, 1000000⟩, ⟨0, 1000000⟩⟩

/-- The second timer is set again to 1 µs, which is over before its entry comes. -/
theorem onTimer_expired_twoTimersRun :
    ∃ s, (timerHistory sampleLayout).Reaches (fun s a => fresh s a = true) s ∧
      s.log.getLast? = some (.OnTimer 1 none 1 1001000) ∧ Always Expired s.log := by
  obtain ⟨s, hr, hs⟩ := System.exists_of_exec_restrict (M := timerHistory sampleLayout)
    (T := fresh) (s := ⟨.init 0, []⟩) (f := fun s => s.log.getLast?) ⟨rfl, rfl⟩
    (l := twoTimersRun (.setUsec 1 1 0 7 22 true :: .tick 1000 :: secondEntry))
    (b := some (.OnTimer 1 none 1 1001000)) rfl
  exact ⟨s, hr, hs, (onTimer_expired sampleLayout hr).1⟩

/-- The callback of the first timer pauses the second. -/
theorem not_onTimer_expired :
    ¬ ∀ s, (timerHistory sampleLayout).Reachable s → Always Expired s.log := by
  intro h
  obtain ⟨s, hr, hs⟩ := System.exists_of_exec (M := timerHistory sampleLayout)
    (s := ⟨.init 0, []⟩) (f := Recorded.log) ⟨rfl, rfl⟩
    (l := twoTimersRun (.pause 1 :: secondEntry))
    (b := [.epoll_wait, .settime 0 oneMs 0, .settime 1 oneMs 0, .epoll_wait,
      .OnTimer 0 none 1 1000000, .settime 1 ⟨⟨0, 0⟩, ⟨0, 0⟩⟩ 1000000,
      .OnTimer 1 none 0 1000000]) rfl
  have hlast := h s hr
  rw [hs] at hlast
  obtain ⟨a, ha, hpos, -⟩ := hlast [.epoll_wait, .settime 0 oneMs 0, .settime 1 oneMs 0,
    .epoll_wait, .OnTimer 0 none 1 1000000, .settime 1 ⟨⟨0, 0⟩, ⟨0, 0⟩⟩ 1000000]
    (.OnTimer 1 none 0 1000000) [] rfl
  cases ha
  exact absurd hpos (by decide)

end EdNio.Event
