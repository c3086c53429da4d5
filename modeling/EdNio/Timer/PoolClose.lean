import EdNio.Timer.History

/-!
# Closing a timer pool

`close()` and a further `open()` as calls of the user, between passes or from a listener.
After `close()` a pass goes on with what is left of it.
-/

namespace EdNio.Timer
open MachineInt Transition

namespace EdTimerPool

variable (s : EdTimerPool)

/-- `kill` deregisters the event of the main timer, so an entry of it in the batch is void. -/
def close : EdTimerPool :=
  { s with mainTimer := s.mainTimer.kill, timerMap := [], reported := false }

/-- `open()`. -/
def reopen : EdTimerPool :=
  { s with nearTp := timePointMax }

end EdTimerPool

inductive CloseAction
  | reopen
  | close
  | pool (a : Action)
deriving DecidableEq, Repr

def closeStep (s : EdTimerPool) : CloseAction → Option EdTimerPool
  | .reopen => if userRuns s.pc then some s.reopen else none
  | .close => if userRuns s.pc then some s.close else none
  | .pool a => step s a

inductive CloseEvent
  | reopen
  | close
  | set
  | pass
  | called
  | passEnd
deriving DecidableEq, Repr

def closeEvent (s : EdTimerPool) : CloseAction → Option CloseEvent
  | .reopen => some .reopen
  | .close => some .close
  | .pool (.setTimerUs _ _ _ _) => some .set
  | .pool (.scheduleTimer _) => if s.timerMap.length = 0 then none else some .pass
  | .pool .callListener => some .called
  | .pool .rearm => some .passEnd
  | .pool _ => none

def closeHistory : System (Recorded EdTimerPool CloseEvent) CloseAction :=
  ({ init := timerPool.init, step := closeStep } : System EdTimerPool CloseAction).recorded
    closeEvent

/-- In use until `close()`, then closed until `open()`, then open until `setTimerUs`. -/
inductive Use
  | inUse
  | closed
  | opened
deriving DecidableEq, Repr

/-- `returned` says that the call of `close()` has returned, and the pass that it came from. -/
structure Phase where
  inPass : Bool
  use : Use
  returned : Bool
deriving DecidableEq, Repr

def Phase.next (p : Phase) : CloseEvent → Phase
  | .reopen => { p with use := if p.use = .closed then .opened else p.use }
  | .close => { p with use := .closed, returned := !p.inPass }
  | .set => { p with use := if p.use = .opened then .inUse else p.use }
  | .pass => { p with inPass := true }
  | .called => p
  | .passEnd => { p with inPass := false, returned := true }

def phase (log : List CloseEvent) : Phase :=
  log.foldl Phase.next ⟨false, .inUse, true⟩

/-- From the return of `close()` until `open()` and `setTimerUs` have been called. -/
def Phase.final (p : Phase) : Bool :=
  p.use ≠ .inUse && p.returned

/-- No pass visits the map of a closed pool, and no listener is called. -/
def Quiet (before : List CloseEvent) (e : CloseEvent) : Prop :=
  e = .pass ∨ e = .called → (phase before).final = false

/-- A closed pool has no descriptor, and was quiet. -/
structure ClosedFinal (s : Recorded EdTimerPool CloseEvent) : Prop where
  descriptor : (phase s.log).final = true → s.state.mainTimer.timerfd = none
  quiet : Always Quiet s.log

/-- A pass does not end with the pool closed by one of its listeners, and `setTimerUs` does not
arm the main timer between `close()` and `open()`. -/
def reopens (s : Recorded EdTimerPool CloseEvent) : CloseAction → Bool
  | .pool .rearm => (phase s.log).use = .inUse
  | .pool (.setTimerUs _ firstus _ _) =>
    !(phase s.log).final || (phase s.log).use = .opened ||
      !decide (plusUs s.state.now firstus < s.state.nearTp)
  | _ => true

lemma phase_concat (log : List CloseEvent) (e : CloseEvent) :
    phase (log ++ [e]) = (phase log).next e := by
  simp [phase]

/-- The log knows whether a pass is going on, and a closed pool is outside of any. -/
structure CloseInv (s : EdTimerPool) (p : Phase) : Prop where
  inPass : p.inPass = decide (s.pc ≠ .idle)
  outside : p.final = true → s.pc = .idle ∧ s.reported = false ∧ s.mainTimer.timerfd = none

namespace CloseInv

variable {s t : EdTimerPool} {p : Phase}

/-- A step outside of any pass, or one inside it, that records no event. -/
lemma frame (h : CloseInv s p) (hpc : t.pc = .idle ↔ s.pc = .idle)
    (ht : s.pc = .idle → s.reported = false → s.mainTimer.timerfd = none →
      t.reported = false ∧ t.mainTimer.timerfd = none) : CloseInv t p := by
  refine ⟨?_, fun hf => ?_⟩
  · rw [h.inPass, decide_eq_decide, ne_eq, ne_eq, hpc]
  · obtain ⟨hidle, hrep, hfd⟩ := h.outside hf
    exact ⟨hpc.mpr hidle, ht hidle hrep hfd⟩

lemma reopen (h : CloseInv s p) : CloseInv s.reopen (p.next .reopen) := by
  refine ⟨h.inPass, fun hf => h.outside ?_⟩
  revert hf
  cases huse : p.use <;> simp [Phase.next, Phase.final, huse]

lemma close (h : CloseInv s p) : CloseInv s.close (p.next .close) := by
  refine ⟨h.inPass, fun hf => ?_⟩
  have hin : p.inPass = false := by simpa [Phase.next, Phase.final] using hf
  rw [h.inPass, decide_eq_false_iff_not, not_not] at hin
  exact ⟨hin, rfl, rfl⟩

lemma setTimerUs (h : CloseInv s p) (handle : UInt32) (firstus periodus : UInt64) (lis : Nat)
    (hok : p.final = true → p.use = .opened ∨ ¬ plusUs s.now firstus < s.nearTp) :
    CloseInv (s.setTimerUs handle firstus periodus lis).2 (p.next .set) := by
  have hpc := (s.setTimerUs_eq handle firstus periodus lis).2.2.2.1
  obtain ⟨-, hmain, hrep⟩ := s.setTimerUs_main handle firstus periodus lis
  refine ⟨by rw [hpc]; exact h.inPass, fun hf => ?_⟩
  have hclosed : p.final = true ∧ p.use ≠ .opened := by
    revert hf
    cases huse : p.use <;> simp [Phase.next, Phase.final, huse]
  have hle := (hok hclosed.1).resolve_left hclosed.2
  rw [hpc, hrep, hmain, if_neg hle]
  exact h.outside hclosed.1

lemma scheduleTimer {order : List Node} (h : CloseInv s p) (hrep : s.reported = true)
    (hs : s.scheduleTimer order = some t) :
    CloseInv t (if s.timerMap.length = 0 then p else p.next .pass) := by
  have hopen : ¬ p.final = true := by
    intro hf
    rw [(h.outside hf).2.1] at hrep
    cases hrep
  unfold EdTimerPool.scheduleTimer at hs
  dsimp only at hs
  split at hs <;> rename_i hlen
  · cases hs
    rw [if_pos hlen]
    exact ⟨h.inPass, fun hf => absurd hf hopen⟩
  · obtain ⟨q, -, rfl⟩ := Option.map_eq_some_iff.mp hs
    rw [if_neg hlen]
    exact ⟨rfl, fun hf => absurd hf hopen⟩

lemma rearm (huse : p.use = .inUse) : CloseInv s.rearm (p.next .passEnd) := by
  refine ⟨rfl, fun hf => ?_⟩
  simp [Phase.next, Phase.final, huse] at hf

end CloseInv

variable {s t : Recorded EdTimerPool CloseEvent} {a : CloseAction}

lemma step_closeInv (h : CloseInv s.state (phase s.log)) (hok : reopens s a = true)
    (hs : closeHistory.step s a = some t) : CloseInv t.state (phase t.log) := by
  obtain ⟨hstep, hlog⟩ := recorded_step hs
  rw [hlog]
  cases a with
  | reopen =>
    simp only [closeStep, Option.ite_none_right_eq_some, Option.some.injEq] at hstep
    simp only [closeEvent, Option.toList_some, phase_concat, ← hstep.2]
    exact h.reopen
  | close =>
    simp only [closeStep, Option.ite_none_right_eq_some, Option.some.injEq] at hstep
    simp only [closeEvent, Option.toList_some, phase_concat, ← hstep.2]
    exact h.close
  | pool a =>
    simp only [closeStep] at hstep
    cases a with
    | setTimerUs handle firstus periodus lis =>
      simp only [step, Option.ite_none_right_eq_some, Option.some.injEq] at hstep
      simp only [closeEvent, Option.toList_some, phase_concat, ← hstep.2]
      apply h.setTimerUs
      intro hf
      simpa [reopens, hf] using hok
    | scheduleTimer order =>
      simp only [step, Option.ite_none_right_eq_some] at hstep
      obtain ⟨⟨-, hrep, -⟩, hstep⟩ := hstep
      have hI := h.scheduleTimer hrep hstep
      simp only [closeEvent]
      split at hI <;> rename_i hlen
      · simpa [hlen] using hI
      · simpa [hlen, phase_concat] using hI
    | rearm =>
      simp only [step, Option.ite_none_right_eq_some, Option.some.injEq] at hstep
      simp only [closeEvent, Option.toList_some, phase_concat, ← hstep.2]
      exact .rearm (of_decide_eq_true hok)
    | tick ns =>
      simp only [step, Option.ite_none_right_eq_some, Option.some.injEq] at hstep
      simp only [closeEvent, Option.toList_none, List.append_nil, ← hstep.2]
      refine h.frame Iff.rfl fun _ hrep hfd => ⟨hrep, ?_⟩
      rw [EdTimer.advance, hfd]
      rfl
    | killTimer id =>
      simp only [step, Option.ite_none_right_eq_some, Option.some.injEq] at hstep
      simp only [closeEvent, Option.toList_none, List.append_nil, ← hstep.2]
      exact h.frame Iff.rfl fun _ hrep hfd => ⟨hrep, hfd⟩
    | epoll_wait =>
      simp only [step, Option.ite_none_right_eq_some, Option.some.injEq] at hstep
      obtain ⟨⟨-, hread⟩, hstep⟩ := hstep
      simp only [closeEvent, Option.toList_none, List.append_nil, ← hstep]
      refine h.frame Iff.rfl fun _ _ hfd => ?_
      rw [EdTimer.readable, hfd] at hread
      cases hread
    | callListener =>
      simp only [step] at hstep
      split at hstep
      · rename_i hpc
        simp only [closeEvent, Option.toList_some, phase_concat, ← Option.some.inj hstep]
        exact h.frame (by simp [hpc]) fun hidle => by simp [hpc] at hidle
      · cases hstep
    | listenerReturn =>
      simp only [step] at hstep
      split at hstep
      · rename_i hpc
        simp only [closeEvent, Option.toList_none, List.append_nil, ← Option.some.inj hstep]
        exact h.frame (by simp [hpc]) fun hidle => by simp [hpc] at hidle
      · cases hstep

lemma quiet_event (h : CloseInv s.state (phase s.log)) (hs : closeStep s.state a = some t.state)
    {e : CloseEvent} (he : closeEvent s.state a = some e) : Quiet s.log e := by
  intro hpass
  by_contra hne
  obtain ⟨hidle, hrep, -⟩ := h.outside (Bool.not_eq_false _ ▸ hne)
  cases a with
  | reopen | close =>
    cases he
    simp at hpass
  | pool a =>
    cases a with
    | scheduleTimer order =>
      simp [closeStep, step, hrep] at hs
    | callListener =>
      simp [closeStep, step, hidle] at hs
    | setTimerUs | rearm =>
      cases he
      simp at hpass
    | tick | killTimer | epoll_wait | listenerReturn => cases he

lemma step_quiet (h : CloseInv s.state (phase s.log)) (hq : Always Quiet s.log)
    (hs : closeHistory.step s a = some t) : Always Quiet t.log := by
  obtain ⟨hstep, hlog⟩ := recorded_step hs
  rw [hlog]
  cases he : closeEvent s.state a with
  | none => simpa using hq
  | some e => exact always_concat.mpr ⟨hq, quiet_event h hstep he⟩

/-- A step that does not meet the condition leaves a closed pool with a descriptor. -/
lemma not_closedFinal (hok : ¬ reopens s a = true) (hs : closeHistory.step s a = some t) :
    ¬ ClosedFinal t := by
  obtain ⟨hstep, hlog⟩ := recorded_step hs
  intro hfinal
  have hfd := hfinal.descriptor
  rw [hlog] at hfd
  cases a with
  | reopen | close => exact absurd rfl hok
  | pool a =>
    simp only [closeStep] at hstep
    cases a with
    | setTimerUs handle firstus periodus lis =>
      simp only [step, Option.ite_none_right_eq_some, Option.some.injEq] at hstep
      simp only [reopens, Bool.not_eq_true, Bool.or_eq_false_iff, Bool.not_eq_false',
        decide_eq_false_iff_not, decide_eq_true_iff] at hok
      obtain ⟨⟨hf, hopened⟩, hlt⟩ := hok
      obtain ⟨-, hmain, -⟩ := s.state.setTimerUs_main handle firstus periodus lis
      rw [if_pos hlt] at hmain
      simp only [closeEvent, Option.toList_some, phase_concat, ← hstep.2, hmain] at hfd
      have hf' : ((phase s.log).next .set).final = true := by
        simpa [Phase.next, hopened] using hf
      cases hfd hf'
    | rearm =>
      simp only [step, Option.ite_none_right_eq_some, Option.some.injEq] at hstep
      simp only [reopens, decide_eq_true_iff] at hok
      simp only [closeEvent, Option.toList_some, phase_concat, ← hstep.2] at hfd
      have hf' : ((phase s.log).next .passEnd).final = true := by
        simp [Phase.next, Phase.final, hok]
      cases hfd hf'
    | _ => exact absurd rfl hok

/-- A run whose steps all meet the condition, and the first step that does not. -/
theorem pool_close_final (h : closeHistory.Reaches (fun s a => reopens s a = true) s) :
    ClosedFinal s ∧ ∀ a t, closeHistory.step s a = some t →
      (ClosedFinal t ↔ reopens s a = true) := by
  apply h.exact (I := fun s => CloseInv s.state (phase s.log) ∧ Always Quiet s.log)
  · rintro s ⟨⟨h0, -⟩, hlog⟩
    rw [hlog, h0]
    exact ⟨⟨rfl, fun hf => by cases hf⟩, .nil⟩
  · intro s a t hI hok hs
    exact ⟨step_closeInv hI.1 hok hs, step_quiet hI.1 hI.2 hs⟩
  · intro s hI
    exact ⟨fun hf => (hI.1.outside hf).2.2, hI.2⟩
  · intro s a t _ hok hs
    exact not_closedFinal hok hs

/-- A timer fires, and its listener makes the `calls`. -/
def listenerRun (calls : List CloseAction) : List CloseAction :=
  [.pool (.setTimerUs 1 10 100 7), .pool (.tick 20000), .pool .epoll_wait,
    .pool (.scheduleTimer [⟨0, ⟨1, 10000, 100, 7⟩⟩]), .pool .callListener] ++ calls ++
  [.pool .listenerReturn, .pool .rearm]

/-- A listener closes the pool and starts it again, and the pool is closed after the pass. -/
theorem pool_close_final_listenerRun : ∃ s,
    closeHistory.Reaches (fun s a => reopens s a = true) s ∧ (phase s.log).final = true ∧
      s.state.mainTimer.timerfd = none := by
  obtain ⟨s, hr, hs⟩ := System.exists_of_exec_restrict (M := closeHistory) (T := reopens)
    (s := ⟨.opened 0, []⟩) (f := fun s => (phase s.log).final) (b := true)
    ⟨⟨rfl, by decide, by decide⟩, rfl⟩
    (l := listenerRun [.close, .reopen, .pool (.setTimerUs 2 50 50 8)] ++ [.close])
    (by decide +kernel)
  exact ⟨s, hr, hs, (pool_close_final hr).1.descriptor hs⟩

/-- A listener closes the pool, and the end of the pass opens a new descriptor. -/
theorem not_pool_close_final : ¬ ∀ s, closeHistory.Reachable s → ClosedFinal s := by
  intro h
  obtain ⟨s, hr, hs⟩ := System.exists_of_exec (M := closeHistory) (s := ⟨.opened 0, []⟩)
    (f := fun s => ((phase s.log).final, s.state.mainTimer.timerfd.isNone)) (b := (true, false))
    ⟨⟨rfl, by decide, by decide⟩, rfl⟩ (l := listenerRun [.close]) (by decide +kernel)
  simp only [Prod.mk.injEq] at hs
  rw [(h s hr).descriptor hs.1] at hs
  cases hs.2

end EdNio.Timer
