import EdNio.Event.BatchSafety
import EdNio.Library.Simulation

/-!
# What a batch brings to each of its entries

When `esMain` has gone through the array of `epoll_wait`, each entry has had the calls of
`evtcb` that its events ask for, in the order of the body of the loop and once each, unless
a callback of the batch has deregistered its event. What the other callbacks do to their
own events takes nothing away.
-/

namespace EdNio.Event
open Transition

/-- The calls that the events of an entry ask for before `esMain` comes to `st`. -/
def Events.before (ev : Events) : Stage → List Stage
  | .EVT_READ => []
  | .EVT_HANGUP => [.EVT_READ].filter ev.calls
  | .EVT_WRITE => [.EVT_READ, .EVT_HANGUP].filter ev.calls
  | .release => [.EVT_READ, .EVT_HANGUP, .EVT_WRITE].filter ev.calls

/-- All the calls that the events of an entry ask for. -/
def Events.stages (ev : Events) : List Stage :=
  ev.before .release

lemma Events.before_next {st st' : Stage} (ev : Events) (h : st.next = some st') :
    ev.before st' = ev.before st ++ [st].filter ev.calls := by
  cases st <;> cases h <;> simp [before, List.filter_cons] <;> grind

lemma Events.before_le (ev : Events) (st : Stage) : ev.before st <+: ev.stages := by
  have hnext : ∀ st st' : Stage, st.next = some st' → ev.before st <+: ev.before st' := by
    intro st st' h
    rw [ev.before_next h]
    exact List.prefix_append _ _
  have hw := hnext .EVT_WRITE .release rfl
  have hh := (hnext .EVT_HANGUP .EVT_WRITE rfl).trans hw
  cases st with
  | EVT_READ => exact (hnext .EVT_READ .EVT_HANGUP rfl).trans hh
  | EVT_HANGUP => exact hh
  | EVT_WRITE => exact hw
  | release => exact List.prefix_rfl

def Entry.called (e : Entry) (l : List Stage) : List Call :=
  l.map (fun st => ⟨e.birth, st, false⟩)

/-- What the batch `n` has brought to an entry: all that its events ask for, or the first of
it up to the deregistration of the event. -/
def Entry.Served (r : Registry) (n : Nat) (e : Entry) (calls : List Call) : Prop :=
  ∃ l, calls = e.called l ∧ l <+: e.events.stages ∧
    (l = e.events.stages ∨ (e.birth, n) ∈ r.deregistered)

lemma Registry.deregEdEvent_deregistered {L : Layout} {r t : Registry} {a : Addr}
    (h : r.deregEdEvent L a = some t) : r.deregistered ⊆ t.deregistered := by
  obtain ⟨e, -, h⟩ := Option.bind_eq_some_iff.mp h
  obtain ⟨u, hu, h⟩ := Option.bind_eq_some_iff.mp h
  obtain ⟨p, -, hp⟩ := Option.map_eq_some_iff.mp hu
  obtain ⟨q, -, hq⟩ := Option.map_eq_some_iff.mp h
  have hu' : u.deregistered = r.deregistered ++ [(e.birth, r.batch)] := by
    rw [← hp]
    split <;> rfl
  have ht : t.deregistered = u.deregistered := by
    rw [← hq]
    split <;> rfl
  rw [ht, hu']
  exact List.subset_append_left _ _

/-- The records of deregistrations stay. -/
def Grows (s t : State) : Prop :=
  s.reg.deregistered ⊆ t.reg.deregistered

namespace Grows

variable {L : Layout} {s t : State} {o : ObjId} {a : Addr}

lemma deregisterEvent (h : s.deregisterEvent L o = some t) : Grows s t := by
  unfold State.deregisterEvent at h
  simp only at h
  split at h
  · cases h
    exact List.Subset.refl _
  split at h
  · obtain ⟨r, hr, rfl⟩ := Option.map_eq_some_iff.mp h
    exact Registry.deregEdEvent_deregistered hr
  · cases h
    exact List.Subset.refl _

lemma registerEvent {added : Bool} (h : s.registerEvent L o a added = some t)
    (ha : s.reg.heap a = none) : Grows s t := by
  unfold State.registerEvent at h
  simp only at h
  split at h
  · cases h
    exact List.Subset.refl _
  split at h
  · obtain ⟨x, hx, rfl⟩ := Option.map_eq_some_iff.mp h
    cases added with
    | false =>
      rw [Registry.regEdEvent_refused ha, Option.some.injEq] at hx
      subst hx
      exact List.Subset.refl _
    | true =>
      rw [Registry.regEdEvent_added, Option.some.injEq] at hx
      subst hx
      exact List.Subset.refl _
  · cases h
    exact List.Subset.refl _

lemma changeEvent {added : Bool} (h : s.changeEvent L o a added = some t)
    (ha : s.reg.heap a = none) : Grows s t := by
  unfold State.changeEvent at h
  split at h
  · obtain ⟨r, hr, rfl⟩ := Option.map_eq_some_iff.mp h
    obtain ⟨e, -, rfl⟩ := Option.map_eq_some_iff.mp hr
    unfold Grows
    dsimp only
    split <;> exact List.Subset.refl _
  · exact registerEvent h ha

lemma close (h : s.close L o = some t) : Grows s t := by
  unfold State.close at h
  simp only at h
  split at h
  · obtain ⟨u, hu, rfl⟩ := Option.map_eq_some_iff.mp h
    have hgrows : Grows s u := deregisterEvent hu
    exact hgrows
  · cases h
    exact List.Subset.refl _

lemma destroy (h : s.destroy L o = some t) : Grows s t := by
  unfold State.destroy at h
  obtain ⟨u, hu, rfl⟩ := Option.map_eq_some_iff.mp h
  have hgrows : Grows s u := by
    split at hu
    · exact deregisterEvent hu
    · cases hu
      exact List.Subset.refl _
  exact hgrows

end Grows

/-- The batch `n` of the entries `es`, in which `base` was called before: the entries before
`left` have been served, and `now` was called for the first one of `left`. -/
def Reached (n : Nat) (es : List Entry) (base : List Call) (s : State) (left : List Entry)
    (now : List Call) : Prop :=
  ∃ past served, es = past ++ left ∧ s.calls = base ++ List.flatten served ++ now ∧
    List.Forall₂ (Entry.Served s.reg n) past served

/-- Where `esMain` stands in the array and in the body of its loop. -/
def Standing (n : Nat) (es : List Entry) (base : List Call) (s : State) : Pc → Prop
  | .entry e rest => Reached n es base s (e :: rest) []
  | .check st e rest => Reached n es base s (e :: rest) (e.called (e.events.before st))
  | .evtcb st e rest =>
    e.events.calls st = true ∧
      Reached n es base s (e :: rest) (e.called (e.events.before st ++ [st]))
  | .cleanUp => Reached n es base s [] []
  | _ => False

section Standing

variable {L : Layout} {n : Nat} {es : List Entry} {base : List Call} {s t : State} {e : Entry}
  {rest : List Entry} {st : Stage}

lemma Reached.congr {left : List Entry} {now : List Call} (h : Reached n es base s left now)
    (hcalls : t.calls = s.calls) (hg : Grows s t) : Reached n es base t left now := by
  obtain ⟨past, served, hes, hc, hs⟩ := h
  refine ⟨past, served, hes, hcalls.trans hc, hs.imp ?_⟩
  rintro e calls ⟨l, hl, hp, hfull⟩
  exact ⟨l, hl, hp, hfull.imp_right (fun hin => hg hin)⟩

lemma Standing.congr {p : Pc} (h : Standing n es base s p) (hcalls : t.calls = s.calls)
    (hg : Grows s t) : Standing n es base t p := by
  cases p with
  | start | epoll_wait | fault => exact h
  | entry | check | cleanUp => exact Reached.congr h hcalls hg
  | evtcb => exact ⟨h.1, h.2.congr hcalls hg⟩

/-- `esMain` leaves an entry that has been served. -/
lemma Reached.leave {now : List Call} (h : Reached n es base s (e :: rest) now)
    (hs : e.Served s.reg n now) : Standing n es base s (State.nextEntry rest) := by
  obtain ⟨past, served, hes, hc, hp⟩ := h
  have hreached : Reached n es base s rest [] := by
    refine ⟨past ++ [e], served ++ [now], ?_, ?_, ?_⟩
    · simp [hes]
    · simp [hc]
    · exact List.rel_append hp (.cons hs .nil)
  cases rest <;> exact hreached

/-- The stage `st` is over. -/
lemma Reached.next
    (h : Reached n es base s (e :: rest)
      (e.called (e.events.before st ++ [st].filter e.events.calls))) :
    Standing n es base s (State.nextStage st e rest) := by
  unfold State.nextStage
  split
  · rename_i st' hst
    rw [← e.events.before_next hst] at h
    exact h
  · rename_i hst
    have hst' : st = .release := by
      cases st <;> simp_all [Stage.next]
    subst hst'
    have hnone : [Stage.release].filter e.events.calls = [] := rfl
    rw [hnone, List.append_nil] at h
    exact h.leave ⟨_, rfl, List.prefix_rfl, .inl rfl⟩

lemma Standing.esMain (hI : Inv L s) (hn : s.reg.batch = n) (h : Standing n es base s s.pc)
    (hclean : s.pc ≠ .cleanUp) (hs : s.esMain L = some t) :
    t.reg = s.reg ∧ Standing n es base t t.pc := by
  unfold State.esMain at hs
  split at hs
  · rename_i e rest hpc
    obtain ⟨p, hp, -⟩ := hI.entries e (by simp [hpc, Pc.entries])
    have hfd : p.fd ≠ 0 := Int.ne_of_gt (hI.wf.fd _ p hp)
    simp only [hp, hfd, if_false, Option.some.injEq] at hs
    subst hs
    rw [hpc] at h
    exact ⟨rfl, h.congr rfl (List.Subset.refl _)⟩
  · rename_i st e rest hpc
    obtain ⟨p, hp, hbirth⟩ := hI.entries e (by simp [hpc, Pc.entries])
    rw [hpc] at h
    simp only [hp] at hs
    split at hs
    · rename_i hreg
      cases hs
      -- the event waits for the clean-up of this batch
      have hdereg := ((hI.wf.live _ p hp n).2).mpr ⟨hreg, hn.symm⟩
      rw [hbirth] at hdereg
      refine ⟨rfl, Standing.congr (s := s) ?_ rfl (List.Subset.refl _)⟩
      exact Reached.leave h ⟨_, rfl, e.events.before_le st, .inr hdereg⟩
    split at hs
    · rename_i hreg hcalls
      cases hs
      refine ⟨rfl, hcalls, ?_⟩
      obtain ⟨past, served, hes, hc, hserved⟩ := h
      refine ⟨past, served, hes, ?_, hserved⟩
      have hcall : Call.mk p.birth st (s.reg.deregistered.any (fun x => x.1 = p.birth)) =
          ⟨e.birth, st, false⟩ := by
        rw [hI.not_deregistered hp (by simpa using hreg), hbirth]
      rw [hcall, hc]
      simp [Entry.called]
    · rename_i hcalls
      cases hs
      refine ⟨rfl, Standing.congr (s := s) ?_ rfl (List.Subset.refl _)⟩
      apply Reached.next
      simpa [hcalls, Standing] using h
  · exact absurd ‹_› hclean
  · simp at hs

/-- An operation of a callback. -/
lemma Standing.user {s? : Option State} (h : Standing n es base s s.pc)
    (hk : ∃ u, s? = some u ∧ Keeps L s u ∧ Grows s u) (hs : s.user s? = some t) :
    t.reg.batch = s.reg.batch ∧ Standing n es base t t.pc := by
  obtain ⟨u, rfl, hk, hg⟩ := hk
  unfold State.user at hs
  split at hs
  · cases hs
    have hu : Standing n es base u u.pc := by
      rw [hk.pc]
      exact h.congr hk.calls hg
    exact ⟨hk.batch, hu⟩
  · simp at hs

lemma Standing.step {a : Action} (hI : Inv L s) (hn : s.reg.batch = n)
    (h : Standing n es base s s.pc) (hclean : s.pc ≠ .cleanUp) (hs : s.step L a = some t) :
    t.reg.batch = n ∧ Standing n es base t t.pc := by
  subst hn
  cases a with
  | start b fd added =>
    simp only [State.step, Option.ite_none_right_eq_some] at hs
    simp [hs.1.1, Standing] at h
  | epoll_wait fds =>
    simp only [State.step, Option.ite_none_right_eq_some] at hs
    simp [hs.1, Standing] at h
  | esMain =>
    obtain ⟨hr, ht⟩ := h.esMain hI rfl hclean hs
    exact ⟨congrArg Registry.batch hr, ht⟩
  | evtcbReturn =>
    simp only [State.step] at hs
    split at hs
    · rename_i st e rest hpc
      cases hs
      rw [hpc] at h
      refine ⟨rfl, Standing.congr (s := s) ?_ rfl (List.Subset.refl _)⟩
      apply Reached.next
      simpa [h.1] using h.2
    · simp at hs
  | setFd o fd =>
    simp only [State.step, Option.ite_none_right_eq_some] at hs
    have hk : Keeps L s (s.setFd o fd) :=
      (Keeps.refl hI.wf hI.owned).setObj (fun _ hb => hb)
    exact h.user ⟨s.setFd o fd, rfl, hk, List.Subset.refl _⟩ hs.2
  | registerEvent o b added =>
    simp only [State.step, Option.ite_none_right_eq_some] at hs
    obtain ⟨u, hu, hk⟩ := Keeps.registerEvent hI.wf hI.owned hs.1.2
    exact h.user ⟨u, hu, hk, Grows.registerEvent hu hs.1.2.1⟩ hs.2
  | changeEvent o b added =>
    simp only [State.step, Option.ite_none_right_eq_some] at hs
    obtain ⟨u, hu, hk⟩ := Keeps.changeEvent hI.wf hI.owned hs.1.2
    exact h.user ⟨u, hu, hk, Grows.changeEvent hu hs.1.2.1⟩ hs.2
  | deregisterEvent o =>
    obtain ⟨u, hu, hk⟩ := Keeps.deregisterEvent hI.wf hI.owned o
    exact h.user ⟨u, hu, hk, Grows.deregisterEvent hu⟩ hs
  | close o =>
    obtain ⟨u, hu, hk⟩ := Keeps.close hI.wf hI.owned o
    exact h.user ⟨u, hu, hk, Grows.close hu⟩ hs
  | destroy o =>
    obtain ⟨u, hu, hk⟩ := Keeps.destroy hI.wf hI.owned o
    exact h.user ⟨u, hu, hk, Grows.destroy hu⟩ hs
  | sysClose fd =>
    refine h.user ⟨_, rfl, (Keeps.refl hI.wf hI.owned).sysClose fd, ?_⟩ hs
    exact List.Subset.refl _

/-- The array that `epoll_wait` has filled. -/
lemma Standing.begin : Standing n es s.calls s (State.nextEntry es) := by
  have h : Reached n es s.calls s es [] := ⟨[], [], by simp⟩
  cases es <;> exact h

end Standing

/-- What is left of a batch, in steps of `esMain`. -/
def Stage.left : Stage → Nat
  | .EVT_READ => 8
  | .EVT_HANGUP => 6
  | .EVT_WRITE => 4
  | .release => 2

def Pc.left : Pc → Nat
  | .entry _ rest => 10 * rest.length + 9
  | .check st _ rest => 10 * rest.length + st.left
  | .evtcb st _ rest => 10 * rest.length + st.left - 1
  | _ => 0

lemma left_nextEntry (rest : List Entry) :
    (State.nextEntry rest).left ≤ 10 * rest.length := by
  cases rest <;> simp [State.nextEntry, Pc.left]; omega

lemma left_nextStage (st : Stage) (e : Entry) (rest : List Entry) :
    (State.nextStage st e rest).left < 10 * rest.length + st.left - 1 := by
  cases st with
  | release => exact Nat.lt_succ_of_le (left_nextEntry rest)
  | EVT_READ | EVT_HANGUP | EVT_WRITE =>
    simp [State.nextStage, Stage.next, Pc.left, Stage.left]

/-- A batch whose callbacks return goes on to its clean-up. -/
lemma Inv.toCleanUp {L : Layout} {s : State} (h : Inv L s) (hs : s.pc.inBatch) :
    ∃ t, (mainLoop L).LeadsBy
      (fun s a => s.pc ≠ .cleanUp ∧ (a = .esMain ∨ a = .evtcbReturn)) s t ∧ t.pc = .cleanUp := by
  by_cases hclean : s.pc = .cleanUp
  · exact ⟨s, .refl, hclean⟩
  have hnext : ∃ a u, (a = .esMain ∨ a = .evtcbReturn) ∧ s.step L a = some u ∧
      u.pc.inBatch ∧ u.pc.left < s.pc.left := by
    cases hpc : s.pc with
    | start => exact absurd hpc hs.1
    | epoll_wait => exact absurd hpc hs.2.1
    | fault => exact absurd hpc hs.2.2
    | cleanUp => exact absurd hpc hclean
    | entry e rest =>
      obtain ⟨p, hp, -⟩ := h.entries e (by simp [hpc, Pc.entries])
      have hfd : p.fd ≠ 0 := Int.ne_of_gt (h.wf.fd _ p hp)
      refine ⟨.esMain, { s with pc := .check .EVT_READ e rest }, .inl rfl, ?_, ?_, ?_⟩
      · simp [State.step, State.esMain, hpc, hp, hfd]
      · simp [Pc.inBatch]
      · simp [Pc.left, Stage.left]
    | check st e rest =>
      obtain ⟨p, hp, -⟩ := h.entries e (by simp [hpc, Pc.entries])
      have hpos : 2 ≤ st.left := by
        cases st <;> decide
      by_cases hreg : p.isReg = false
      · refine ⟨.esMain, { s with pc := State.nextEntry rest }, .inl rfl, ?_,
          (inBatch_nextEntry rest).1, ?_⟩
        · simp [State.step, State.esMain, hpc, hp, hreg]
        · have hleft := left_nextEntry rest
          change (State.nextEntry rest).left < 10 * rest.length + st.left
          omega
      by_cases hcalls : e.events.calls st = true
      · refine ⟨.esMain, { s with
          pc := .evtcb st e rest
          calls := s.calls ++
            [⟨p.birth, st, s.reg.deregistered.any (fun x => x.1 = p.birth)⟩] },
          .inl rfl, ?_, ?_, ?_⟩
        · simp [State.step, State.esMain, hpc, hp, hreg, hcalls]
        · simp [Pc.inBatch]
        · change 10 * rest.length + st.left - 1 < 10 * rest.length + st.left
          omega
      · refine ⟨.esMain, { s with pc := State.nextStage st e rest }, .inl rfl, ?_,
          (inBatch_nextStage st e rest).1, ?_⟩
        · simp [State.step, State.esMain, hpc, hp, hreg, hcalls]
        · have hleft := left_nextStage st e rest
          change (State.nextStage st e rest).left < 10 * rest.length + st.left
          omega
    | evtcb st e rest =>
      refine ⟨.evtcbReturn, { s with pc := State.nextStage st e rest }, .inr rfl, ?_,
        (inBatch_nextStage st e rest).1, left_nextStage st e rest⟩
      simp [State.step, hpc]
  obtain ⟨a, u, ha, hu, hin, hlt⟩ := hnext
  obtain ⟨t, ht, hpc⟩ := Inv.toCleanUp (h.step hu) hin
  exact ⟨t, ht.head ⟨hclean, ha⟩ hu, hpc⟩
termination_by s.pc.left

lemma Standing.inBatch {n : Nat} {es : List Entry} {base : List Call} {s : State} {p : Pc}
    (h : Standing n es base s p) : p.inBatch := by
  cases p <;> simp_all [Standing, Pc.inBatch]

/-- From `epoll_wait` on, the batch can always go on to its clean-up, and then each entry has had
the calls its events ask for, whatever the callbacks have done to their own events and to others. -/
theorem batch_complete (L : Layout) {s u t : State} {fds : List (Int × Events)} {es : List Entry}
    (hr : (mainLoop L).Reachable s) (hes : fds.mapM s.report = some es)
    (hu : (mainLoop L).step s (.epoll_wait fds) = some u)
    (ht : (mainLoop L).LeadsBy (fun s _ => s.pc ≠ .cleanUp) u t) :
    (∃ v, (mainLoop L).LeadsBy
      (fun s a => s.pc ≠ .cleanUp ∧ (a = .esMain ∨ a = .evtcbReturn)) t v ∧ v.pc = .cleanUp) ∧
    (t.pc = .cleanUp → ∃ served, t.calls = s.calls ++ List.flatten served ∧
      List.Forall₂ (Entry.Served t.reg u.reg.batch) es served) := by
  change s.step L (.epoll_wait fds) = some u at hu
  have hI : Inv L s :=
    hr.invariant (fun _ h0 => h0 ▸ Inv.init) (fun _ _ _ _ hI _ hs => hI.step hs)
  have hIu : Inv L u := hI.step hu
  have hst : Standing u.reg.batch es s.calls u u.pc := by
    simp only [State.step, hes, Option.ite_none_right_eq_some] at hu
    obtain ⟨-, hu⟩ := hu
    cases hu
    exact Standing.congr Standing.begin rfl (List.Subset.refl _)
  have hend : Inv L t ∧ t.reg.batch = u.reg.batch ∧ Standing u.reg.batch es s.calls t t.pc := by
    refine ht.invariant
      (I := fun t => Inv L t ∧ t.reg.batch = u.reg.batch ∧ Standing u.reg.batch es s.calls t t.pc)
      ⟨hIu, rfl, hst⟩ ?_
    rintro v a w ⟨hIv, hn, hv⟩ hclean hs
    exact ⟨hIv.step hs, hv.step hIv hn hclean hs⟩
  obtain ⟨hIt, -, hst⟩ := hend
  refine ⟨hIt.toCleanUp hst.inBatch, fun hpc => ?_⟩
  rw [hpc] at hst
  obtain ⟨past, served, hpast, hcalls, hserved⟩ := hst
  rw [List.append_nil] at hpast hcalls
  exact ⟨served, hcalls, hpast ▸ hserved⟩

/-- In the second batch of `closingRun` the first object closes itself and the other; the batch
begins after 13 steps and comes to its clean-up after 11 more. -/
theorem batch_complete_closingRun : ∃ s u t,
    (mainLoop sampleLayout).Reachable s ∧
    (mainLoop sampleLayout).LeadsBy (fun s _ => s.pc ≠ .cleanUp) u t ∧ t.pc = .cleanUp ∧
    ∃ served, t.calls = s.calls ++ List.flatten served ∧ List.Forall₂
      (Entry.Served t.reg u.reg.batch)
      [⟨20, 1, ⟨true, true, false, false, false⟩⟩, ⟨21, 2, ⟨true, false, false, false, false⟩⟩]
      served := by
  let M := mainLoop sampleLayout
  let fds : List (Int × Events) :=
    [(5, ⟨true, true, false, false, false⟩), (6, ⟨true, false, false, false, false⟩)]
  have hrun : (M.exec State.init (closingRun.take 13)).bind (fun s =>
      (M.step s (.epoll_wait fds)).bind (fun u =>
        ((M.restrict (fun s _ => s.pc ≠ .cleanUp)).exec u ((closingRun.drop 14).take 10)).map
          (fun t => (fds.mapM s.report, t.pc)))) =
      some (some [⟨20, 1, ⟨true, true, false, false, false⟩⟩,
        ⟨21, 2, ⟨true, false, false, false, false⟩⟩], .cleanUp) := by
    decide
  obtain ⟨s, hs, hrun⟩ := Option.bind_eq_some_iff.mp hrun
  obtain ⟨u, hu, hrun⟩ := Option.bind_eq_some_iff.mp hrun
  obtain ⟨t, ht, hobs⟩ := Option.map_eq_some_iff.mp hrun
  simp only [Prod.mk.injEq] at hobs
  have hr := System.reachable_of_exec (M := M) rfl hs
  have hl : M.LeadsBy (fun s _ => s.pc ≠ .cleanUp) u t :=
    (System.leadsBy_of_exec ht).mono (fun _ _ h => by simpa using h)
  exact ⟨s, u, t, hr, hl, hobs.2, (batch_complete sampleLayout hr hobs.1 hu hl).2 hobs.2⟩

end EdNio.Event
