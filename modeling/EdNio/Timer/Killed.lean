import EdNio.Timer.History

/-!
# Killed timers

`scheduleTimer` keeps pointers to the timers it will fire while their listeners run.
-/

namespace EdNio.Timer
open Transition

/-- The listener that is called is not that of an erased timer, nor that of a timer that has
been killed and not set again. -/
def Silent (before : List PoolEvent) : PoolEvent → Prop
  | .called none _ => False
  | .called (some info) _ =>
    ∀ before' after, before = before' ++ .killed info.handle :: after →
      ∃ e ∈ after, e.sets info.handle = true
  | _ => True

/-- A listener kills no timer that the pass has still to fire. -/
def spares (s : EdTimerPool) : Action → Bool
  | .killTimer id =>
    match s.pc with
    | .listening rest =>
      s.timerMap.all (fun n => n.info.handle ≠ id || rest.all (fun e => e.2 ≠ n.addr))
    | _ => true
  | _ => true

variable {s t : EdTimerPool} {a : Action}

def Held (s : EdTimerPool) : Prop :=
  ∀ e ∈ s.pc.rest, ∃ n ∈ s.timerMap, n.addr = e.2

lemma step_held (h : Held s) (ha : spares s a = true) (hs : step s a = some t) : Held t := by
  cases step_effect hs with
  | tick clock map addrs pc now =>
    rw [Held, pc, map]
    exact h
  | set info_eq map addrs pc now =>
    intro e he
    rw [pc] at he
    obtain ⟨n, hn, hna⟩ := h e he
    obtain ⟨m, hm, hma, -⟩ := EdTimerPool.put_keeps _ hn
    exact ⟨m, map ▸ hm, hma.trans hna⟩
  | @kill id =>
    intro e he
    have he' : e ∈ s.pc.rest := he
    obtain ⟨n, hn, hna⟩ := h e he'
    refine ⟨n, List.mem_filter.mpr ⟨hn, ?_⟩, hna⟩
    simp only [decide_eq_true_eq]
    intro hid
    simp only [step, Option.ite_none_right_eq_some] at hs
    obtain ⟨hruns, -⟩ := hs
    cases hpc : s.pc with
    | idle =>
      rw [hpc] at he'
      cases he'
    | looping rest => simp [hpc, userRuns] at hruns
    | listening rest =>
      rw [hpc] at he'
      simp only [spares, hpc, List.all_eq_true, Bool.or_eq_true, decide_eq_true_eq] at ha
      rcases ha n hn with hne | hall
      · exact hne hid
      · exact hall e he' hna.symm
  | epoll => exact h
  | nothing empty map addrs pc now =>
    rw [Held, pc, map, ← empty]
    exact h
  | pass idle nonempty perm map addrs pc now period =>
    intro e he
    rw [pc] at he
    obtain ⟨n, hn, -, rfl⟩ := exists_of_mem_fires he
    exact ⟨advanced s.now n, map ▸ List.mem_map_of_mem hn, advanced_addr _ _⟩
  | call loop =>
    intro e he
    refine h e ?_
    rw [loop]
    exact List.mem_cons_of_mem _ he
  | back lis =>
    intro e he
    refine h e ?_
    rw [lis]
    exact he
  | rearm loop =>
    intro e he
    cases he

/-- A timer that is killed and not set again is not in the map. -/
def Erased (x : Recorded EdTimerPool PoolEvent) : Prop :=
  ∀ h before after, x.log = before ++ .killed h :: after →
    (∀ e ∈ after, e.sets h = false) → ∀ n ∈ x.state.timerMap, n.info.handle ≠ h

variable {x y : Recorded EdTimerPool PoolEvent}

lemma step_erased (h : Erased x) (hs : poolHistory.step x a = some y) : Erased y := by
  obtain ⟨hstep, hlog⟩ := recorded_step hs
  intro k before after heq hset n hn hk
  rw [hlog] at heq
  rcases step_handles hstep hn with ⟨e, he, hsets⟩ | ⟨m, hm, hmn⟩
  · rw [he, Option.toList_some] at heq
    rcases concat_eq_append_cons heq with ⟨after', rfl, -⟩ | ⟨-, -, rfl⟩
    · have hno := hset e (by simp)
      rw [← hk, hsets] at hno
      cases hno
    · cases hsets
  · cases he : recordEvent x.state a with
    | none =>
      rw [he, Option.toList_none, List.append_nil] at heq
      exact h k before after heq hset m hm (hmn.trans hk)
    | some e =>
      rw [he, Option.toList_some] at heq
      rcases concat_eq_append_cons heq with ⟨after', rfl, hx⟩ | ⟨-, -, rfl⟩
      · exact h k before after' hx (fun e he => hset e (List.mem_append_left _ he)) m hm
          (hmn.trans hk)
      · rw [eq_killTimer he] at hstep
        simp only [timerPool, step, Option.ite_none_right_eq_some, Option.some.injEq] at hstep
        rw [← hstep.2] at hn
        obtain ⟨-, hne⟩ := List.mem_filter.mp hn
        simp [hk] at hne

/-- In a run in which no listener kills a timer that the same pass has still to fire, no
listener is called through an erased timer, and none of a killed timer before it is set
again. -/
theorem killed_silent (h : poolHistory.Reaches (fun x a => spares x.state a = true) x) :
    Always Silent x.log := by
  refine recorded_always ?_ h
  intro x a t e hr ha hs he
  have hinv : Held x.state ∧ Erased x := by
    apply hr.invariant
    · rintro x ⟨⟨h0, -⟩, hlog⟩
      constructor
      · rw [h0]
        intro e he
        cases he
      · intro k before after heq
        simp [hlog] at heq
    · intro x a y _ hI hok hs
      exact ⟨step_held hI.1 hok (recorded_step hs).1, step_erased hI.2 hs⟩
  cases e with
  | called info cnt =>
    cases step_effect hs with
    | @call cnt addr rest loop =>
      simp only [recordEvent, loop, Option.some.injEq, PoolEvent.called.injEq] at he
      obtain ⟨rfl, rfl⟩ := he
      obtain ⟨n, hn, hna⟩ := hinv.1 (cnt, addr) (by
        rw [loop]
        exact List.mem_cons_self)
      dsimp only at hna
      rw [← hna, (reachable_sound hr.of_recorded).find_eq hn]
      intro before after heq
      by_contra hset
      refine hinv.2 n.info.handle before after heq (fun e he => ?_) n hn rfl
      cases hb : e.sets n.info.handle with
      | false => rfl
      | true => exact absurd ⟨e, he, hb⟩ hset
    | _ => simp [recordEvent] at he
  | _ => trivial

def bothDue : List Action :=
  [.setTimerUs 1 10 100 7, .setTimerUs 2 10 100 8, .tick 20000, .epoll_wait,
    .scheduleTimer [⟨0, ⟨1, 10000, 100, 7⟩⟩, ⟨1, ⟨2, 10000, 100, 8⟩⟩], .callListener]

theorem killed_silent_bothDue :
    ∃ x, poolHistory.Reaches (fun x a => spares x.state a = true) x ∧
      x.state.timerMap = [⟨1, ⟨2, 110000, 100, 8⟩⟩] ∧ Always Silent x.log := by
  obtain ⟨x, hr, hx⟩ := System.exists_of_exec_restrict (M := poolHistory)
    (T := fun x a => spares x.state a) (s := ⟨.opened 0, []⟩) ⟨⟨rfl, by decide, by decide⟩, rfl⟩
    (show ((poolHistory.restrict (fun x a => spares x.state a)).exec ⟨.opened 0, []⟩
        (bothDue ++ [.listenerReturn, .callListener, .killTimer 1, .listenerReturn, .rearm])).map
      (fun x => x.state.timerMap) = some [⟨1, ⟨2, 110000, 100, 8⟩⟩] by decide)
  exact ⟨x, hr, hx, killed_silent hr⟩

/-- The first listener kills the second timer, and its erased entry is used. -/
theorem not_killed_silent : ¬ ∀ x, poolHistory.Reachable x → Always Silent x.log := by
  intro h
  obtain ⟨x, hr, hx⟩ := System.exists_of_exec (M := poolHistory) (s := ⟨.opened 0, []⟩)
    ⟨⟨rfl, by decide, by decide⟩, rfl⟩
    (show (poolHistory.exec ⟨.opened 0, []⟩
        (bothDue ++ [.killTimer 2, .listenerReturn, .callListener])).map (fun x => x.log) =
      some ([.set 1 0 10 100, .set 2 0 10 100, .pass 20000,
        .called (some ⟨1, 110000, 100, 7⟩) 10, .killed 2] ++ .called none 10 :: []) by decide +kernel)
  exact h x hr _ _ _ hx

end EdNio.Timer
