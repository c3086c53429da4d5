import EdNio.Timer.History
import Mathlib.Data.Set.Insert

/-!
# Automatic timer handles

What the handles of a pool are for its user: a counter that gives the automatic ones, and the
set of those in use. The pool is related to it over all runs.
-/

namespace EdNio.Timer
open MachineInt Transition

/-- The calls that concern handles; an explicit handle is not 0. -/
inductive HandleCall
  | auto
  | explicit (handle : UInt32)
  | kill (id : UInt32)
deriving DecidableEq, Repr

def handleCall : Action → Option HandleCall
  | .setTimerUs handle _ _ _ => some (if handle = 0 then .auto else .explicit handle)
  | .killTimer id => some (.kill id)
  | _ => none

def handleHistory : System (Recorded EdTimerPool HandleCall) Action :=
  timerPool.recorded (fun _ a => handleCall a)

/-- `autos` counts the automatic calls. -/
structure Handles where
  autos : Nat
  live : Set UInt32

/-- The automatic handles are 1 to 2 ^ 32 - 1, again and again. -/
def autoHandle (autos : Nat) : UInt32 :=
  UInt32.ofNat (autos % (2 ^ 32 - 1) + 1)

def Handles.call (x : Handles) : HandleCall → Handles
  | .auto => ⟨x.autos + 1, insert (autoHandle x.autos) x.live⟩
  | .explicit handle => ⟨x.autos, insert handle x.live⟩
  | .kill id => ⟨x.autos, x.live \ {id}⟩

def handles (log : List HandleCall) : Handles :=
  log.foldl Handles.call ⟨0, ∅⟩

/-- A call with handle 0 gives a handle that is not in the map and changes no other entry. -/
structure FreshSet (s : EdTimerPool) (ret : UInt32 × EdTimerPool) : Prop where
  ne_zero : ret.1 ≠ 0
  unused : ∀ n ∈ s.timerMap, n.info.handle ≠ ret.1
  kept : ∀ n ∈ s.timerMap, n ∈ ret.2.timerMap
  others : ∀ n ∈ ret.2.timerMap, n ∈ s.timerMap ∨ n.info.handle = ret.1

/-- The pool is in the state that the calls lead to. -/
structure Represents (s : EdTimerPool) (x : Handles) : Prop where
  seed : s.nextSeed = autoHandle x.autos
  live : ∀ h, h ∈ x.live ↔ ∃ n ∈ s.timerMap, n.info.handle = h

lemma autoHandle_ne_zero (autos : Nat) : autoHandle autos ≠ 0 := skipZero_ne_zero autos

/-- The seed goes through the automatic handles. -/
lemma autoHandle_succ (autos : Nat) : autoHandle (autos + 1) =
    if autoHandle autos + 1 = 0 then 1 else autoHandle autos + 1 :=
  skipZero_succ autos

namespace EdTimerPool

variable {s t : EdTimerPool} {a : Action}

lemma put_handleSeed (s : EdTimerPool) (info : TimerInfo) :
    (s.put info).handleSeed = s.handleSeed := by
  unfold put
  split <;> rfl

lemma setTimerUs_handleSeed (s : EdTimerPool) (handle : UInt32) (firstus periodus : UInt64)
    (lis : Nat) : (s.setTimerUs handle firstus periodus lis).2.handleSeed =
      if handle = 0 then s.nextSeed else s.handleSeed := by
  unfold setTimerUs
  dsimp only
  generalize (if handle = 0 then s.nextSeed else s.handleSeed) = seed
  generalize (if handle = 0 then seed else handle) = h
  split <;> exact put_handleSeed _ _

lemma step_handleSeed (hs : step s a = some t) (ha : handleCall a ≠ some .auto) :
    t.handleSeed = s.handleSeed := by
  cases a with
  | setTimerUs handle firstus periodus lis =>
    simp only [step, Option.ite_none_right_eq_some, Option.some.injEq] at hs
    obtain ⟨-, rfl⟩ := hs
    rw [setTimerUs_handleSeed]
    split
    · rename_i h0
      exact absurd (by rw [handleCall, if_pos h0]) ha
    · rfl
  | scheduleTimer order =>
    simp only [step, Option.ite_none_right_eq_some] at hs
    obtain ⟨-, hs⟩ := hs
    unfold scheduleTimer at hs
    dsimp only at hs
    split at hs
    · cases hs
      rfl
    · obtain ⟨p, -, rfl⟩ := Option.map_eq_some_iff.mp hs
      rfl
  | callListener =>
    simp only [step] at hs
    split at hs <;> cases hs
    rfl
  | listenerReturn =>
    simp only [step] at hs
    split at hs <;> cases hs
    rfl
  | tick | killTimer | epoll_wait | rearm =>
    simp only [step, Option.ite_none_right_eq_some, Option.some.injEq] at hs
    obtain ⟨-, rfl⟩ := hs
    rfl

lemma handle_put (s : EdTimerPool) (info : TimerInfo) (h : UInt32) :
    (∃ n ∈ (s.put info).timerMap, n.info.handle = h) ↔
      h = info.handle ∨ ∃ n ∈ s.timerMap, n.info.handle = h := by
  obtain ⟨m, hm, hinfo⟩ := s.info_mem_put info
  constructor
  · rintro ⟨n, hn, rfl⟩
    rcases mem_put hn with hinfo | ⟨hmem, -⟩
    · exact .inl (by rw [hinfo])
    · exact .inr ⟨n, hmem, rfl⟩
  · rintro (rfl | ⟨n, hn, rfl⟩)
    · exact ⟨m, hm, by rw [hinfo]⟩
    · by_cases heq : n.info.handle = info.handle
      · exact ⟨m, hm, by rw [hinfo, heq]⟩
      · obtain ⟨m, hm, -, hkeep⟩ := put_keeps info hn
        exact ⟨m, hm, by rw [hkeep heq]⟩

end EdTimerPool

open EdTimerPool

variable {s t : EdTimerPool} {a : Action} {x : Handles}

lemma Represents.congr (h : Represents s x) (hseed : t.handleSeed = s.handleSeed)
    (hmap : ∀ k, (∃ n ∈ t.timerMap, n.info.handle = k) ↔ ∃ n ∈ s.timerMap, n.info.handle = k) :
    Represents t x := by
  constructor
  · rw [← h.seed, nextSeed, nextSeed, hseed]
  · intro k
    rw [h.live k, hmap k]

lemma Represents.setTimerUs (h : Represents s x) (handle : UInt32) (firstus periodus : UInt64)
    (lis : Nat) : Represents (s.setTimerUs handle firstus periodus lis).2
      (x.call (if handle = 0 then .auto else .explicit handle)) := by
  obtain ⟨-, hmap, -, -, -⟩ := s.setTimerUs_eq handle firstus periodus lis
  have hseed := setTimerUs_handleSeed s handle firstus periodus lis
  have hlive : ∀ k, (∃ n ∈ (s.setTimerUs handle firstus periodus lis).2.timerMap,
      n.info.handle = k) ↔ k = s.chosen handle ∨ ∃ n ∈ s.timerMap, n.info.handle = k := by
    intro k
    rw [hmap, handle_put]
  by_cases h0 : handle = 0
  · rw [if_pos h0] at hseed ⊢
    have hchosen : s.chosen handle = autoHandle x.autos := (if_pos h0).trans h.seed
    constructor
    · rw [nextSeed, hseed, h.seed]
      exact (autoHandle_succ x.autos).symm
    · intro k
      rw [hlive, hchosen, ← h.live k]
      exact Set.mem_insert_iff
  · rw [if_neg h0] at hseed ⊢
    have hchosen : s.chosen handle = handle := if_neg h0
    constructor
    · rw [nextSeed, hseed]
      exact h.seed
    · intro k
      rw [hlive, hchosen, ← h.live k]
      exact Set.mem_insert_iff

lemma Represents.killTimer (h : Represents s x) (id : UInt32) :
    Represents (s.killTimer id) (x.call (.kill id)) := by
  refine ⟨h.seed, fun k => ?_⟩
  simp only [Handles.call, Set.mem_sdiff, Set.mem_singleton_iff, h.live k,
    EdTimerPool.killTimer, List.mem_filter, decide_eq_true_eq]
  constructor
  · rintro ⟨⟨n, hn, rfl⟩, hne⟩
    exact ⟨n, ⟨hn, hne⟩, rfl⟩
  · rintro ⟨n, ⟨hn, hne⟩, rfl⟩
    exact ⟨⟨n, hn, rfl⟩, hne⟩

lemma Represents.step (h : Represents s x) (hs : step s a = some t) :
    Represents t ((handleCall a).elim x x.call) := by
  cases step_effect hs with
  | @set handle firstus periodus lis =>
    simp only [Timer.step, Option.ite_none_right_eq_some, Option.some.injEq] at hs
    obtain ⟨-, rfl⟩ := hs
    exact h.setTimerUs handle firstus periodus lis
  | @kill id => exact h.killTimer id
  | tick _ map => exact h.congr (step_handleSeed hs (by simp [handleCall])) (fun k => by rw [map])
  | nothing empty map =>
    exact h.congr (step_handleSeed hs (by simp [handleCall])) (fun k => by rw [map, empty])
  | @pass order _ idle nonempty perm map =>
    apply h.congr (step_handleSeed hs (by simp [handleCall]))
    intro k
    simp only [map, List.mem_map, exists_exists_and_eq_and, advanced_handle, perm.mem_iff]
  | epoll | call | back | rearm =>
    exact h.congr (step_handleSeed hs (by simp [handleCall])) (fun _ => Iff.rfl)

/-- The pool refines the counter and the set, in every run. -/
theorem represents_handles {s : Recorded EdTimerPool HandleCall}
    (h : handleHistory.Reachable s) : Represents s.state (handles s.log) := by
  apply h.invariant
  · rintro ⟨s, log⟩ ⟨⟨h0, -⟩, hlog⟩
    dsimp only at h0 hlog
    rw [h0, hlog]
    refine ⟨rfl, fun k => ?_⟩
    simp [handles, EdTimerPool.opened]
  · intro s a t _ hI _ hs
    obtain ⟨hstep, hlog⟩ := recorded_step hs
    have hI' := hI.step hstep
    rw [hlog]
    cases hc : handleCall a with
    | none => simpa [hc] using hI'
    | some c => simpa [hc, handles] using hI'

/-- An automatic handle is fresh exactly if the handle that the counter has come to is not in
use, neither by a timer with an explicit handle nor by one from the last time around. -/
theorem auto_fresh_iff {s : Recorded EdTimerPool HandleCall} (h : handleHistory.Reachable s)
    (firstus periodus : UInt64) (lis : Nat) :
    FreshSet s.state (s.state.setTimerUs 0 firstus periodus lis) ↔
      autoHandle (handles s.log).autos ∉ (handles s.log).live := by
  have hrep := represents_handles h
  obtain ⟨hret, hmap, -, -, -⟩ := s.state.setTimerUs_eq 0 firstus periodus lis
  have hchosen : s.state.chosen 0 = autoHandle (handles s.log).autos :=
    (if_pos rfl).trans hrep.seed
  rw [hchosen] at hret hmap
  rw [hrep.live]
  constructor
  · rintro ⟨-, hunused, -, -⟩ ⟨n, hn, heq⟩
    exact hunused n hn (heq.trans hret.symm)
  · intro hfree
    refine ⟨?_, ?_, ?_, ?_⟩
    · rw [hret]
      exact autoHandle_ne_zero _
    · intro n hn heq
      exact hfree ⟨n, hn, heq.trans hret⟩
    · intro n hn
      obtain ⟨m, hm, -, hkeep⟩ := put_keeps
        ⟨autoHandle (handles s.log).autos, plusUs s.state.now firstus, periodus, lis⟩ hn
      rw [hmap, ← hkeep (fun heq => hfree ⟨n, hn, heq⟩)]
      exact hm
    · intro n hn
      rw [hmap] at hn
      rcases mem_put hn with hinfo | ⟨hmem, -⟩
      · exact .inr (by rw [hinfo, hret])
      · exact .inl hmem

/-- An explicit handle is out of the way of the automatic ones. -/
theorem auto_fresh_mixedRun : ∃ s, handleHistory.Reachable s ∧
    s.log = [.auto, .explicit 3, .explicit 2, .kill 2] ∧
      FreshSet s.state (s.state.setTimerUs 0 50 100 9) := by
  obtain ⟨s, hr, hs⟩ := System.exists_of_exec (M := handleHistory) (s := ⟨.opened 0, []⟩)
    (f := Recorded.log) ⟨⟨rfl, by decide, by decide⟩, rfl⟩
    (l := [.setTimerUs 0 10 100 7, .setTimerUs 3 20 100 8, .setTimerUs 2 20 100 8, .killTimer 2])
    (b := [.auto, .explicit 3, .explicit 2, .kill 2]) rfl
  refine ⟨s, hr, hs, (auto_fresh_iff hr 50 100 9).mpr ?_⟩
  rw [hs]
  simp [handles, Handles.call, autoHandle]

/-- The first automatic handle is that of a live timer. -/
theorem not_auto_fresh : ¬ ∀ s, handleHistory.Reachable s → ∀ firstus periodus lis,
    FreshSet s.state (s.state.setTimerUs 0 firstus periodus lis) := by
  intro h
  obtain ⟨s, hr, hs⟩ := System.exists_of_exec (M := handleHistory) (s := ⟨.opened 0, []⟩)
    (f := fun s => (s.state.timerMap.map (fun n => n.info.handle), s.state.nextSeed))
    ⟨⟨rfl, by decide, by decide⟩, rfl⟩ (l := [.setTimerUs 1 10 100 7]) (b := ([1], 1)) rfl
  simp only [Prod.mk.injEq] at hs
  have hone : 1 ∈ s.state.timerMap.map (fun n => n.info.handle) := by
    rw [hs.1]
    exact List.mem_singleton_self 1
  obtain ⟨n, hn, hhandle⟩ := List.mem_map.mp hone
  apply (h s hr 10 100 7).unused n hn
  rw [hhandle, (s.state.setTimerUs_eq 0 10 100 7).1]
  exact hs.2.symm

end EdNio.Timer
