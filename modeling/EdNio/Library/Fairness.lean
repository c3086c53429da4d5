import EdNio.Library.Transition
import Mathlib.Tactic.ByContra
import Mathlib.Tactic.Lemma

/-!
# Infinite runs and weak fairness

A run performs an action or pauses at each instant. An action is treated fairly when it
is taken at some instant or disabled at some later one. Termination arguments use a rank
with a helpful action in every state: the other actions may not raise the rank, and the
helpful one lowers it.
-/

namespace Transition

variable {σ α : Type} {M : System σ α}

/-- An infinite run; `act n = none` when the system pauses at instant `n`. -/
structure System.Run (M : System σ α) where
  state : Nat → σ
  act : Nat → Option α
  start : M.init (state 0)
  pause : ∀ n, act n = none → state (n + 1) = state n
  next : ∀ n a, act n = some a → M.step (state n) a = some (state (n + 1))

namespace System.Run

variable (r : M.Run)

/-- All steps of the run satisfy `ok`. -/
def All (ok : σ → α → Prop) : Prop :=
  ∀ n a, r.act n = some a → ok (r.state n) a

/-- If `a` can happen from some instant on, it happens. -/
def Fair (a : α) : Prop :=
  ∀ n, (∀ m, n ≤ m → (M.step (r.state m) a).isSome = true) → ∃ m, n ≤ m ∧ r.act m = some a

variable {r}

lemma All.reaches {ok : σ → α → Prop} (h : r.All ok) (n : Nat) : M.Reaches ok (r.state n) := by
  induction n with
  | zero => exact .init r.start
  | succ n ih =>
    cases ha : r.act n with
    | none =>
      rw [r.pause n ha]
      exact ih
    | some a => exact .step ih (h n a ha) (r.next n a ha)

/-- The rule of helpful actions: from every instant at which `P` holds, `Q` is reached. -/
theorem eventually_of_rank {ok : σ → α → Prop} (hall : r.All ok) {P Q : σ → Prop}
    (rank : σ → Nat) (help : σ → α) (hfair : ∀ s, P s → ¬ Q s → r.Fair (help s))
    (hen : ∀ s, M.Reaches ok s → P s → ¬ Q s → (M.step s (help s)).isSome = true)
    (hstep : ∀ s a s', M.Reaches ok s → P s → ¬ Q s → ok s a → M.step s a = some s' → ¬ Q s' →
      P s' ∧ (rank s' < rank s ∨ rank s' = rank s ∧ help s' = help s ∧ a ≠ help s))
    {n : Nat} (hP : P (r.state n)) : ∃ m, n ≤ m ∧ Q (r.state m) := by
  generalize hk : rank (r.state n) = k
  induction k using Nat.strongRecOn generalizing n with
  | ind k ih =>
    by_contra hno
    simp only [not_exists, not_and] at hno
    -- as long as the rank stays the helpful action stays the same and is not taken
    have hstay : ∀ d, P (r.state (n + d)) ∧ rank (r.state (n + d)) = k ∧
        help (r.state (n + d)) = help (r.state n) := by
      intro d
      induction d with
      | zero => exact ⟨hP, hk, rfl⟩
      | succ d ihd =>
        obtain ⟨hPd, hrd, hhd⟩ := ihd
        have hq := hno (n + d) (Nat.le_add_right n d)
        have hq' := hno (n + (d + 1)) (Nat.le_add_right n (d + 1))
        cases ha : r.act (n + d) with
        | none =>
          have hs := r.pause (n + d) ha
          rw [Nat.add_assoc] at hs
          rw [hs]
          exact ⟨hPd, hrd, hhd⟩
        | some a =>
          have hs := r.next (n + d) a ha
          rw [Nat.add_assoc] at hs
          obtain ⟨hP', hr⟩ :=
            hstep _ a _ (hall.reaches (n + d)) hPd hq (hall (n + d) a ha) hs hq'
          rcases hr with hr | ⟨hr, hh, -⟩
          · obtain ⟨m, hm, hQ⟩ := ih _ (hrd ▸ hr) hP' rfl
            exact absurd hQ (hno m (Nat.le_trans (Nat.le_add_right n (d + 1)) hm))
          · exact ⟨hP', hr.trans hrd, hh.trans hhd⟩
    have hq := hno n (Nat.le_refl n)
    obtain ⟨m, hm, ha⟩ := hfair _ hP hq n (fun m hm => by
      obtain ⟨d, rfl⟩ := Nat.exists_eq_add_of_le hm
      obtain ⟨hPd, -, hhd⟩ := hstay d
      rw [← hhd]
      exact hen _ (hall.reaches (n + d)) hPd (hno (n + d) hm))
    obtain ⟨d, rfl⟩ := Nat.exists_eq_add_of_le hm
    obtain ⟨hPd, hrd, hhd⟩ := hstay d
    have hs := r.next (n + d) _ ha
    have hq' := hno (n + d + 1) (Nat.le_trans hm (Nat.le_succ _))
    obtain ⟨hP', hr⟩ := hstep _ _ _ (hall.reaches (n + d)) hPd (hno (n + d) hm)
      (hall (n + d) _ ha) hs hq'
    rcases hr with hr | ⟨-, -, hne⟩
    · obtain ⟨j, hj, hQ⟩ := ih _ (hrd ▸ hr) hP' rfl
      exact absurd hQ (hno j (Nat.le_trans (Nat.le_trans hm (Nat.le_succ _)) hj))
    · exact hne hhd.symm

lemma Fair.of_disabled {a : α} {k : Nat} (h : ∀ n, k ≤ n → M.step (r.state n) a = none) :
    r.Fair a := by
  intro n hn
  have hm := hn (max n k) (Nat.le_max_left _ _)
  rw [h (max n k) (Nat.le_max_right _ _)] at hm
  simp at hm

end System.Run

lemma System.states_of_exec {s t : σ} {as : List α} (h : M.exec s as = some t) :
    ∃ st : Nat → σ, st 0 = s ∧ (∀ n, as[n]? = none → st (n + 1) = st n) ∧
      (∀ n a, as[n]? = some a → M.step (st n) a = some (st (n + 1))) ∧
      (∀ n, M.exec s (as.take n) = some (st n)) ∧ ∀ n, as.length ≤ n → st n = t := by
  induction as generalizing s with
  | nil =>
    simp only [System.exec, Option.some.injEq] at h
    exact ⟨fun _ => s, rfl, fun _ _ => rfl, by simp, by simp [System.exec], fun _ _ => h⟩
  | cons a as ih =>
    simp only [System.exec, Option.bind_eq_some_iff] at h
    obtain ⟨u, hu, hr⟩ := h
    obtain ⟨st, h0, hp, hn, ht, he⟩ := ih hr
    refine ⟨fun n => Nat.casesOn n s st, rfl, ?_, ?_, ?_, ?_⟩
    · intro n
      cases n with
      | zero => simp
      | succ n => simpa using hp n
    · intro n b hb
      cases n with
      | zero =>
        obtain rfl : a = b := by simpa using hb
        exact hu.trans (congrArg some h0.symm)
      | succ n => simpa using hn n b (by simpa using hb)
    · intro n
      cases n with
      | zero => rfl
      | succ n => simpa [System.exec, hu] using ht n
    · intro n hle
      cases n with
      | zero => simp at hle
      | succ n => exact he n (by simpa using hle)

/-- The run that performs the actions of a list and then pauses for ever. -/
lemma System.exists_run {s t : σ} {as : List α} (h0 : M.init s) (h : M.exec s as = some t) :
    ∃ r : M.Run, (∀ n, r.act n = as[n]?) ∧ (∀ n, M.exec s (as.take n) = some (r.state n)) ∧
      ∀ n, as.length ≤ n → r.state n = t := by
  obtain ⟨st, hs, hp, hn, ht, he⟩ := System.states_of_exec h
  exact ⟨⟨st, fun n => as[n]?, hs ▸ h0, hp, hn⟩, fun _ => rfl, ht, he⟩

lemma System.exists_run_restrict {T : σ → α → Bool} {s t : σ} {as : List α} (h0 : M.init s)
    (h : (M.restrict T).exec s as = some t) :
    ∃ r : M.Run, r.All (fun s a => T s a = true) ∧ (∀ n, r.act n = as[n]?) ∧
      (∀ n, (M.restrict T).exec s (as.take n) = some (r.state n)) ∧
      ∀ n, as.length ≤ n → r.state n = t := by
  obtain ⟨r, hact, htake, hend⟩ := System.exists_run (M := M.restrict T) h0 h
  have hnext : ∀ n a, r.act n = some a → T (r.state n) a = true ∧
      M.step (r.state n) a = some (r.state (n + 1)) := by
    intro n a ha
    have hs := r.next n a ha
    simp only [System.restrict, Option.ite_none_right_eq_some] at hs
    exact hs
  exact ⟨⟨r.state, r.act, r.start, r.pause, fun n a ha => (hnext n a ha).2⟩,
    fun n a ha => (hnext n a ha).1, hact, htake, hend⟩

end Transition
