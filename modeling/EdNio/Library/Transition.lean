import Mathlib.Tactic.Lemma

/-!
# Labelled transition systems

A system is given by its initial states and a partial step function over actions.
Runs may be restricted by a condition on their steps, so that a property can be
stated of every run all of whose steps meet the condition. Invariants are proved
once per step and transported to whole runs by `Reaches.invariant`.
-/

namespace Transition

/-- `step s a = none` when action `a` cannot happen in state `s`. -/
structure System (σ α : Type) where
  init : σ → Prop
  step : σ → α → Option σ

variable {σ α : Type} {M : System σ α} {ok ok' : σ → α → Prop}

/-- The states of the runs all of whose steps satisfy `ok`. -/
inductive System.Reaches (M : System σ α) (ok : σ → α → Prop) : σ → Prop
  | init {s : σ} : M.init s → M.Reaches ok s
  | step {s s' : σ} {a : α} : M.Reaches ok s → ok s a → M.step s a = some s' → M.Reaches ok s'

/-- The states of all runs. -/
abbrev System.Reachable (M : System σ α) : σ → Prop :=
  M.Reaches (fun _ _ => True)

/-- The states led to from `s` by finitely many steps. -/
inductive System.Leads (M : System σ α) (s : σ) : σ → Prop
  | refl : M.Leads s s
  | step {t u : σ} {a : α} : M.Leads s t → M.step t a = some u → M.Leads s u

/-- The state after a list of actions, if each of them can happen in turn. -/
def System.exec (M : System σ α) : σ → List α → Option σ
  | s, [] => some s
  | s, a :: as => (M.step s a).bind (fun t => M.exec t as)

/-- The runs of `M` all of whose steps pass the test `ok`. -/
def System.restrict (M : System σ α) (ok : σ → α → Bool) : System σ α where
  init := M.init
  step s a := if ok s a then M.step s a else none

lemma System.Reaches.mono {s : σ} (h : M.Reaches ok s) (hok : ∀ s a, ok s a → ok' s a) :
    M.Reaches ok' s := by
  induction h with
  | init h0 => exact .init h0
  | step _ ha hs ih => exact .step ih (hok _ _ ha) hs

lemma System.Reaches.reachable {s : σ} (h : M.Reaches ok s) : M.Reachable s :=
  h.mono (fun _ _ _ => trivial)

/-- A property that holds initially and is kept by every permitted step from a reached
state holds in every reached state. -/
theorem System.Reaches.invariant {I : σ → Prop} (h0 : ∀ s, M.init s → I s)
    (hstep : ∀ s a s', M.Reaches ok s → I s → ok s a → M.step s a = some s' → I s')
    {s : σ} (h : M.Reaches ok s) : I s := by
  induction h with
  | init hi => exact h0 _ hi
  | step hr ha hs ih => exact hstep _ _ _ hr ih ha hs

/-- A condition on the steps that is exact for `P`: a run whose steps all meet it has `P`, and
the first step that does not meet it loses `P`. -/
theorem System.Reaches.exact {I P : σ → Prop} (h0 : ∀ s, M.init s → I s)
    (hkeep : ∀ s a t, I s → ok s a → M.step s a = some t → I t) (hP : ∀ s, I s → P s)
    (hlose : ∀ s a t, I s → ¬ ok s a → M.step s a = some t → ¬ P t) {s : σ}
    (h : M.Reaches ok s) : P s ∧ ∀ a t, M.step s a = some t → (P t ↔ ok s a) := by
  have hI : I s := h.invariant h0 (fun s a t _ hI hok hs => hkeep s a t hI hok hs)
  refine ⟨hP s hI, fun a t hs => ⟨fun hPt => ?_, fun hok => ?_⟩⟩
  · by_cases hok : ok s a
    · exact hok
    · exact absurd hPt (hlose s a t hI hok hs)
  · exact hP t (hkeep s a t hI hok hs)

lemma System.Reaches.leads {s t : σ} (h : M.Reachable s) (ht : M.Leads s t) : M.Reachable t := by
  induction ht with
  | refl => exact h
  | step _ hs ih => exact .step ih trivial hs

lemma System.Leads.trans {s t u : σ} (h : M.Leads s t) (h' : M.Leads t u) : M.Leads s u := by
  induction h' with
  | refl => exact h
  | step _ hs ih => exact .step ih hs

lemma System.Leads.head {s t u : σ} {a : α} (hs : M.step s a = some t) (h : M.Leads t u) :
    M.Leads s u :=
  System.Leads.trans (.step .refl hs) h

lemma System.leads_of_exec {s t : σ} {as : List α} (h : M.exec s as = some t) : M.Leads s t := by
  induction as generalizing s with
  | nil =>
    simp only [System.exec, Option.some.injEq] at h
    exact h ▸ .refl
  | cons a as ih =>
    simp only [System.exec, Option.bind_eq_some_iff] at h
    obtain ⟨u, hu, hr⟩ := h
    exact .head hu (ih hr)

lemma System.reachable_of_exec {s t : σ} {as : List α} (h0 : M.init s)
    (h : M.exec s as = some t) : M.Reachable t :=
  System.Reaches.leads (.init h0) (System.leads_of_exec h)

lemma System.exists_of_exec {β : Type} {s : σ} {l : List α} {f : σ → β} {b : β} (h0 : M.init s)
    (h : (M.exec s l).map f = some b) : ∃ t, M.Reachable t ∧ f t = b := by
  obtain ⟨t, ht, hb⟩ := Option.map_eq_some_iff.mp h
  exact ⟨t, System.reachable_of_exec h0 ht, hb⟩

lemma System.Reaches.of_restrict {T : σ → α → Bool} {s : σ}
    (h : (M.restrict T).Reachable s) : M.Reaches (fun s a => T s a = true) s := by
  induction h with
  | init h0 => exact .init h0
  | step _ _ hs ih =>
    simp only [System.restrict, Option.ite_none_right_eq_some] at hs
    exact .step ih hs.1 hs.2

lemma System.exists_of_exec_restrict {β : Type} {T : σ → α → Bool} {s : σ} {l : List α}
    {f : σ → β} {b : β} (h0 : M.init s) (h : ((M.restrict T).exec s l).map f = some b) :
    ∃ t, M.Reaches (fun s a => T s a = true) t ∧ f t = b := by
  obtain ⟨t, ht, hb⟩ := System.exists_of_exec (M := M.restrict T) h0 h
  exact ⟨t, .of_restrict ht, hb⟩

end Transition
