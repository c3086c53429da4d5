import EdNio.Library.Transition

/-!
# Simulations between systems

A system simulates another one when a relation between their states is kept: each step of
the simulated system is matched by any number of steps. A projection is the case in which
the state of the second system is a function of the state of the first.
-/

namespace Transition

variable {σ τ α β : Type} {M : System σ α} {M' : System τ β} {ok : σ → α → Prop}
  {ok' : τ → β → Prop}

/-- The states led to from `s` by finitely many steps that satisfy `ok`. -/
inductive System.LeadsBy (M : System σ α) (ok : σ → α → Prop) (s : σ) : σ → Prop
  | refl : M.LeadsBy ok s s
  | step {t u : σ} {a : α} : M.LeadsBy ok s t → ok t a → M.step t a = some u → M.LeadsBy ok s u

lemma System.LeadsBy.single {s t : σ} {a : α} (hok : ok s a) (hs : M.step s a = some t) :
    M.LeadsBy ok s t :=
  .step .refl hok hs

lemma System.LeadsBy.trans {s t u : σ} (h : M.LeadsBy ok s t) (h' : M.LeadsBy ok t u) :
    M.LeadsBy ok s u := by
  induction h' with
  | refl => exact h
  | step _ hok hs ih => exact .step ih hok hs

lemma System.LeadsBy.head {s t u : σ} {a : α} (hok : ok s a) (hs : M.step s a = some t)
    (h : M.LeadsBy ok t u) : M.LeadsBy ok s u :=
  System.LeadsBy.trans (.single hok hs) h

lemma System.LeadsBy.mono {ok'' : σ → α → Prop} {s t : σ} (h : M.LeadsBy ok s t)
    (hok : ∀ s a, ok s a → ok'' s a) : M.LeadsBy ok'' s t := by
  induction h with
  | refl => exact .refl
  | step _ ha hs ih => exact .step ih (hok _ _ ha) hs

lemma System.Reaches.leadsBy {s t : σ} (h : M.Reaches ok s) (ht : M.LeadsBy ok s t) :
    M.Reaches ok t := by
  induction ht with
  | refl => exact h
  | step _ hok hs ih => exact .step ih hok hs

lemma System.leadsBy_of_exec {T : σ → α → Bool} {s t : σ} {as : List α}
    (h : (M.restrict T).exec s as = some t) : M.LeadsBy (fun s a => T s a = true) s t := by
  induction as generalizing s with
  | nil =>
    simp only [System.exec, Option.some.injEq] at h
    exact h ▸ .refl
  | cons a as ih =>
    simp only [System.exec, Option.bind_eq_some_iff] at h
    obtain ⟨u, hu, hr⟩ := h
    simp only [System.restrict, Option.ite_none_right_eq_some] at hu
    exact .head hu.1 hu.2 (ih hr)

lemma System.LeadsBy.invariant {I : σ → Prop} {s t : σ} (h : M.LeadsBy ok s t) (hs : I s)
    (hstep : ∀ s a t, I s → ok s a → M.step s a = some t → I t) : I t := by
  induction h with
  | refl => exact hs
  | step _ hok ht ih => exact hstep _ _ _ ih hok ht

/-- `M'` matches what `M` does: `R` holds of the first states and is kept by the steps. -/
structure Simulation (M : System σ α) (ok : σ → α → Prop) (M' : System τ β)
    (ok' : τ → β → Prop) (R : σ → τ → Prop) : Prop where
  init : ∀ s, M.init s → ∃ t, M'.init t ∧ R s t
  step : ∀ s a s' t, M.Reaches ok s → M'.Reaches ok' t → R s t → ok s a →
    M.step s a = some s' → ∃ t', M'.LeadsBy ok' t t' ∧ R s' t'

/-- Each run of `M` is matched by a run of `M'`. -/
theorem Simulation.reaches {R : σ → τ → Prop} (h : Simulation M ok M' ok' R) {s : σ}
    (hs : M.Reaches ok s) : ∃ t, M'.Reaches ok' t ∧ R s t := by
  induction hs with
  | init h0 =>
    obtain ⟨t, ht, hR⟩ := h.init _ h0
    exact ⟨t, .init ht, hR⟩
  | step hr hok hstep ih =>
    obtain ⟨t, ht, hR⟩ := ih
    obtain ⟨t', hl, hR'⟩ := h.step _ _ _ t hr ht hR hok hstep
    exact ⟨t', ht.leadsBy hl, hR'⟩

/-- `f` shows each step of `M` as a step of `M'` or as none, so it shows runs as runs. -/
theorem System.Reaches.project {f : σ → τ} (h0 : ∀ s, M.init s → M'.init (f s))
    (hstep : ∀ s a s', M.Reaches ok s → ok s a → M.step s a = some s' →
      f s' = f s ∨ ∃ b, ok' (f s) b ∧ M'.step (f s) b = some (f s')) {s : σ}
    (h : M.Reaches ok s) : M'.Reaches ok' (f s) := by
  have hsim : Simulation M ok M' ok' (fun s t => f s = t) := by
    refine ⟨fun s hs => ⟨_, h0 s hs, rfl⟩, ?_⟩
    rintro s a s' _ hr - rfl hok hs
    rcases hstep s a s' hr hok hs with heq | ⟨b, hb, hs'⟩
    · exact ⟨f s, .refl, heq⟩
    · exact ⟨f s', .single hb hs', rfl⟩
  obtain ⟨_, ht, rfl⟩ := hsim.reaches h
  exact ht

end Transition
