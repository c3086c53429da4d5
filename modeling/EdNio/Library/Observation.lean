import EdNio.Library.Transition

/-!
# Observations

A machine answers each input with an output. Two of its states are told apart by a sequence of
inputs to which they give different outputs, or which only one of them accepts.
-/

namespace Transition

/-- `run s a = none` when the machine does not accept `a` in state `s`. -/
structure Machine (σ α β : Type) where
  run : σ → α → Option (σ × β)

variable {σ α β : Type} {M : Machine σ α β} {s s' t t' : σ} {a : α} {b c : β}

/-- The outputs to a sequence of inputs, if all of them are accepted. -/
def Machine.outputs (M : Machine σ α β) : σ → List α → Option (List β)
  | _, [] => some []
  | s, a :: as => (M.run s a).bind (fun (t, b) => (M.outputs t as).map (b :: ·))

def Machine.after (M : Machine σ α β) : σ → List α → Option σ
  | s, [] => some s
  | s, a :: as => (M.run s a).bind (fun (t, _) => M.after t as)

def Machine.ToldApart (M : Machine σ α β) (s t : σ) : Prop :=
  ∃ as, M.outputs s as ≠ M.outputs t as

lemma outputs_cons (hs : M.run s a = some (s', b)) (as : List α) :
    M.outputs s (a :: as) = (M.outputs s' as).map (b :: ·) := by
  simp [Machine.outputs, hs]

/-- After the same output the rest decides. -/
lemma outputs_cons_inj (hs : M.run s a = some (s', b)) (ht : M.run t a = some (t', b))
    {as : List α} :
    M.outputs s (a :: as) = M.outputs t (a :: as) ↔ M.outputs s' as = M.outputs t' as := by
  rw [outputs_cons hs, outputs_cons ht]
  exact (Option.map_injective (fun _ _ h => (List.cons.inj h).2)).eq_iff

lemma after_cons (hs : M.run s a = some (s', b)) (as : List α) :
    M.after s (a :: as) = M.after s' as := by
  simp [Machine.after, hs]

/-- Only one of the states accepts the input. -/
lemma Machine.ToldApart.of_refused (hs : M.run s a = none) (ht : M.run t a = some (t', c)) :
    M.ToldApart s t := by
  refine ⟨[a], ?_⟩
  simp [Machine.outputs, hs, ht]

lemma Machine.ToldApart.of_output (hs : M.run s a = some (s', b)) (ht : M.run t a = some (t', c))
    (hne : b ≠ c) : M.ToldApart s t := by
  refine ⟨[a], ?_⟩
  simpa [Machine.outputs, hs, ht] using hne

/-- States are told apart by the states they lead to. -/
lemma Machine.ToldApart.of_step (hs : M.run s a = some (s', b)) (ht : M.run t a = some (t', c))
    (h : M.ToldApart s' t') : M.ToldApart s t := by
  by_cases hbc : b = c
  · obtain ⟨as, has⟩ := h
    rw [← hbc] at ht
    exact ⟨a :: as, fun heq => has ((outputs_cons_inj hs ht).mp heq)⟩
  · exact .of_output hs ht hbc

lemma Machine.ToldApart.of_after {as : List α} (hs : M.after s as = some s')
    (ht : M.after t as = some t') (h : M.ToldApart s' t') : M.ToldApart s t := by
  induction as generalizing s t with
  | nil =>
    cases hs
    cases ht
    exact h
  | cons a as ih =>
    obtain ⟨⟨u, b⟩, hu, hs⟩ := Option.bind_eq_some_iff.mp hs
    obtain ⟨⟨v, c⟩, hv, ht⟩ := Option.bind_eq_some_iff.mp ht
    exact .of_step hu hv (ih hs ht)

end Transition
