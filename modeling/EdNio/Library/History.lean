import EdNio.Library.Transition

/-!
# Histories

A system with a log of what its steps do, and properties of each event of the log and the
events before it.
-/

namespace Transition

/-- Each event satisfies `P` with the events before it. -/
def Always {β : Type} (P : List β → β → Prop) (log : List β) : Prop :=
  ∀ before e after, log = before ++ e :: after → P before e

structure Recorded (σ β : Type) where
  state : σ
  log : List β

variable {σ α β : Type}

/-- `M` with a log; a step appends at most one event. -/
def System.recorded (M : System σ α) (record : σ → α → Option β) : System (Recorded σ β) α where
  init s := M.init s.state ∧ s.log = []
  step s a := (M.step s.state a).map (fun t => ⟨t, s.log ++ (record s.state a).toList⟩)

variable {M : System σ α} {record : σ → α → Option β} {P : List β → β → Prop}
  {ok : Recorded σ β → α → Prop} {s t : Recorded σ β} {a : α}

lemma Always.nil : Always P [] := by
  intro before e after h
  simp at h

/-- An event at the end of the log, or one before it. -/
lemma concat_eq_append_cons {log before after : List β} {e x : β}
    (h : log ++ [x] = before ++ e :: after) :
    (∃ after', after = after' ++ [x] ∧ log = before ++ e :: after') ∨
      after = [] ∧ log = before ∧ x = e := by
  rcases List.eq_nil_or_concat after with rfl | ⟨after', y, rfl⟩
  · obtain ⟨h1, h2⟩ := List.append_inj' h rfl
    exact .inr ⟨rfl, h1, List.singleton_inj.mp h2⟩
  · rw [List.concat_eq_append] at h ⊢
    rw [← List.cons_append, ← List.append_assoc] at h
    obtain ⟨h1, h2⟩ := List.append_inj' h rfl
    exact .inl ⟨after', by rw [List.singleton_inj.mp h2], h1⟩

lemma always_concat {log : List β} {x : β} : Always P (log ++ [x]) ↔ Always P log ∧ P log x := by
  constructor
  · intro h
    refine ⟨fun before e after heq => ?_, h log x [] rfl⟩
    exact h before e (after ++ [x]) (by rw [heq, List.append_assoc, List.cons_append])
  · rintro ⟨h, hx⟩ before e after heq
    rcases concat_eq_append_cons heq with ⟨after', -, hlog⟩ | ⟨-, rfl, rfl⟩
    · exact h before e after' hlog
    · exact hx

lemma recorded_step (hs : (M.recorded record).step s a = some t) :
    M.step s.state a = some t.state ∧ t.log = s.log ++ (record s.state a).toList := by
  obtain ⟨u, hu, rfl⟩ := Option.map_eq_some_iff.mp hs
  exact ⟨hu, rfl⟩

lemma System.Reaches.of_recorded (h : (M.recorded record).Reaches ok s) : M.Reachable s.state := by
  induction h with
  | init h0 => exact .init h0.1
  | step _ _ hs ih => exact .step ih trivial (recorded_step hs).1

/-- A run can be recorded. -/
lemma System.Reaches.exists_recorded {s : σ} (h : M.Reachable s) :
    ∃ x, (M.recorded record).Reachable x ∧ x.state = s := by
  induction h with
  | init h0 => exact ⟨⟨_, []⟩, .init ⟨h0, rfl⟩, rfl⟩
  | step _ _ hs ih =>
    obtain ⟨x, hr, rfl⟩ := ih
    exact ⟨_, .step hr trivial (Option.map_eq_some_iff.mpr ⟨_, hs, rfl⟩), rfl⟩

/-- If every step of the runs records only events that satisfy `P`, so does the log. -/
theorem recorded_always
    (hP : ∀ s a t e, (M.recorded record).Reaches ok s → ok s a → M.step s.state a = some t →
      record s.state a = some e → P s.log e)
    (h : (M.recorded record).Reaches ok s) : Always P s.log := by
  induction h with
  | init h0 =>
    rw [h0.2]
    exact .nil
  | step hr ha hs ih =>
    obtain ⟨hstep, hlog⟩ := recorded_step hs
    rw [hlog]
    cases he : record _ _ with
    | none => simpa using ih
    | some e => exact always_concat.mpr ⟨ih, hP _ _ _ e hr ha hstep he⟩

end Transition
