import Mathlib.Order.Nat
import Mathlib.Tactic.Lemma

/-!
# Rounds of a loop

A loop that takes an input in each of its rounds, and the first round that does not go on.
-/

namespace Rounds

variable {σ α : Type} {f : σ → α → σ} {s : σ} {as : Nat → α}

def after (f : σ → α → σ) (s : σ) (as : Nat → α) : Nat → σ
  | 0 => s
  | n + 1 => f (after f s as n) (as n)

/-- What the rounds that go on keep. -/
lemma after_invariant {P : Nat → σ → Prop} {go : Nat → Prop} (h0 : P 0 s)
    (hstep : ∀ n t, P n t → go n → P (n + 1) (f t (as n))) {n : Nat} (hgo : ∀ i < n, go i) :
    P n (after f s as n) := by
  induction n with
  | zero => exact h0
  | succ n ih =>
    exact hstep n _ (ih (fun i hi => hgo i (Nat.lt_succ_of_lt hi))) (hgo n (Nat.lt_succ_self n))

lemma after_stays {n : Nat} (h : ∀ a, f (after f s as n) a = after f s as n) {m : Nat}
    (hm : n ≤ m) : after f s as m = after f s as n := by
  induction m, hm using Nat.le_induction with
  | base => rfl
  | succ m _ ih => rw [after, ih, h]

/-- The first round that is the last or does not go on decides. -/
theorem ends_iff {go last : Nat → Prop} {ends : Prop}
    (hlast : ∀ n, (∀ i < n, go i ∧ ¬ last i) → last n → ends)
    (hfail : ∀ n, (∀ i < n, go i ∧ ¬ last i) → ¬ last n → ¬ go n → ¬ ends)
    (hforever : (∀ i, go i ∧ ¬ last i) → ¬ ends) : ends ↔ ∃ n, last n ∧ ∀ i < n, go i := by
  constructor
  · intro he
    by_contra hnone
    have hall : ∀ n, go n ∧ ¬ last n := by
      intro n
      induction n using Nat.strong_induction_on with
      | _ n ih =>
        have hl : ¬ last n := fun hl => hnone ⟨n, hl, fun i hi => (ih i hi).1⟩
        refine ⟨?_, hl⟩
        by_contra hg
        exact hfail n ih hl hg he
    exact hforever hall he
  · rintro ⟨n, hl, hgo⟩
    by_contra hne
    have hnone : ∀ i, i < n → ¬ last i := by
      intro i hi
      induction i using Nat.strong_induction_on with
      | _ i ih =>
        intro hli
        refine hne (hlast i (fun j hj => ?_) hli)
        have hjn := Nat.lt_trans hj hi
        exact ⟨hgo j hjn, ih j hj hjn⟩
    exact hne (hlast n (fun i hi => ⟨hgo i hi, hnone i hi⟩) hl)

end Rounds
