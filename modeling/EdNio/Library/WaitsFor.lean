import Mathlib.Data.Fintype.EquivFin
import Mathlib.Logic.Relation
import Mathlib.Tactic.Lemma

/-!
# Waiting for one another

Members of a finite family wait for one another. A member is deadlocked when the members
it waits for, directly or through others, lead to a cycle. The deadlocked members are the
largest set in which each waits for another of the set.
-/

namespace WaitsFor
open Relation

variable {ι : Type} {W W' : ι → ι → Prop} {i : ι}

/-- The waits that start at `i` come to a cycle. -/
def Deadlocked (W : ι → ι → Prop) (i : ι) : Prop :=
  ∃ j, ReflTransGen W i j ∧ TransGen W j j

lemma Deadlocked.waits (h : Deadlocked W i) : ∃ j, W i j ∧ Deadlocked W j := by
  obtain ⟨k, hik, hk⟩ := h
  rcases ReflTransGen.cases_head hik with rfl | ⟨j, hij, hjk⟩
  · obtain ⟨j, hij, hji⟩ := TransGen.head'_iff.mp hk
    exact ⟨j, hij, i, hji, hk⟩
  · exact ⟨j, hij, k, hjk, hk⟩

theorem acc_of_not_deadlocked [Finite ι] (h : ¬ Deadlocked W i) : Acc (fun j k => W k j) i := by
  -- the members that `i` leads to
  let S := {k // ReflTransGen W i k}
  let r : S → S → Prop := fun j k => TransGen W k.1 j.1
  have hfin : Finite S := Subtype.finite
  have htrans : IsTrans S r := ⟨fun _ _ _ hab hbc => hbc.trans hab⟩
  have hirrefl : Std.Irrefl r := ⟨fun k hk => h ⟨k.1, k.2, hk⟩⟩
  have hwf : WellFounded r := Finite.wellFounded_of_trans_of_irrefl r
  have hacc : ∀ k : S, Acc (fun j k => W k j) k.1 := by
    intro k
    induction k using hwf.induction with
    | _ k ih => exact Acc.intro _ (fun j hj => ih ⟨j, k.2.tail hj⟩ (.single hj))
  exact hacc ⟨i, .refl⟩

theorem deadlocked_of_closed [Finite ι] {S : Set ι} (hS : ∀ k ∈ S, ∃ j ∈ S, W k j) (hi : i ∈ S) :
    Deadlocked W i := by
  by_contra h
  induction acc_of_not_deadlocked h with
  | intro k _ ih =>
    obtain ⟨j, hj, hkj⟩ := hS k hi
    refine ih j hkj hj (fun hd => h ?_)
    obtain ⟨l, hjl, hl⟩ := hd
    exact ⟨l, hjl.head hkj, hl⟩

/-- Waits among the deadlocked members that stay keep them deadlocked. -/
theorem Deadlocked.of_kept [Finite ι] (h : Deadlocked W i)
    (hkept : ∀ k j, W k j → Deadlocked W j → W' k j) : Deadlocked W' i := by
  refine deadlocked_of_closed (S := {k | Deadlocked W k}) (fun k hk => ?_) h
  obtain ⟨j, hkj, hj⟩ := hk.waits
  exact ⟨j, hj, hkept k j hkj hj⟩

/-- Members that wait only for members of a higher rank are not deadlocked. -/
theorem not_deadlocked_of_rank {rank : ι → Nat} (hrank : ∀ k j, W k j → rank k < rank j) :
    ¬ Deadlocked W i := by
  rintro ⟨k, -, hk⟩
  have hlt : ∀ a b, TransGen W a b → rank a < rank b := by
    intro a b hab
    induction hab with
    | single h => exact hrank _ _ h
    | tail _ h ih => exact ih.trans (hrank _ _ h)
  exact Nat.lt_irrefl _ (hlt k k hk)

end WaitsFor
