import Mathlib.Data.List.Induction
import Mathlib.Data.List.Perm.Basic

/-!
# Removal by swapping with the last entry

An entry is overwritten with the last one and the list is popped.  What stood
before the entry keeps its place, and what stood behind it is only permuted.
-/

namespace ClaimRush

variable {α : Type*}

theorem getD_length_append_cons (pre post : List α) (u d : α) :
    (pre ++ u :: post).getD pre.length d = u := by
  simp

/-- The entry behind `pre` goes, the last entry takes its place. -/
theorem exists_swapPop (pre post : List α) (u d : α) :
    ∃ rest : List α, rest.Perm post ∧
      ((pre ++ u :: post).set pre.length
        ((pre ++ u :: post).getD ((pre ++ u :: post).length - 1) d)).dropLast = pre ++ rest := by
  cases post using List.reverseRecOn with
  | nil => exact ⟨[], .refl _, by simp⟩
  | append_singleton mid last =>
      have hlast : (pre ++ u :: (mid ++ [last])).getD
          ((pre ++ u :: (mid ++ [last])).length - 1) d = last := by
        have hsplit : pre ++ u :: (mid ++ [last]) = (pre ++ u :: mid) ++ [last] := by simp
        rw [hsplit, List.length_append, List.length_singleton, Nat.add_sub_cancel]
        exact getD_length_append_cons _ [] last d
      refine ⟨last :: mid, (List.perm_append_singleton last mid).symm, ?_⟩
      rw [hlast, List.set_append_right _ _ (Nat.le_refl _), Nat.sub_self, List.set_cons_zero,
        ← List.cons_append, ← List.append_assoc, List.dropLast_concat]

end ClaimRush
