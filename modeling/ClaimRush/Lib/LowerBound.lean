import Mathlib.Data.Nat.Basic
import Mathlib.Tactic.Common

/-!
# Lower-bound search

The binary search that halves the half-open interval `[lo, hi)` on a test.  The
fuel bounds the number of probes; `hi - lo` probes are always enough.
-/

namespace ClaimRush

/-- The loop over `lo` and `hi`. -/
def lowerBound (p : ℕ → Bool) : ℕ → ℕ → ℕ → ℕ
  | 0, lo, _ => lo
  | fuel + 1, lo, hi =>
      if lo < hi then
        let mid := (lo + hi) / 2
        if p mid then lowerBound p fuel (mid + 1) hi else lowerBound p fuel lo mid
      else lo

variable {p : ℕ → Bool}

/-- The probe before the result passed the test. -/
theorem lowerBound_sound (p : ℕ → Bool) (fuel lo hi : ℕ) (h : lo ≤ hi) :
    lo ≤ lowerBound p fuel lo hi ∧ lowerBound p fuel lo hi ≤ hi ∧
      (lowerBound p fuel lo hi = lo ∨ p (lowerBound p fuel lo hi - 1) = true) := by
  induction fuel generalizing lo hi with
  | zero => exact ⟨le_rfl, h, Or.inl rfl⟩
  | succ fuel ih =>
      unfold lowerBound
      dsimp only
      split_ifs with hlt hp
      · obtain ⟨hlo, hhi, hlast⟩ := ih ((lo + hi) / 2 + 1) hi (by omega)
        refine ⟨by omega, hhi, Or.inr ?_⟩
        rcases hlast with heq | hlast
        · rw [heq]
          exact hp
        · exact hlast
      · obtain ⟨hlo, hhi, hlast⟩ := ih lo ((lo + hi) / 2) (by omega)
        exact ⟨hlo, by omega, hlast⟩
      · exact ⟨le_rfl, h, Or.inl rfl⟩

/-- With enough fuel the result itself fails the test, or is the upper end. -/
theorem lowerBound_stop (p : ℕ → Bool) (fuel lo hi : ℕ) (hfuel : hi - lo ≤ fuel) (h : lo ≤ hi) :
    lowerBound p fuel lo hi = hi ∨ p (lowerBound p fuel lo hi) = false := by
  induction fuel generalizing lo hi with
  | zero => exact Or.inl (by simp only [lowerBound]; omega)
  | succ fuel ih =>
      unfold lowerBound
      dsimp only
      split_ifs with hlt hp
      · exact ih _ _ (by omega) (by omega)
      · rcases ih lo ((lo + hi) / 2) (by omega) (by omega) with heq | hstop
        · rw [heq]
          exact Or.inr (by simpa using hp)
        · exact Or.inr hstop
      · exact Or.inl (by omega)

/-- On a test that passes exactly on an initial segment the search finds its end. -/
theorem lowerBound_partition (p : ℕ → Bool) (n : ℕ)
    (hdown : ∀ i j, i ≤ j → j < n → p j = true → p i = true) :
    (∀ i < lowerBound p n 0 n, p i = true) ∧
      ∀ i, lowerBound p n 0 n ≤ i → i < n → p i = false := by
  obtain ⟨-, hle, hlast⟩ := lowerBound_sound p n 0 n (Nat.zero_le n)
  have hstop := lowerBound_stop p n 0 n (Nat.sub_le n 0) (Nat.zero_le n)
  refine ⟨fun i hi ↦ ?_, fun i hi hin ↦ ?_⟩
  · rcases hlast with hzero | hpass
    · omega
    · exact hdown i _ (by omega) (by omega) hpass
  · rcases hstop with hend | hfail
    · omega
    · by_contra hpass
      have := hdown _ i hi hin (by simpa using hpass)
      rw [hfail] at this
      exact Bool.false_ne_true this

/-- The last element that passes, when exactly the first `k` elements pass. -/
theorem find?_reverse_of_partition {α : Type*} {q : α → Bool} {l : List α} {k : ℕ}
    (hk : k ≤ l.length) (hpass : ∀ a ∈ l.take k, q a = true)
    (hfail : ∀ a ∈ l.drop k, q a = false) :
    l.reverse.find? q = if k = 0 then none else l[k - 1]? := by
  have hsplit : l.reverse = (l.drop k).reverse ++ (l.take k).reverse := by
    rw [← List.reverse_append, List.take_append_drop]
  have hnone : (l.drop k).reverse.find? q = none :=
    List.find?_eq_none.mpr fun a ha ↦ by simp [hfail a (List.mem_reverse.mp ha)]
  rw [hsplit, List.find?_append, hnone, Option.none_or]
  rcases Nat.eq_zero_or_pos k with rfl | hpos
  · simp
  · have hne : k ≠ 0 := Nat.pos_iff_ne_zero.mp hpos
    have hlt : k - 1 < l.length := by omega
    have htake : l.take k = l.take (k - 1) ++ [l[k - 1]] := by
      have hsucc : k = k - 1 + 1 := by omega
      conv_lhs => rw [hsucc]
      exact List.take_succ_eq_append_getElem hlt
    have hq : q l[k - 1] = true := hpass _ (htake ▸ List.mem_append_right _ List.mem_cons_self)
    rw [if_neg hne, htake, List.reverse_append, List.reverse_singleton,
      List.singleton_append, List.find?_cons_of_pos hq, List.getElem?_eq_getElem hlt]

/-- The search finds the last element that passes, in a list where what precedes
an element that passes passes too. -/
theorem find?_reverse_eq_lowerBound {α : Type*} {q : α → Bool} {l : List α}
    (hp : ∀ i (h : i < l.length), p i = q l[i])
    (hsorted : l.Pairwise fun a b ↦ q b = true → q a = true) :
    l.reverse.find? q =
      if lowerBound p l.length 0 l.length = 0 then none
      else l[lowerBound p l.length 0 l.length - 1]? := by
  have hdown (i j : ℕ) (hij : i ≤ j) (hj : j < l.length) (hpass : p j = true) : p i = true := by
    rcases Nat.eq_or_lt_of_le hij with rfl | hlt
    · exact hpass
    · rw [hp i (Nat.lt_trans hlt hj)]
      exact List.pairwise_iff_getElem.mp hsorted i j _ hj hlt ((hp j hj).symm.trans hpass)
  obtain ⟨hbelow, habove⟩ := lowerBound_partition p l.length hdown
  have hle := (lowerBound_sound p l.length 0 l.length (Nat.zero_le _)).2.1
  refine find?_reverse_of_partition hle (fun a ha ↦ ?_) fun a ha ↦ ?_
  · obtain ⟨i, hi, rfl⟩ := List.mem_take_iff_getElem.mp ha
    have hlt : i < lowerBound p l.length 0 l.length := Nat.lt_of_lt_of_le hi (Nat.min_le_left _ _)
    rw [← hp i (Nat.lt_of_lt_of_le hlt hle)]
    exact hbelow i hlt
  · obtain ⟨i, hi, rfl⟩ := List.mem_drop_iff_getElem.mp ha
    rw [← hp _ (by omega)]
    exact habove _ (Nat.le_add_right _ _) (by omega)

end ClaimRush
