import ClaimRush.Furnace.BonusCaps
import ClaimRush.Furnace.Extend

/-!
# Duration weights and the principal they price

The weight of a duration rises from breakpoint to breakpoint, so the weights that
the rungs of a ladder add are together the weight of one extension.  Priced on one
basis, the rungs are worth no more than the extension and at most one wei less is
the extension.
-/

namespace ClaimRush.Furnace

open Constants

/-- From `c` on the function rises, and is at least `m`. -/
def Rising (c m : ℕ) (f : ℕ → ℕ) : Prop :=
  ∀ d d', c ≤ d → d ≤ d' → m ≤ f d ∧ f d ≤ f d'

theorem Rising.ite {c c' m m' : ℕ} {f g : ℕ → ℕ}
    (hf : ∀ d d', c ≤ d → d ≤ d' → d' ≤ c' → m ≤ f d ∧ f d ≤ f d' ∧ f d' ≤ m')
    (hm : m ≤ m') (hg : Rising c' m' g) : Rising c m fun d ↦ if d ≤ c' then f d else g d := by
  intro d d' hc hle
  by_cases hd : d ≤ c'
  · by_cases hd' : d' ≤ c'
    · simp only [if_pos hd, if_pos hd']
      exact ⟨(hf d d' hc hle hd').1, (hf d d' hc hle hd').2.1⟩
    · simp only [if_pos hd, if_neg hd']
      obtain ⟨hlow, -, hhigh⟩ := hf d d hc le_rfl hd
      exact ⟨hlow, hhigh.trans (hg d' d' (by omega) le_rfl).1⟩
  · simp only [if_neg hd, if_neg (show ¬ d' ≤ c' by omega)]
    obtain ⟨hlow, hmono⟩ := hg d d' (by omega) hle
    exact ⟨hm.trans hlow, hmono⟩

theorem segmentWeight_rises {d d' leftSec rightSec leftBps rightBps : ℕ} (hle : d ≤ d')
    (hright : d' ≤ rightSec) (hbps : leftBps ≤ rightBps) :
    leftBps * WEIGHT_PRECISION ≤ segmentWeight d leftSec rightSec leftBps rightBps ∧
      segmentWeight d leftSec rightSec leftBps rightBps ≤
        segmentWeight d' leftSec rightSec leftBps rightBps ∧
      segmentWeight d' leftSec rightSec leftBps rightBps ≤ rightBps * WEIGHT_PRECISION := by
  refine ⟨Nat.le_add_right _ _, Nat.add_le_add_left ?_ _, ?_⟩
  · exact Nat.div_le_div_right (Nat.mul_le_mul_right _ (Nat.sub_le_sub_right hle _))
  · have hspan : (d' - leftSec) * ((rightBps - leftBps) * WEIGHT_PRECISION) /
        (rightSec - leftSec) ≤ (rightBps - leftBps) * WEIGHT_PRECISION :=
      Nat.div_le_of_le_mul (Nat.mul_le_mul_right _ (Nat.sub_le_sub_right hright _))
    have hsplit : rightBps * WEIGHT_PRECISION =
        leftBps * WEIGHT_PRECISION + (rightBps - leftBps) * WEIGHT_PRECISION := by
      rw [← Nat.add_mul, Nat.add_sub_cancel' hbps]
    rw [hsplit]
    exact Nat.add_le_add_left hspan _

/-- The breakpoints follow one another. -/
theorem breakpoints_lt :
    0 < DAY ∧ MIN_LOCK_DURATION < 14 * DAY ∧ 270 * DAY < MAX_LOCK_DURATION := by
  simp [DAY, MIN_LOCK_DURATION, MAX_LOCK_DURATION]

theorem clampDuration_mono {d d' : ℕ} (h : d ≤ d') : clampDuration d ≤ clampDuration d' := by
  obtain ⟨hday, hmin, hmax⟩ := breakpoints_lt
  unfold clampDuration
  split_ifs <;> omega

theorem durationWeight_mono {d d' : ℕ} (h : d ≤ d') : durationWeight d ≤ durationWeight d' := by
  have hlast : Rising (270 * DAY) (6500 * WEIGHT_PRECISION)
      fun d ↦ segmentWeight d (270 * DAY) MAX_LOCK_DURATION 6500 BPS_DENOM := fun d d' _ hle ↦
    ⟨Nat.le_add_right _ _, Nat.add_le_add_left (Nat.div_le_div_right
      (Nat.mul_le_mul_right _ (Nat.sub_le_sub_right hle _))) _⟩
  have hsegment (c c' l r : ℕ) (hlr : l ≤ r) (g : ℕ → ℕ)
      (hg : Rising c' (r * WEIGHT_PRECISION) g) :
      Rising c (l * WEIGHT_PRECISION) fun d ↦ if d ≤ c' then segmentWeight d c c' l r else g d :=
    .ite (fun _ _ _ hle hright ↦ segmentWeight_rises hle hright hlr)
      (Nat.mul_le_mul_right _ hlr) hg
  have h270 := hsegment (180 * DAY) (270 * DAY) 4000 6500 (by decide) _ hlast
  have h180 := hsegment (90 * DAY) (180 * DAY) 1500 4000 (by decide) _ h270
  have h90 := hsegment (30 * DAY) (90 * DAY) 500 1500 (by decide) _ h180
  have h30 := hsegment (21 * DAY) (30 * DAY) 300 500 (by decide) _ h90
  have h21 := hsegment (14 * DAY) (21 * DAY) 175 300 (by decide) _ h30
  have h14 := hsegment MIN_LOCK_DURATION (14 * DAY) 100 175 (by decide) _ h21
  have htable : Rising 0 (100 * WEIGHT_PRECISION) _ :=
    .ite (f := fun _ ↦ 100 * WEIGHT_PRECISION) (fun _ _ _ _ _ ↦ ⟨le_rfl, le_rfl, le_rfl⟩) le_rfl h14
  exact (htable _ _ (Nat.zero_le _) (clampDuration_mono h)).2

/-- Added weights telescope. -/
theorem weightDelta_add {d₀ d₁ d₂ : ℕ} (h₁ : d₀ ≤ d₁) (h₂ : d₁ ≤ d₂) :
    weightDelta d₁ d₀ + weightDelta d₂ d₁ = weightDelta d₂ d₀ := by
  have hfirst := durationWeight_mono h₁
  have hsecond := durationWeight_mono h₂
  simp only [weightDelta]
  split_ifs <;> omega

/-! ## Pricing on the basis -/

variable {basis amount delta : ℕ}

/-- A rung is worth at most its weight of the basis. -/
theorem basisPrincipalEff_mul_le (hle : basis ≤ amount) (hpos : 0 < amount) :
    basisPrincipalEff (amount * delta / WEIGHT_DENOM) basis amount * WEIGHT_DENOM ≤
      basis * delta := by
  have hfloor : amount * delta / WEIGHT_DENOM * WEIGHT_DENOM ≤ amount * delta :=
    Nat.div_mul_le_self _ _
  unfold basisPrincipalEff
  split
  · refine Nat.le_of_mul_le_mul_left ?_ hpos
    have hrescaled := Nat.mul_div_le (amount * delta / WEIGHT_DENOM * basis) amount
    calc amount * (amount * delta / WEIGHT_DENOM * basis / amount * WEIGHT_DENOM)
        = amount * (amount * delta / WEIGHT_DENOM * basis / amount) * WEIGHT_DENOM := by ring
      _ ≤ amount * delta / WEIGHT_DENOM * basis * WEIGHT_DENOM := Nat.mul_le_mul_right _ hrescaled
      _ = amount * delta / WEIGHT_DENOM * WEIGHT_DENOM * basis := by ring
      _ ≤ amount * delta * basis := Nat.mul_le_mul_right _ hfloor
      _ = amount * (basis * delta) := by ring
  · next hnot =>
      rw [show basis = amount by omega]
      exact hfloor

theorem WEIGHT_DENOM_pos : 0 < WEIGHT_DENOM := by
  simp [WEIGHT_DENOM]

/-- The two floors lose at most one wei of the weight of the basis. -/
theorem mul_div_le_basisPrincipalEff (hle : basis ≤ amount) (hpos : 0 < basis) :
    basis * delta / WEIGHT_DENOM ≤
      basisPrincipalEff (amount * delta / WEIGHT_DENOM) basis amount + 1 := by
  have hamount : 0 < amount := hpos.trans_le hle
  unfold basisPrincipalEff
  split
  · rw [← Nat.lt_succ_iff, Nat.div_lt_iff_lt_mul WEIGHT_DENOM_pos]
    have hfloor : amount * delta < (amount * delta / WEIGHT_DENOM + 1) * WEIGHT_DENOM :=
      (Nat.div_lt_iff_lt_mul WEIGHT_DENOM_pos).mp (Nat.lt_succ_self _)
    generalize amount * delta / WEIGHT_DENOM = q at hfloor ⊢
    have hrescaled : q * basis < (q * basis / amount + 1) * amount :=
      (Nat.div_lt_iff_lt_mul hamount).mp (Nat.lt_succ_self _)
    generalize q * basis / amount = p at hrescaled ⊢
    refine Nat.lt_of_mul_lt_mul_left (a := amount) ?_
    calc amount * (basis * delta) = basis * (amount * delta) := by ring
      _ < basis * ((q + 1) * WEIGHT_DENOM) := Nat.mul_lt_mul_of_pos_left hfloor hpos
      _ = (q * basis + basis) * WEIGHT_DENOM := by ring
      _ ≤ ((p + 1) * amount + amount) * WEIGHT_DENOM :=
          Nat.mul_le_mul_right _ (Nat.add_le_add hrescaled.le hle)
      _ = amount * ((p + 1).succ * WEIGHT_DENOM) := by
          rw [Nat.succ_eq_add_one]
          ring
  · next hnot =>
      rw [show basis = amount by omega]
      exact Nat.le_succ _

end ClaimRush.Furnace
