import Mathlib.Analysis.SpecialFunctions.Integrals.Basic

/-!
# A rate that decays to a floor

A rate falls linearly from its launch value to its floor and stays there.  Its
integral is the area of a trapezoid before the kink and of a rectangle after it.
-/

open intervalIntegral

namespace ClaimRush

noncomputable section

/-- The rate `x` seconds after the launch, for a decay over `period` seconds. -/
def decayingRate (launch floor period x : ℝ) : ℝ :=
  max floor (launch - (launch - floor) / period * x)

/-- What is emitted from `s` to `e`, seconds after the launch. -/
def emission (launch floor period s e : ℝ) : ℝ :=
  ∫ x in s..e, decayingRate launch floor period x

section

variable {launch floor period : ℝ}

theorem continuous_decayingRate (launch floor period : ℝ) :
    Continuous (decayingRate launch floor period) := by
  unfold decayingRate
  fun_prop

/-- Emissions of adjacent intervals add up. -/
theorem emission_add (launch floor period a b c : ℝ) :
    emission launch floor period a b + emission launch floor period b c =
      emission launch floor period a c :=
  integral_add_adjacent_intervals ((continuous_decayingRate _ _ _).intervalIntegrable _ _)
    ((continuous_decayingRate _ _ _).intervalIntegrable _ _)

@[simp] theorem emission_self (launch floor period a : ℝ) :
    emission launch floor period a a = 0 :=
  integral_same

theorem emission_nonneg (hfloor : 0 ≤ floor) {a b : ℝ} (hab : a ≤ b) :
    0 ≤ emission launch floor period a b :=
  integral_nonneg hab fun _ _ ↦ hfloor.trans (le_max_left _ _)

/-- At least the floor is emitted. -/
theorem floor_mul_le_emission {a b : ℝ} (hab : a ≤ b) :
    floor * (b - a) ≤ emission launch floor period a b := by
  have hconst : ∫ _ in a..b, floor = floor * (b - a) := by
    rw [integral_const, smul_eq_mul, mul_comm]
  rw [← hconst]
  exact integral_mono_on hab (continuous_const.intervalIntegrable _ _)
    ((continuous_decayingRate _ _ _).intervalIntegrable _ _) fun _ _ ↦ le_max_left _ _

/-- Before the kink the rate is linear. -/
theorem decayingRate_of_le (hfloor : floor ≤ launch) (hperiod : 0 < period) {x : ℝ}
    (hx : x ≤ period) :
    decayingRate launch floor period x = launch - (launch - floor) / period * x := by
  refine max_eq_right ?_
  have hle : (launch - floor) / period * x ≤ (launch - floor) / period * period :=
    mul_le_mul_of_nonneg_left hx (div_nonneg (sub_nonneg.mpr hfloor) hperiod.le)
  rw [div_mul_cancel₀ _ hperiod.ne'] at hle
  linarith

/-- From the kink on the rate is the floor. -/
theorem decayingRate_of_ge (hfloor : floor ≤ launch) (hperiod : 0 < period) {x : ℝ}
    (hx : period ≤ x) : decayingRate launch floor period x = floor := by
  refine max_eq_left ?_
  have hle : (launch - floor) / period * period ≤ (launch - floor) / period * x :=
    mul_le_mul_of_nonneg_left hx (div_nonneg (sub_nonneg.mpr hfloor) hperiod.le)
  rw [div_mul_cancel₀ _ hperiod.ne'] at hle
  linarith

/-- The trapezoid before the kink. -/
theorem emission_of_le (hfloor : floor ≤ launch) (hperiod : 0 < period) {a b : ℝ} (hab : a ≤ b)
    (hb : b ≤ period) :
    emission launch floor period a b =
      (decayingRate launch floor period a + decayingRate launch floor period b) / 2 * (b - a) := by
  have hlinear : emission launch floor period a b =
      ∫ x in a..b, (launch - (launch - floor) / period * x) := by
    refine integral_congr fun x hx ↦ decayingRate_of_le hfloor hperiod ?_
    rw [Set.uIcc_of_le hab] at hx
    exact hx.2.trans hb
  rw [hlinear, decayingRate_of_le hfloor hperiod (hab.trans hb),
    decayingRate_of_le hfloor hperiod hb,
    integral_sub (continuous_const.intervalIntegrable _ _)
      ((continuous_const_mul _).intervalIntegrable _ _),
    integral_const, integral_const_mul, integral_id, smul_eq_mul]
  ring

/-- The rectangle after the kink. -/
theorem emission_of_ge (hfloor : floor ≤ launch) (hperiod : 0 < period) {a b : ℝ} (hab : a ≤ b)
    (ha : period ≤ a) : emission launch floor period a b = floor * (b - a) := by
  have hconst : emission launch floor period a b = ∫ _ in a..b, floor := by
    refine integral_congr fun x hx ↦ decayingRate_of_ge hfloor hperiod ?_
    rw [Set.uIcc_of_le hab] at hx
    exact ha.trans hx.1
  rw [hconst, integral_const, smul_eq_mul, mul_comm]

end

end

end ClaimRush
