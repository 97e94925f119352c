import ClaimRush.Lib.Outcome
import Mathlib.Tactic.Ring
import Mathlib.Tactic.Linarith

/-!
# Rounded products and quotients

Floor and ceiling division of naturals, stated through the two cross-multiplied
inequalities that later arguments use.  `mulDiv` and `mulDivCeil` are the
full-precision products: only the final quotient has to fit a word.
-/

namespace ClaimRush

universe v

/-- Quotient rounded towards infinity. -/
def ceilDiv (a b : ℕ) : ℕ := a / b + if a % b = 0 then 0 else 1

theorem le_ceilDiv_mul (a : ℕ) {b : ℕ} (hb : 0 < b) : a ≤ ceilDiv a b * b := by
  have hdiv := Nat.div_add_mod a b
  have hmod := Nat.mod_lt a hb
  unfold ceilDiv
  split
  · rw [Nat.add_zero, Nat.mul_comm]
    omega
  · rw [Nat.add_mul, Nat.mul_comm (a / b)]
    omega

theorem ceilDiv_mul_lt (a : ℕ) {b : ℕ} (hb : 0 < b) : ceilDiv a b * b < a + b := by
  have hdiv := Nat.div_add_mod a b
  unfold ceilDiv
  split
  · rw [Nat.add_zero, Nat.mul_comm]
    omega
  · rw [Nat.add_mul, Nat.mul_comm (a / b)]
    omega

theorem div_le_ceilDiv (a b : ℕ) : a / b ≤ ceilDiv a b := Nat.le_add_right _ _

theorem ceilDiv_le_iff {a b c : ℕ} (hb : 0 < b) : ceilDiv a b ≤ c ↔ a ≤ c * b := by
  constructor
  · intro h
    exact (le_ceilDiv_mul a hb).trans (Nat.mul_le_mul_right b h)
  · intro h
    by_contra hc
    have hmul : (c + 1) * b ≤ ceilDiv a b * b := Nat.mul_le_mul_right b (by omega)
    have hlt := ceilDiv_mul_lt a hb
    rw [Nat.add_mul] at hmul
    omega

@[simp] theorem ceilDiv_zero (b : ℕ) : ceilDiv 0 b = 0 := by
  simp [ceilDiv]

theorem ceilDiv_mono {a a' b : ℕ} (hb : 0 < b) (h : a ≤ a') :
    ceilDiv a b ≤ ceilDiv a' b :=
  (ceilDiv_le_iff hb).mpr (h.trans (le_ceilDiv_mul a' hb))

theorem ceilDiv_pos {a b : ℕ} (hb : 0 < b) (ha : 0 < a) : 0 < ceilDiv a b := by
  by_contra h
  have := (ceilDiv_le_iff hb (c := 0) (a := a)).mp (by omega)
  omega

section Checked

variable {ε : Type v} [HasPanic ε] {E : ε → Prop}

/-- `⌊x * y / d⌋`, reverting on a zero divisor or an oversized quotient. -/
def mulDiv (x y d : ℕ) : Except ε ℕ :=
  if d = 0 then .error HasPanic.arithmetic else uint256 (x * y / d)

/-- `⌈x * y / d⌉`, reverting on a zero divisor or an oversized quotient. -/
def mulDivCeil (x y d : ℕ) : Except ε ℕ :=
  if d = 0 then .error HasPanic.arithmetic else uint256 (ceilDiv (x * y) d)

@[simp] theorem outcome_mulDiv {Q : ℕ → Prop} {x y d : ℕ} (hd : d ≠ 0) :
    Outcome Q E (mulDiv x y d) ↔
      (x * y / d < uint256Bound → Q (x * y / d)) ∧
      (¬ x * y / d < uint256Bound → E HasPanic.arithmetic) := by
  simp [mulDiv, hd]

@[simp] theorem outcome_mulDivCeil {Q : ℕ → Prop} {x y d : ℕ} (hd : d ≠ 0) :
    Outcome Q E (mulDivCeil x y d) ↔
      (ceilDiv (x * y) d < uint256Bound → Q (ceilDiv (x * y) d)) ∧
      (¬ ceilDiv (x * y) d < uint256Bound → E HasPanic.arithmetic) := by
  simp [mulDivCeil, hd]

theorem mulDiv_eq_ok {x y d q : ℕ} :
    (mulDiv x y d : Except ε ℕ) = .ok q ↔
      d ≠ 0 ∧ x * y / d < uint256Bound ∧ x * y / d = q := by
  by_cases hd : d = 0 <;> simp [mulDiv, hd, uint256_eq_ok]

end Checked

end ClaimRush
