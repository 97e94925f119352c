import Mathlib.Tactic.Ring
import Mathlib.Tactic.Linarith

/-!
# Linear streams

A stream pays `rate` units a second until `finish`; `last` is the time up to
which it has paid.  A funding folds what is still scheduled, the carried dust
and the new amount into a fresh schedule of a fixed window, and carries the
remainder of the division.  Paying and funding move value between the stream
and its surroundings, and `liability` accounts for each unit once.
-/

namespace ClaimRush

structure LinearStream where
  rate : ℕ := 0
  finish : ℕ := 0
  last : ℕ := 0
  carry : ℕ := 0
  deriving DecidableEq, Repr, Inhabited

namespace LinearStream

variable (s : LinearStream)

/-- Value scheduled after the cursor. -/
def scheduled : ℕ := (s.finish - s.last) * s.rate

/-- Value that the stream still owes. -/
def liability : ℕ := s.carry + s.scheduled

/-- Value owed for the seconds up to `t` and not paid yet. -/
def due (t : ℕ) : ℕ := (min t s.finish - s.last) * s.rate

/-- Pay what is due at `now`: the new stream and the payment.  A finished
schedule is cleared. -/
def accrue (now : ℕ) : LinearStream × ℕ :=
  if s.rate = 0 ∨ s.finish = 0 then ({ s with last := now }, 0)
  else if now ≤ s.last then (s, 0)
  else
    let t := min now s.finish
    if t ≤ s.last then (s, 0)
    else if s.finish ≤ t then ({ s with rate := 0, finish := 0, last := t }, (t - s.last) * s.rate)
    else ({ s with last := t }, (t - s.last) * s.rate)

/-- Fold `amount` into a fresh schedule of `window` seconds from `now` on. -/
def fund (window amount now : ℕ) : LinearStream :=
  let total := (s.finish - now) * s.rate + amount + s.carry
  { rate := total / window, finish := now + window, last := now, carry := total % window }

variable {s}

theorem scheduled_eq_zero (h : s.rate = 0 ∨ s.finish = 0) : s.scheduled = 0 := by
  rcases h with h | h <;> simp [scheduled, h]

/-- A payment either finds nothing due and moves at most the cursor of an empty
schedule, or moves the cursor to `min now finish` and clears a finished
schedule. -/
theorem accrue_cases (now : ℕ) :
    ((s.rate = 0 ∨ s.finish = 0) ∧ s.accrue now = ({ s with last := now }, 0)) ∨
      (min now s.finish ≤ s.last ∧ s.accrue now = (s, 0)) ∨
      (s.last < now ∧ s.last < s.finish ∧ s.finish ≤ now ∧
        s.accrue now = ({ s with rate := 0, finish := 0, last := s.finish }, s.scheduled)) ∨
      (s.last < now ∧ now < s.finish ∧
        s.accrue now = ({ s with last := now }, (now - s.last) * s.rate)) := by
  unfold accrue
  by_cases h₀ : s.rate = 0 ∨ s.finish = 0
  · exact .inl ⟨h₀, if_pos h₀⟩
  rw [if_neg h₀]
  by_cases h₁ : now ≤ s.last
  · exact .inr (.inl ⟨(min_le_left _ _).trans h₁, if_pos h₁⟩)
  rw [if_neg h₁]
  by_cases h₂ : min now s.finish ≤ s.last
  · exact .inr (.inl ⟨h₂, if_pos h₂⟩)
  dsimp only
  rw [if_neg h₂]
  by_cases h₃ : s.finish ≤ now
  · rw [min_eq_right h₃] at h₂ ⊢
    exact .inr (.inr (.inl ⟨by omega, by omega, h₃, if_pos le_rfl⟩))
  · have hmin : min now s.finish = now := min_eq_left (by omega)
    rw [hmin]
    exact .inr (.inr (.inr ⟨by omega, by omega, if_neg h₃⟩))

/-- The payment is what is due. -/
theorem accrue_paid (now : ℕ) : (s.accrue now).2 = s.due now := by
  rcases s.accrue_cases now with ⟨h, heq⟩ | ⟨h, heq⟩ | ⟨-, -, h, heq⟩ | ⟨-, h, heq⟩
  · rw [heq]
    rcases h with h | h <;> simp [due, h]
  · rw [heq]
    simp [due, Nat.sub_eq_zero_of_le h]
  · rw [heq, due, min_eq_right h, scheduled]
  · rw [heq, due, min_eq_left h.le]

/-- Paying lowers the liability by the payment. -/
theorem accrue_liability (now : ℕ) :
    (s.accrue now).1.liability + (s.accrue now).2 = s.liability := by
  rcases s.accrue_cases now with ⟨h, heq⟩ | ⟨-, heq⟩ | ⟨-, -, -, heq⟩ | ⟨hlast, h, heq⟩
  · rw [heq]
    rcases h with h | h <;> simp [liability, scheduled, h]
  · rw [heq, Nat.add_zero]
  · rw [heq]
    simp [liability, scheduled]
  · have hsplit : s.finish - s.last = (s.finish - now) + (now - s.last) := by omega
    rw [heq]
    simp only [liability, scheduled]
    rw [hsplit]
    ring

/-- After paying, nothing is due. -/
theorem accrue_settled (now : ℕ) : (s.accrue now).1.due now = 0 := by
  rcases s.accrue_cases now with ⟨h, heq⟩ | ⟨h, heq⟩ | ⟨-, -, -, heq⟩ | ⟨-, -, heq⟩
  · rw [heq]
    rcases h with h | h <;> simp [due, h]
  · rw [heq]
    simp [due, Nat.sub_eq_zero_of_le h]
  · rw [heq]
    simp [due]
  · rw [heq]
    simp [due]

theorem accrue_carry (now : ℕ) : (s.accrue now).1.carry = s.carry := by
  rcases s.accrue_cases now with ⟨-, heq⟩ | ⟨-, heq⟩ | ⟨-, -, -, heq⟩ | ⟨-, -, heq⟩ <;> rw [heq]

theorem accrue_last_le {now : ℕ} (h : s.last ≤ now) : (s.accrue now).1.last ≤ now := by
  rcases s.accrue_cases now with ⟨-, heq⟩ | ⟨-, heq⟩ | ⟨-, -, hle, heq⟩ | ⟨-, -, heq⟩ <;> rw [heq]
  · exact h
  · exact hle

/-- A finish time is cleared or kept. -/
theorem accrue_finish (now : ℕ) :
    (s.accrue now).1.finish = s.finish ∨ (s.accrue now).1.finish = 0 := by
  rcases s.accrue_cases now with ⟨-, heq⟩ | ⟨-, heq⟩ | ⟨-, -, -, heq⟩ | ⟨-, -, heq⟩ <;>
    simp [heq]

/-- Once the schedule has ended, the first payment leaves only the carry. -/
theorem accrue_ended {now : ℕ} (h : s.finish ≤ now) :
    (s.accrue now).1.liability = s.carry := by
  have hpaid := s.accrue_liability now
  rw [accrue_paid] at hpaid
  have hdue : s.due now = s.scheduled := by
    unfold due scheduled
    rw [min_eq_right h]
  unfold liability at hpaid ⊢
  rw [accrue_carry] at hpaid ⊢
  omega

/-- What is scheduled from `now` on, once nothing is due. -/
theorem remaining_eq {now : ℕ} (hlast : s.last ≤ now) (hdue : s.due now = 0) :
    (s.finish - now) * s.rate = s.scheduled := by
  unfold due at hdue
  unfold scheduled
  rcases Nat.mul_eq_zero.mp hdue with h | h
  · have hsub : s.finish - now = s.finish - s.last := by omega
    rw [hsub]
  · simp [h]

/-- Funding adds the amount to the liability. -/
theorem fund_liability {window amount now : ℕ} (hlast : s.last ≤ now) (hdue : s.due now = 0) :
    (s.fund window amount now).liability = s.liability + amount := by
  have hdiv := Nat.mod_add_div ((s.finish - now) * s.rate + amount + s.carry) window
  rw [Nat.mul_comm window] at hdiv
  have hremaining := remaining_eq hlast hdue
  simp only [liability, scheduled, fund, Nat.add_sub_cancel_left] at hremaining ⊢
  rw [Nat.mul_comm window, hdiv, hremaining]
  omega

theorem fund_carry_lt {window amount now : ℕ} (h : 0 < window) :
    (s.fund window amount now).carry < window :=
  Nat.mod_lt _ h

theorem fund_settled (window amount now : ℕ) : (s.fund window amount now).due now = 0 := by
  simp [due, fund]

end LinearStream

end ClaimRush
