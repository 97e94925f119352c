import ClaimRush.Lib.FiniteTotal

/-!
# Slope schedules

A schedule assigns to each time the slope that ends there.  The bias at time
`t` is what all slopes that end later still have to decay, the sum of
`c e * (e - t)`.  Between two scheduled times the bias falls linearly with the
total slope; at a scheduled time only the slope changes.
-/

open Function

namespace ClaimRush

/-- What the slopes ending after `t` still have to decay. -/
noncomputable def scheduledBias (c : ℕ → ℕ) (t : ℕ) : ℕ := total fun e ↦ c e * (e - t)

variable {c : ℕ → ℕ}

theorem FiniteEntries.scheduled (hc : FiniteEntries c) (t : ℕ) :
    FiniteEntries fun e ↦ c e * (e - t) :=
  hc.mono fun e he ↦ by simp [he]

@[simp] theorem scheduledBias_zero (t : ℕ) : scheduledBias (fun _ ↦ 0) t = 0 := by
  simp [scheduledBias]

/-- Writing one scheduled slope. -/
theorem scheduledBias_update (hc : FiniteEntries c) (e v t : ℕ) :
    scheduledBias (update c e v) t + c e * (e - t) = scheduledBias c t + v * (e - t) := by
  have hfun : (fun x ↦ update c e v x * (x - t)) =
      update (fun x ↦ c x * (x - t)) e (v * (e - t)) := by
    funext x
    by_cases hx : x = e
    · subst hx
      simp
    · simp [hx]
  unfold scheduledBias
  rw [hfun]
  exact total_update (hc.scheduled t) e _

/-- One scheduled slope is part of the bias. -/
theorem mul_le_scheduledBias (hc : FiniteEntries c) (e t : ℕ) :
    c e * (e - t) ≤ scheduledBias c t :=
  le_total (hc.scheduled t) e

/-- A slope that has already ended can be dropped without changing the bias. -/
theorem scheduledBias_clear (hc : FiniteEntries c) {e t : ℕ} (he : e ≤ t) :
    scheduledBias (update c e 0) t = scheduledBias c t := by
  have h := scheduledBias_update hc e 0 t
  rw [Nat.sub_eq_zero_of_le he] at h
  simpa using h

/-- While no slope ends the bias falls linearly. -/
theorem scheduledBias_advance (hc : FiniteEntries c) {t t' : ℕ} (ht : t ≤ t')
    (hnone : ∀ e, c e ≠ 0 → t' ≤ e) :
    scheduledBias c t = scheduledBias c t' + total c * (t' - t) := by
  have hsplit : (fun e ↦ c e * (e - t)) =
      fun e ↦ c e * (e - t') + (t' - t) * c e := by
    funext e
    by_cases he : c e = 0
    · simp [he]
    · have hle := hnone e he
      have hsub : e - t = (e - t') + (t' - t) := by omega
      rw [hsub, Nat.mul_add, Nat.mul_comm (t' - t)]
  have hscaled : FiniteEntries fun e ↦ (t' - t) * c e := hc.mono fun e he ↦ by simp [he]
  unfold scheduledBias
  rw [hsplit, total_add (hc.scheduled t') hscaled, total_mul_left hc, Nat.mul_comm (total c)]

theorem scheduledBias_mono {c' : ℕ → ℕ} (hc : FiniteEntries c) (hc' : FiniteEntries c') {t : ℕ}
    (h : ∀ e, t < e → c e ≤ c' e) : scheduledBias c t ≤ scheduledBias c' t := by
  refine total_mono (hc.scheduled t) (hc'.scheduled t) fun e ↦ ?_
  by_cases he : t < e
  · exact Nat.mul_le_mul_right _ (h e he)
  · rw [Nat.sub_eq_zero_of_le (not_lt.mp he), Nat.mul_zero, Nat.mul_zero]

/-- Positions that decay with a slope each, grouped by their ends, are the bias
of one schedule. -/
theorem total_decaying {κ : Type*} {slope : κ → ℕ} (h : FiniteEntries slope) (lockEnd : κ → ℕ)
    (t : ℕ) :
    total (fun k ↦ slope k * (lockEnd k - t)) = scheduledBias (fiberTotal slope lockEnd) t := by
  have hfinite : FiniteEntries fun k ↦ slope k * (lockEnd k - t) :=
    h.mono fun k hk ↦ by rw [hk, Nat.zero_mul]
  rw [← total_fibers hfinite lockEnd]
  refine congrArg total (funext fun e ↦ ?_)
  rw [fiberTotal, fiberTotal, Nat.mul_comm, ← total_mul_left (h.restrict _)]
  refine congrArg total (funext fun k ↦ ?_)
  split_ifs with hk
  · rw [hk, Nat.mul_comm]
  · rfl

end ClaimRush
