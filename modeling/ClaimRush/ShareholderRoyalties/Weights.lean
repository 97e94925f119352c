import ClaimRush.ShareholderRoyalties.Accrual
import ClaimRush.VeClaimNFT.Holdings

/-!
# Accrual weights

The weight with which a lock takes part in a distribution at time `t`.  The
global bias of the lock contract is at least the sum of all weights, because
slopes are added rounded up and the accrual rounds them down.
-/

open Function

namespace ClaimRush.VeClaimNFT

open Constants

/-- Slope of a decaying lock; an AutoMax lock has none. -/
def Lock.accrualSlope (l : Lock) : ℕ := if l.autoMax then 0 else floorSlope l.amount

/-- Weight of the lock in a distribution at time `t`. -/
def Lock.weightAt (l : Lock) (t : ℕ) : ℕ := l.flatBias + l.accrualSlope * (l.lockEnd - t)

variable {l : Lock}

theorem Lock.weightAt_autoMax (h : l.autoMax = true) :
    l.weightAt = fun _ ↦ l.amount * SLOPE_SCALE := by
  funext t
  simp [Lock.weightAt, Lock.accrualSlope, Lock.flatBias, h]

theorem Lock.weightAt_decaying (h : l.autoMax = false) :
    l.weightAt = fun t ↦ floorSlope l.amount * (l.lockEnd - t) := by
  funext t
  simp [Lock.weightAt, Lock.accrualSlope, Lock.flatBias, h]

theorem Lock.weightAt_of_amount_zero (h : l.amount = 0) : l.weightAt = fun _ ↦ 0 := by
  funext t
  simp [Lock.weightAt, Lock.accrualSlope, Lock.flatBias, floorSlope, h]

theorem Lock.SameWeight.weightAt {l' : Lock} (h : l.SameWeight l') : l'.weightAt = l.weightAt := by
  funext t
  simp only [Lock.weightAt, Lock.accrualSlope, Lock.flatBias, h.amount, h.lockEnd, h.autoMax]

variable {locks : ℕ → Lock}

theorem FiniteLocks.weights (h : FiniteLocks locks) :
    {id | ∃ t, (locks id).weightAt t ≠ 0}.Finite := by
  refine h.subset ?_
  rintro id ⟨t, ht⟩ hzero
  exact ht (congrFun (Lock.weightAt_of_amount_zero hzero) t)

theorem FiniteLocks.accrualSlopes (h : FiniteLocks locks) :
    FiniteEntries fun id ↦ (locks id).accrualSlope :=
  h.mono fun id hid ↦ by simp [Lock.accrualSlope, floorSlope, hid]

/-- The slopes of the accrual are part of the demanded ones. -/
theorem FiniteLocks.accrualSlopes_le (h : FiniteLocks locks) (e : ℕ) :
    fiberTotal (fun id ↦ (locks id).accrualSlope) (fun id ↦ (locks id).lockEnd) e ≤
      demand locks e := by
  refine total_mono (h.accrualSlopes.restrict _) (h.slope e) fun id ↦ ?_
  by_cases hend : (locks id).lockEnd = e
  · cases hauto : (locks id).autoMax with
    | false => simp [Lock.accrualSlope, Lock.slopeAt, hend, hauto, floorSlope_le_ceilSlope]
    | true => simp [Lock.accrualSlope, hauto]
  · simp [hend]

/-- Sum of the weights of all locks. -/
noncomputable def totalWeight (locks : ℕ → Lock) (t : ℕ) : ℕ :=
  total fun id ↦ (locks id).weightAt t

theorem FiniteLocks.totalWeight_eq (h : FiniteLocks locks) (t : ℕ) :
    totalWeight locks t = flatBias locks + scheduledBias
      (fiberTotal (fun id ↦ (locks id).accrualSlope) fun id ↦ (locks id).lockEnd) t := by
  have hdecaying : FiniteEntries fun id ↦ (locks id).accrualSlope * ((locks id).lockEnd - t) :=
    h.accrualSlopes.mono fun id hid ↦ by rw [hid, Nat.zero_mul]
  rw [← total_decaying h.accrualSlopes]
  exact total_add h.flat hdecaying

/-- The bias covers the weights of all locks. -/
theorem VeState.Accounted.totalWeight_le {s : VeState} (h : s.Accounted) :
    totalWeight s.locks s.global.globalLastTs ≤ s.global.globalBiasScaled := by
  have hexact := h.backed.exact.at_last
  rw [h.finite.totalWeight_eq, hexact.bias_eq]
  refine Nat.add_le_add_left (scheduledBias_mono (h.finite.accrualSlopes.fibers _)
    hexact.scheduled.finite fun e he ↦ ?_) _
  have hcovers := h.backed.covers e he
  exact (h.finite.accrualSlopes_le e).trans (by exact_mod_cast hcovers)

end ClaimRush.VeClaimNFT
