import ClaimRush.ShareholderRoyalties.Chronicle
import ClaimRush.ShareholderRoyalties.Solvency

/-!
# Settlement

While the stored checkpoints are complete, a checkpoint accrues to each lock
exactly what the history owes to it since the marker of the user.
-/

open Function

namespace ClaimRush.ShareholderRoyalties

open Constants VeClaimNFT RoyaltiesState ClaimRush.Distribution

/-- The markers of the user are those of the past history `os`. -/
structure MarkedAt (r : RoyaltiesState) (user : Address) (os : List Distribution) : Prop where
  paid : r.userEthPerVePaid user = index os
  paidTimeWeighted : r.userTimeWeightedEthPerVePaid user = timeIndex os
  lastRewardTs : r.userLastRewardTs user = lastTime os

/-- The history `ds`, all of which the stored checkpoints still tell. -/
structure Told (now : ℕ) (r : RoyaltiesState) (ds : List Distribution) : Prop where
  indexed : Indexed now r ds
  times : Chronological ds
  complete : Complete r ds

variable {now : ℕ} {r r' : RoyaltiesState} {ds os : List Distribution}

theorem Told.congr (h : Told now r ds) (hsame : SameIndex r r') : Told now r' ds :=
  ⟨h.indexed.congr hsame, h.times, h.complete.congr hsame⟩

theorem Told.markedAt (h : Told now r ds) (user : Address) :
    MarkedAt (r.markPaid user) user ds := by
  refine ⟨?_, ?_, ?_⟩
  · simpa [RoyaltiesState.markPaid] using h.indexed.index
  · simpa [RoyaltiesState.markPaid] using h.indexed.timeIndex
  · simpa [RoyaltiesState.markPaid] using h.complete.latest

/-- A decaying lock, settled from the lookup. -/
theorem Told.weightedDelta_eq (h : Told now r ds) (hos : os <:+ ds) {e : ℕ}
    (hlt : index os < index (before ds e))
    (hfits : e * (r.ethPerVe - index os) < uint256Bound) :
    wrapping (wrapping (e * (index (before ds e) - index os : ℕ)) -
      wrapping (timeIndex (before ds e) - timeIndex os)) = owed ds (index os) fun t ↦ e - t := by
  have hsum := owed_linear_eq h.indexed.consecutive h.times hos hlt
  have hdiff : (e * (index (before ds e) - index os : ℕ) -
      (timeIndex (before ds e) - timeIndex os) : ℤ) = owed ds (index os) fun t ↦ e - t := by
    zify at hsum
    linarith
  have hflat : owed ds (index os) (fun t ↦ e - t) ≤ owed ds (index os) fun _ ↦ e :=
    owed_mono ds (index os) fun t ↦ Nat.sub_le e t
  have hsnapshot : Snapshot ds now (index os) (timeIndex os) :=
    ⟨os, hos, rfl, rfl, fun d hd ↦ h.indexed.times d (hos.subset hd)⟩
  rw [hsnapshot.flat_eq h.indexed.consecutive, ← h.indexed.index] at hflat
  rw [wrapping_sub, hdiff, wrapping_natCast, Nat.mod_eq_of_lt (hflat.trans_lt hfits)]

/-- A lock accrues exactly what it is owed since the marker. -/
theorem Told.computeLockAccrual_eq (h : Told now r ds) (hos : os <:+ ds) {ctx : AccrualCtx}
    (hpaid : ctx.paid = index os) (htimeWeighted : ctx.startPaidTimeWeighted = timeIndex os)
    (hstart : ctx.startRewardTs = lastTime os) (hdelta : ctx.deltaSumAll = r.ethPerVe - ctx.paid)
    (l : Lock) :
    Returns (fun a ↦ accrued a = owed ds (index os) l.weightAt) (r.computeLockAccrual l ctx) := by
  have hsnapshot : Snapshot ds now (index os) (timeIndex os) :=
    ⟨os, hos, rfl, rfl, fun d hd ↦ h.indexed.times d (hos.subset hd)⟩
  have hconsecutive := h.indexed.consecutive
  unfold RoyaltiesState.computeLockAccrual
  rw [h.complete.lookup h.times, hpaid, htimeWeighted, hdelta, hpaid]
  dsimp only
  split_ifs with hamount hauto hended hold
  · simp [accrued, Lock.weightAt_of_amount_zero hamount]
  · refine Outcome.uint256_bind trivial fun _ ↦ ?_
    refine Outcome.bind (scaleReward_spec _ _) fun p hp ↦ (Outcome.pure_iff _).mpr ?_
    rw [accrued, Option.elim, hp, Lock.weightAt_autoMax hauto, hsnapshot.flat_eq hconsecutive,
      h.indexed.index, SHAREHOLDER_WEIGHT_SCALE_eq]
  · have hdecaying := Lock.weightAt_decaying (l := l) (by simpa using hauto)
    simp [accrued, hdecaying, owed_const_mul,
      owed_linear_of_le_lastTime hconsecutive h.times hos (hstart ▸ hended)]
  · have hdecaying := Lock.weightAt_decaying (l := l) (by simpa using hauto)
    simp [accrued, hdecaying, owed_const_mul, owed_linear_of_index_le hconsecutive hos hold]
  · have hdecaying := Lock.weightAt_decaying (l := l) (by simpa using hauto)
    refine Outcome.usub_bind trivial fun hle ↦ Outcome.uint256_bind trivial fun hfits ↦ ?_
    refine Returns.guard fun _ ↦ Outcome.bind (slopeScaled_spec _) ?_
    rintro slope rfl
    refine Outcome.bind (scaleReward_spec _ _) fun p hp ↦ (Outcome.pure_iff _).mpr ?_
    rw [accrued, Option.elim, hp, h.weightedDelta_eq hos (not_le.mp hold) hfits, hdecaying,
      owed_const_mul]

/-- A checkpoint accrues exactly what the locks of the user are owed, together
with the remainder. -/
theorem Told.computePendingAccrual_eq (h : Told now r ds) (hos : os <:+ ds) (s : VeState)
    (user : Address) {remainder : ℕ} (hremainder : remainder < SHAREHOLDER_ACC) :
    Returns (fun p ↦ p.1 * SHAREHOLDER_ACC + p.2.1 =
        ((getShareholderLockParams s user).map fun l ↦ owed ds (index os) l.weightAt).sum +
          remainder ∧ p.2.1 < SHAREHOLDER_ACC)
      (r.computePendingAccrual s user (index os) (timeIndex os) (lastTime os) remainder) := by
  unfold RoyaltiesState.computePendingAccrual
  dsimp only
  split_ifs with hnone hsettled
  · refine (Outcome.ok_iff _).mpr ⟨?_, hremainder⟩
    simp [List.length_eq_zero_iff.mp hnone]
  · refine (Outcome.ok_iff _).mpr ⟨?_, hremainder⟩
    have hzero (l : Lock) : owed ds (index os) l.weightAt = 0 := by
      rw [← hsettled, h.indexed.index]
      exact h.indexed.consecutive.owed_settled _
    simp [hzero]
  · refine Outcome.usub_bind trivial fun _ ↦ ?_
    refine (r.accrualLoop_of _ _ _ _ _ fun l _ ↦
      h.computeLockAccrual_eq hos rfl rfl rfl rfl l).weaken fun p hp ↦ ⟨?_, hp.2 hremainder⟩
    rw [hp.1, Nat.zero_mul, Nat.zero_add, Nat.add_comm]

end ClaimRush.ShareholderRoyalties
