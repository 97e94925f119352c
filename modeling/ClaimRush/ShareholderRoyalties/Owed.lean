import ClaimRush.ShareholderRoyalties.History
import ClaimRush.ShareholderRoyalties.Weights

/-!
# Accruals and what is owed

A checkpoint computes the accrual of a lock from two snapshots of the index.
In units of `1 / SHAREHOLDER_ACC` wei it never exceeds what the history of
distributions owes to the lock.
-/

open Function

namespace ClaimRush.ShareholderRoyalties

open Constants VeClaimNFT RoyaltiesState ClaimRush.Distribution

theorem floorSlope_eq (amount : ℕ) :
    floorSlope amount = amount * SHAREHOLDER_WEIGHT_SCALE / MAX_LOCK_DURATION := by
  rw [SHAREHOLDER_WEIGHT_SCALE_eq, floorSlope]

theorem slopeScaled_spec (amount : ℕ) : Returns (· = floorSlope amount) (slopeScaled amount) := by
  unfold slopeScaled Returns
  rw [outcome_mulDiv MAX_LOCK_DURATION_pos.ne', floorSlope_eq]
  exact ⟨fun _ ↦ rfl, fun _ ↦ trivial⟩

/-- Whole units and remainder make up the product. -/
theorem scaleReward_spec (weight indexDelta : ℕ) :
    Returns (fun p ↦ p.1 * SHAREHOLDER_ACC + p.2 = weight * indexDelta)
      (scaleReward weight indexDelta) := by
  unfold scaleReward
  split_ifs with hzero
  · rcases hzero with rfl | rfl <;> simp
  · refine Returns.seq fun whole hwhole ↦ ?_
    obtain ⟨-, -, rfl⟩ := mulDiv_eq_ok.mp hwhole
    exact Nat.div_add_mod' _ _

theorem carryRemainder_spec (whole remainder : ℕ) :
    Returns (fun p ↦ p.1 * SHAREHOLDER_ACC + p.2 = whole * SHAREHOLDER_ACC + remainder ∧
        p.2 < SHAREHOLDER_ACC)
      (carryRemainder whole remainder) := by
  unfold carryRemainder
  split_ifs with hcarry
  · refine Outcome.uint256_bind trivial fun _ ↦ ⟨?_, Nat.mod_lt _ SHAREHOLDER_ACC_pos⟩
    change (whole + _) * _ + _ = _
    rw [Nat.add_mul, Nat.add_assoc, Nat.div_add_mod']
  · exact ⟨rfl, not_le.mp hcarry⟩

/-- What the accrual of one lock is worth, in units of `1 / SHAREHOLDER_ACC` wei. -/
def accrued (a : Option (ℕ × ℕ)) : ℕ := a.elim 0 fun p ↦ p.1 * SHAREHOLDER_ACC + p.2

namespace RoyaltiesState

variable (r : RoyaltiesState) (ctx : AccrualCtx)

/-- The accrual of one lock in units of `1 / SHAREHOLDER_ACC` wei. -/
def lockAccrual (l : Lock) : ℕ :=
  match r.computeLockAccrual l ctx with
  | .ok (some (whole, remainder)) => whole * SHAREHOLDER_ACC + remainder
  | _ => 0

/-- The loop sums up what each lock accrues, and keeps the remainder below one
unit. -/
theorem accrualLoop_of {f : Lock → ℕ} (ls : List Lock) (whole remainder minEnd : ℕ)
    (hf : ∀ l ∈ ls, Returns (fun a ↦ accrued a = f l) (r.computeLockAccrual l ctx)) :
    Returns (fun p ↦ p.1 * SHAREHOLDER_ACC + p.2.1 =
        whole * SHAREHOLDER_ACC + remainder + (ls.map f).sum ∧
        (remainder < SHAREHOLDER_ACC → p.2.1 < SHAREHOLDER_ACC))
      (r.accrualLoop ctx ls whole remainder minEnd) := by
  induction ls generalizing whole remainder minEnd with
  | nil => exact (Outcome.ok_iff _).mpr ⟨by simp, id⟩
  | cons l ls ih =>
      unfold accrualLoop
      have htail (l' : Lock) (hl' : l' ∈ ls) := hf l' (List.mem_cons_of_mem l hl')
      refine Returns.seq fun accrual haccrual ↦ ?_
      have hlock := (hf l List.mem_cons_self).of_ok haccrual
      rw [List.map_cons, List.sum_cons, ← hlock]
      cases accrual with
      | none =>
          exact (ih _ _ _ htail).weaken fun p hp ↦
            ⟨by rw [hp.1, accrued, Option.elim, Nat.zero_add], hp.2⟩
      | some pair =>
          obtain ⟨lockWhole, rem⟩ := pair
          refine Outcome.uint256_bind trivial fun _ ↦ Outcome.uint256_bind trivial fun _ ↦ ?_
          refine Outcome.bind (carryRemainder_spec _ _) ?_
          rintro ⟨whole', remainder'⟩ ⟨hcarry, hsmall⟩
          refine (ih whole' remainder' _ htail).weaken fun p hp ↦ ⟨?_, fun _ ↦ hp.2 hsmall⟩
          rw [hp.1, hcarry, accrued, Option.elim]
          ring

theorem accrualLoop_sum (ls : List Lock) (whole remainder minEnd : ℕ) :
    Returns (fun p ↦ p.1 * SHAREHOLDER_ACC + p.2.1 =
        whole * SHAREHOLDER_ACC + remainder + (ls.map (r.lockAccrual ctx)).sum)
      (r.accrualLoop ctx ls whole remainder minEnd) := by
  refine (r.accrualLoop_of ctx ls whole remainder minEnd fun l _ ↦ ?_).weaken fun _ ↦ And.left
  rw [Returns.iff_forall]
  intro a ha
  cases a <;> simp [lockAccrual, ha, accrued]

end RoyaltiesState

variable {now : ℕ} {r : RoyaltiesState} {ds : List Distribution}

/-- The two snapshots of a decaying lock, in wrapping arithmetic. -/
theorem Indexed.weightedDelta_le (h : Indexed now r ds) {t p z e x y : ℕ}
    (hpaid : Snapshot ds t p z) (he : 0 < e) (hlookup : r.getRewardPrefixBefore e = (x, y))
    (hle : p ≤ x) :
    wrapping (wrapping (e * (x - p : ℕ)) - wrapping (y - z)) ≤ owed ds p fun t ↦ e - t := by
  obtain ⟨t', ht', hnew⟩ := h.prefixBefore he
  rw [hlookup] at hnew
  obtain ⟨v, hsum, hv⟩ := Snapshot.linear_le h.consecutive hpaid hnew ht' hle
  have hdiff : (e * (x - p : ℕ) - (y - z) : ℤ) = v := by
    zify at hsum
    linarith
  rw [wrapping_sub, hdiff]
  exact (wrapping_natCast_le v).trans hv

/-- A lock accrues no more than it is owed since the marker. -/
theorem Indexed.computeLockAccrual_le (h : Indexed now r ds) {ctx : AccrualCtx} {t : ℕ}
    (hpaid : Snapshot ds t ctx.paid ctx.startPaidTimeWeighted)
    (hdelta : ctx.deltaSumAll = r.ethPerVe - ctx.paid) (l : Lock) :
    Returns (fun a : Option (ℕ × ℕ) ↦ ∀ p ∈ a,
        p.1 * SHAREHOLDER_ACC + p.2 ≤ owed ds ctx.paid l.weightAt)
      (r.computeLockAccrual l ctx) := by
  unfold RoyaltiesState.computeLockAccrual
  dsimp only
  split_ifs with hamount hauto hstart hold
  · simp
  · refine Outcome.uint256_bind trivial fun _ ↦ ?_
    refine Outcome.bind (scaleReward_spec _ _) fun p hp ↦ (Outcome.pure_iff _).mpr ?_
    intro q hq
    obtain rfl := Option.some.inj hq
    rw [hp, Lock.weightAt_autoMax hauto, hpaid.flat_eq h.consecutive,
      hdelta, h.index, SHAREHOLDER_WEIGHT_SCALE_eq]
  · simp
  · simp
  · refine Outcome.usub_bind trivial fun hle ↦ Outcome.uint256_bind trivial fun _ ↦ ?_
    refine Returns.guard fun _ ↦ Outcome.bind (slopeScaled_spec _) ?_
    rintro slope rfl
    refine Outcome.bind (scaleReward_spec _ _) fun p hp ↦ (Outcome.pure_iff _).mpr ?_
    intro q hq
    obtain rfl := Option.some.inj hq
    rw [hp, Lock.weightAt_decaying (by simpa using hauto), owed_const_mul]
    exact Nat.mul_le_mul_left _ (h.weightedDelta_le hpaid (by omega) rfl hle)

theorem Indexed.lockAccrual_le (h : Indexed now r ds) {ctx : AccrualCtx} {t : ℕ}
    (hpaid : Snapshot ds t ctx.paid ctx.startPaidTimeWeighted)
    (hdelta : ctx.deltaSumAll = r.ethPerVe - ctx.paid) (l : Lock) :
    r.lockAccrual ctx l ≤ owed ds ctx.paid l.weightAt := by
  unfold RoyaltiesState.lockAccrual
  split
  · next whole remainder haccrual =>
      exact (h.computeLockAccrual_le hpaid hdelta l).of_ok haccrual _ rfl
  · exact Nat.zero_le _

/-- A checkpoint accrues no more than the locks of the user are owed, together
with the remainder. -/
theorem Indexed.computePendingAccrual_le (h : Indexed now r ds) {paid timeWeighted t : ℕ}
    (hpaid : Snapshot ds t paid timeWeighted) (s : VeState) (user : Address)
    (startRewardTs remainder : ℕ) :
    Returns (fun p ↦ p.1 * SHAREHOLDER_ACC + p.2.1 ≤
        ((getShareholderLockParams s user).map fun l ↦ owed ds paid l.weightAt).sum + remainder)
      (r.computePendingAccrual s user paid timeWeighted startRewardTs remainder) := by
  unfold RoyaltiesState.computePendingAccrual
  dsimp only
  split_ifs
  · exact (Outcome.ok_iff _).mpr (by simp)
  · exact (Outcome.ok_iff _).mpr (by simp)
  · refine Outcome.usub_bind trivial fun _ ↦ ?_
    refine (r.accrualLoop_sum _ _ _ _ _).weaken fun p hp ↦ ?_
    rw [hp, Nat.zero_mul, Nat.zero_add, Nat.add_comm]
    exact Nat.add_le_add_right (List.sum_le_sum fun l _ ↦ h.lockAccrual_le hpaid rfl l) _

end ClaimRush.ShareholderRoyalties
