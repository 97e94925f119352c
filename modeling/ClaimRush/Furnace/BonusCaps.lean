import ClaimRush.Furnace.BonusAmm

/-!
# Caps of the bonus AMM

The depth never lies below the target `⌈R * 10000 / gross⌉`, so that a payout of
`R * P / (V + P)` stays below the gross spot rate on the effective principal `P`.
The gross rate is at most the user rate with its LP topup, and the split takes
the topup out again: the user part stays below the user spot rate.
-/

namespace ClaimRush.Furnace

open Constants

/-! ## Rates -/

theorem Quoter.userSpotBonusBps_le (lockedSupply totalSupply reserve elapsed : ℕ) :
    Quoter.userSpotBonusBps lockedSupply totalSupply reserve elapsed ≤ MAX_USER_BONUS_BPS := by
  simp only [Quoter.userSpotBonusBps]
  split <;> omega

theorem grossSpotBonusBps_le_max (userSpotBps lpRateBps : ℕ) :
    grossSpotBonusBps userSpotBps lpRateBps ≤ MAX_GROSS_BONUS_BPS := by
  simp only [grossSpotBonusBps]
  split <;> omega

/-- The gross rate is at most the user rate with its topup. -/
theorem grossSpotBonusBps_mul_le (userSpotBps lpRateBps : ℕ) :
    grossSpotBonusBps userSpotBps lpRateBps * BPS_DENOM ≤
      userSpotBps * (BPS_DENOM + lpRateBps) := by
  have htopup := Nat.div_mul_le_self (userSpotBps * lpRateBps) BPS_DENOM
  have hgross : grossSpotBonusBps userSpotBps lpRateBps ≤
      userSpotBps + userSpotBps * lpRateBps / BPS_DENOM := by
    simp only [grossSpotBonusBps]
    split <;> omega
  calc grossSpotBonusBps userSpotBps lpRateBps * BPS_DENOM
      ≤ (userSpotBps + userSpotBps * lpRateBps / BPS_DENOM) * BPS_DENOM :=
        Nat.mul_le_mul_right _ hgross
    _ = userSpotBps * BPS_DENOM + userSpotBps * lpRateBps / BPS_DENOM * BPS_DENOM :=
        Nat.add_mul ..
    _ ≤ userSpotBps * BPS_DENOM + userSpotBps * lpRateBps := Nat.add_le_add_left htopup _
    _ = userSpotBps * (BPS_DENOM + lpRateBps) := (Nat.mul_add ..).symm

/-- Whatever the decay, the depth does not fall below its target. -/
theorem ceilDiv_le_previewVirtualDepth {reserve grossSpotBps : ℕ} (hreserve : reserve ≠ 0)
    (hgross : grossSpotBps ≠ 0) (depth lastUpdate now : ℕ) :
    ceilDiv (reserve * BPS_DENOM) grossSpotBps ≤
      previewVirtualDepth reserve depth lastUpdate grossSpotBps now := by
  simp only [previewVirtualDepth, hreserve, hgross, or_self, if_false]
  split_ifs with hold hlow hexcess hexcess
  · exact le_rfl
  · exact Nat.le_add_right _ _
  · exact le_rfl
  · exact Nat.le_add_right _ _
  · exact Nat.le_of_not_lt hlow

/-! ## Payout and split -/

theorem grossBonusOf_le_reserve (reserve principalEff depth : ℕ) :
    grossBonusOf reserve principalEff depth ≤ reserve := by
  simp only [grossBonusOf]
  split <;> omega

theorem grossBonusOf_le_quotient (reserve principalEff depth : ℕ) :
    grossBonusOf reserve principalEff depth ≤ reserve * principalEff / (depth + principalEff) := by
  simp only [grossBonusOf]
  split <;> omega

/-- A depth above the target keeps the payout below the gross spot rate. -/
theorem grossBonusOf_mul_le {reserve grossSpotBps depth : ℕ} (hgross : 0 < grossSpotBps)
    (hdepth : ceilDiv (reserve * BPS_DENOM) grossSpotBps ≤ depth) (principalEff : ℕ) :
    grossBonusOf reserve principalEff depth * BPS_DENOM ≤ principalEff * grossSpotBps := by
  have htarget : reserve * BPS_DENOM ≤ depth * grossSpotBps := (ceilDiv_le_iff hgross).mp hdepth
  have hquot := grossBonusOf_le_quotient reserve principalEff depth
  rcases Nat.eq_zero_or_pos (depth + principalEff) with hzero | hpos
  · rw [hzero, Nat.div_zero] at hquot
    simp [Nat.le_zero.mp hquot]
  have hpaid : grossBonusOf reserve principalEff depth * (depth + principalEff) ≤
      reserve * principalEff := (Nat.le_div_iff_mul_le hpos).mp hquot
  apply Nat.le_of_mul_le_mul_right _ hpos
  calc grossBonusOf reserve principalEff depth * BPS_DENOM * (depth + principalEff)
      = grossBonusOf reserve principalEff depth * (depth + principalEff) * BPS_DENOM := by ring
    _ ≤ reserve * principalEff * BPS_DENOM := Nat.mul_le_mul_right _ hpaid
    _ = principalEff * (reserve * BPS_DENOM) := by ring
    _ ≤ principalEff * (depth * grossSpotBps) := Nat.mul_le_mul_left _ htarget
    _ = principalEff * grossSpotBps * depth := by ring
    _ ≤ principalEff * grossSpotBps * (depth + principalEff) :=
        Nat.mul_le_mul_left _ (Nat.le_add_right _ _)

theorem splitBonusAmm_sum (grossBonus lpRateBps : ℕ) :
    (splitBonusAmm grossBonus lpRateBps).1 + (splitBonusAmm grossBonus lpRateBps).2 =
      grossBonus := by
  have hle : grossBonus * BPS_DENOM / (BPS_DENOM + lpRateBps) ≤ grossBonus :=
    Nat.div_le_of_le_mul (by nlinarith)
  simp only [splitBonusAmm]
  split <;> simp only <;> omega

/-- The user part leaves room for the topup. -/
theorem splitBonusAmm_mul_le (grossBonus lpRateBps : ℕ) :
    (splitBonusAmm grossBonus lpRateBps).1 * (BPS_DENOM + lpRateBps) ≤ grossBonus * BPS_DENOM := by
  simp only [splitBonusAmm]
  split
  · next h =>
      rcases h with h | h <;> simp [h]
  · exact Nat.div_mul_le_self _ _

/-- The split of a payout below the gross rate stays below the user rate. -/
theorem splitBonusAmm_le_spot {grossBonus principalEff userSpotBps lpRateBps : ℕ}
    (hgross : grossBonus * BPS_DENOM ≤
      principalEff * grossSpotBonusBps userSpotBps lpRateBps) :
    (splitBonusAmm grossBonus lpRateBps).1 * BPS_DENOM ≤ principalEff * userSpotBps := by
  have hsplit := splitBonusAmm_mul_le grossBonus lpRateBps
  have hrate := grossSpotBonusBps_mul_le userSpotBps lpRateBps
  have hpos : 0 < BPS_DENOM + lpRateBps := Nat.add_pos_left BPS_DENOM_pos _
  apply Nat.le_of_mul_le_mul_right _ hpos
  calc (splitBonusAmm grossBonus lpRateBps).1 * BPS_DENOM * (BPS_DENOM + lpRateBps)
      = (splitBonusAmm grossBonus lpRateBps).1 * (BPS_DENOM + lpRateBps) * BPS_DENOM := by ring
    _ ≤ grossBonus * BPS_DENOM * BPS_DENOM := Nat.mul_le_mul_right _ hsplit
    _ ≤ principalEff * grossSpotBonusBps userSpotBps lpRateBps * BPS_DENOM :=
        Nat.mul_le_mul_right _ hgross
    _ = principalEff * (grossSpotBonusBps userSpotBps lpRateBps * BPS_DENOM) := by ring
    _ ≤ principalEff * (userSpotBps * (BPS_DENOM + lpRateBps)) := Nat.mul_le_mul_left _ hrate
    _ = principalEff * userSpotBps * (BPS_DENOM + lpRateBps) := by ring

/-! ## Calls -/

/-- A bonus within its caps: `principalEff` earns at most the gross rate, its
user part at most the user rate, and the reserve can pay it. -/
structure Bonus.Capped (b : Bonus) (reserve principalEff userSpotBps grossSpotBps : ℕ) :
    Prop where
  gross_mul_le : b.gross * BPS_DENOM ≤ principalEff * grossSpotBps
  grossSpot_le : principalEff * grossSpotBps ≤ principalEff * MAX_GROSS_BONUS_BPS
  user_mul_le : b.user * BPS_DENOM ≤ principalEff * userSpotBps
  userSpot_le : principalEff * userSpotBps ≤ principalEff * MAX_USER_BONUS_BPS
  sum_eq : b.user + b.lp = b.gross
  gross_le : b.gross ≤ reserve

/-- What a call has to pay once its frame is split. -/
def BonusAmmFrame.bonus (frame : BonusAmmFrame) : Bonus :=
  let (userBonus, lpBonus) := splitBonusAmm frame.grossBonus frame.lpRateBps
  ⟨frame.grossBonus, userBonus, lpBonus⟩

theorem Bonus.capped_zero (reserve principalEff : ℕ) {userSpotBps grossSpotBps : ℕ}
    (huser : userSpotBps ≤ MAX_USER_BONUS_BPS) (hgross : grossSpotBps ≤ MAX_GROSS_BONUS_BPS) :
    (Bonus.mk 0 0 0).Capped reserve principalEff userSpotBps grossSpotBps := by
  constructor
  · simp
  · exact Nat.mul_le_mul_left _ hgross
  · simp
  · exact Nat.mul_le_mul_left _ huser
  · rfl
  · exact Nat.zero_le _

/-- The rates of the AMM: without a user rate there is no gross rate, and else
the gross rate is the topped-up user rate and the depth reaches its target. -/
theorem computeBonusAmmRates_spec (lpEnabled : Bool)
    (reserve depth lastUpdate userSpotBps lpScaleBps now : ℕ) :
    let r := computeBonusAmmRates lpEnabled reserve depth lastUpdate userSpotBps lpScaleBps now
    r.grossSpotBps ≤ MAX_GROSS_BONUS_BPS ∧
      (r.grossSpotBps ≠ 0 → r.grossSpotBps = grossSpotBonusBps userSpotBps r.lpRateBps ∧
        ceilDiv (reserve * BPS_DENOM) r.grossSpotBps ≤ r.virtualDepth) := by
  simp only [computeBonusAmmRates]
  split_ifs with hnone hgross
  · exact ⟨Nat.zero_le _, fun h ↦ absurd rfl h⟩
  · exact ⟨Nat.zero_le _, fun h ↦ absurd rfl h⟩
  · exact ⟨grossSpotBonusBps_le_max _ _, fun h ↦
      ⟨rfl, ceilDiv_le_previewVirtualDepth (fun h ↦ hnone (Or.inl h)) h _ _ _⟩⟩

theorem computeBonusAmmPayout_gross (reserve principalEff userSpotBps : ℕ) {r : BonusAmmRates}
    (hgross : r.grossSpotBps ≠ 0) :
    (computeBonusAmmPayout reserve principalEff userSpotBps r).grossBonus ≤
      grossBonusOf reserve principalEff r.virtualDepth := by
  simp only [computeBonusAmmPayout, hgross, or_false]
  split_ifs <;> simp

/-- A frame below the curve at its own depth, and at rates within their bounds,
pays a capped bonus. -/
theorem BonusAmmFrame.capped {frame : BonusAmmFrame}
    (hpaid : frame.grossBonus ≤
      grossBonusOf frame.reserveBefore frame.principalEff frame.virtualDepthBefore)
    (huser : frame.userSpotBps ≤ MAX_USER_BONUS_BPS) (hpos : frame.grossSpotBps ≠ 0)
    (hmax : frame.grossSpotBps ≤ MAX_GROSS_BONUS_BPS)
    (hgross : frame.grossSpotBps = grossSpotBonusBps frame.userSpotBps frame.lpRateBps)
    (hdepth : ceilDiv (frame.reserveBefore * BPS_DENOM) frame.grossSpotBps ≤
      frame.virtualDepthBefore) :
    frame.bonus.Capped frame.reserveBefore frame.principalEff frame.userSpotBps
      frame.grossSpotBps := by
  have hcap : frame.grossBonus * BPS_DENOM ≤ frame.principalEff * frame.grossSpotBps :=
    (Nat.mul_le_mul_right _ hpaid).trans
      (grossBonusOf_mul_le (Nat.pos_of_ne_zero hpos) hdepth _)
  constructor
  · exact hcap
  · exact Nat.mul_le_mul_left _ hmax
  · exact splitBonusAmm_le_spot (hgross ▸ hcap)
  · exact Nat.mul_le_mul_left _ huser
  · exact splitBonusAmm_sum _ _
  · exact hpaid.trans (grossBonusOf_le_reserve _ _ _)

variable {S : Type} (call : Call) (w : World S)

/-- What `bonusAmmComputeAndUpdate` hands on: a frame of this call whose bonus is
capped, at a depth that reaches its target, and that bonus out of the reserve. -/
structure Computed (principalEff : ℕ) (w' : World S) (frame : BonusAmmFrame) : Prop where
  principalEff_eq : frame.principalEff = principalEff
  reserveBefore_eq : frame.reserveBefore = w.furnace.furnaceReserve
  spot_eq : frame.grossSpotBps ≠ 0 →
    frame.userSpotBps = (bonusRates call w w.furnace.furnaceReserve).1 ∧
      frame.grossSpotBps = (bonusRates call w w.furnace.furnaceReserve).2.grossSpotBps
  capped : frame.bonus.Capped frame.reserveBefore principalEff frame.userSpotBps
    frame.grossSpotBps
  depth_le : frame.grossSpotBps ≠ 0 →
    ceilDiv (frame.reserveBefore * BPS_DENOM) frame.grossSpotBps ≤ frame.virtualDepthBefore
  reserve_eq : w'.furnace.furnaceReserve + frame.grossBonus = w.furnace.furnaceReserve

theorem bonusRates_spec (reserve : ℕ) :
    let rates := bonusRates call w reserve
    rates.1 ≤ MAX_USER_BONUS_BPS ∧ rates.2.grossSpotBps ≤ MAX_GROSS_BONUS_BPS ∧
      (rates.2.grossSpotBps ≠ 0 →
        rates.2.grossSpotBps = grossSpotBonusBps rates.1 rates.2.lpRateBps ∧
        ceilDiv (reserve * BPS_DENOM) rates.2.grossSpotBps ≤ rates.2.virtualDepth) :=
  ⟨Quoter.userSpotBonusBps_le _ _ _ _, computeBonusAmmRates_spec _ _ _ _ _ _ _⟩

theorem bonusAmmComputeAndUpdate_computed
    (user : Address) (principalClaim principalEff lockDurationSec : ℕ) :
    Outcome (fun r ↦ Computed call w principalEff r.1 r.2) (fun e ↦ e = .ZeroAddress)
      (bonusAmmComputeAndUpdate call w user principalClaim principalEff lockDurationSec) := by
  simp only [bonusAmmComputeAndUpdate, Outcome.bind_iff, outcome_revertIf, Outcome.ite_iff,
    Outcome.pure_iff]
  refine ⟨fun _ ↦ trivial, fun _ ↦ ⟨fun hreserve ↦ ?_, fun hreserve ↦ ?_⟩⟩
  · constructor
    · rfl
    · rfl
    · exact fun h ↦ absurd rfl h
    · exact Bonus.capped_zero _ _ (Nat.zero_le _) (Nat.zero_le _)
    · exact fun h ↦ absurd rfl h
    · rfl
  obtain ⟨huser, hmax, hpositive⟩ := bonusRates_spec call w w.furnace.furnaceReserve
  refine ⟨fun hgross ↦ ?_, fun hgross ↦ ?_⟩
  · have hnone : computeBonusAmmPayout w.furnace.furnaceReserve principalEff
        (bonusRates call w w.furnace.furnaceReserve).1
        (bonusRates call w w.furnace.furnaceReserve).2 = ⟨0, 0, 0⟩ := by
      simp [computeBonusAmmPayout, hgross]
    constructor
    · rfl
    · rfl
    · exact fun h ↦ absurd hgross h
    · simpa only [hnone, BonusAmmFrame.bonus, splitBonusAmm, or_true, if_true] using
        Bonus.capped_zero _ _ huser hmax
    · exact fun h ↦ absurd hgross h
    · simp only [hnone, Nat.add_zero]
  obtain ⟨heq, hdepth⟩ := hpositive hgross
  have hpaid := computeBonusAmmPayout_gross w.furnace.furnaceReserve principalEff
    (bonusRates call w w.furnace.furnaceReserve).1 hgross
  have hle := hpaid.trans (grossBonusOf_le_reserve _ _ _)
  refine ⟨fun hshort ↦ absurd hle (Nat.not_le_of_lt hshort), fun _ ↦ ?_⟩
  constructor
  · rfl
  · rfl
  · exact fun _ ↦ ⟨rfl, rfl⟩
  · exact BonusAmmFrame.capped hpaid huser hgross hmax heq hdepth
  · exact fun _ ↦ hdepth
  · exact Nat.sub_add_cancel hle

/-- The LP stream is funded out of the bonus, not out of the reserve. -/
theorem fundLpStreamInternal_reserve (f : FurnaceState) (amount : ℕ) :
    Returns (fun f' ↦ f'.furnaceReserve = f.furnaceReserve)
      (fundLpStreamInternal call f amount) := by
  unfold fundLpStreamInternal
  apply Returns.ite
  · exact fun _ ↦ rfl
  intro _
  apply Returns.ite
  · exact fun _ ↦ rfl
  exact fun _ ↦ Returns.seq fun _ _ ↦ rfl

theorem bonusAmmSplitAndRoute_spec (f : FurnaceState) (frame : BonusAmmFrame) :
    Returns (fun r ↦ r.1.furnaceReserve = f.furnaceReserve ∧
        (⟨r.2.grossBonus, r.2.userBonus, r.2.lpBonus⟩ : Bonus) = frame.bonus)
      (bonusAmmSplitAndRoute call f frame) := by
  unfold bonusAmmSplitAndRoute
  apply Returns.ite
  · intro _
    apply Returns.seq
    intro f' hfund
    exact ⟨(fundLpStreamInternal_reserve call f _).of_ok hfund, rfl⟩
  · exact fun _ ↦ ⟨rfl, rfl⟩

/-- Every call of the AMM, in every state, pays a capped bonus out of the reserve. -/
theorem bonusAmm_capped (user : Address) (principalClaim principalEff lockDurationSec : ℕ) :
    Returns (fun r ↦ r.2.Capped w.furnace.furnaceReserve principalEff
        (bonusRates call w w.furnace.furnaceReserve).1
        (bonusRates call w w.furnace.furnaceReserve).2.grossSpotBps ∧
      r.1.furnace.furnaceReserve + r.2.gross = w.furnace.furnaceReserve)
      (bonusAmm call w user principalClaim principalEff lockDurationSec) := by
  obtain ⟨huser, hmax, -⟩ := bonusRates_spec call w w.furnace.furnaceReserve
  have hzero := Bonus.capped_zero w.furnace.furnaceReserve principalEff huser hmax
  unfold bonusAmm
  apply Returns.ite
  · exact fun _ ↦ ⟨hzero, rfl⟩
  intro _
  apply Returns.seq
  rintro ⟨w₁, frame⟩ hframe
  have hc := (bonusAmmComputeAndUpdate_computed call w user principalClaim principalEff
    lockDurationSec).of_ok hframe
  apply Returns.ite
  · intro hspot
    have hpaid : frame.grossBonus * BPS_DENOM ≤ principalEff * frame.grossSpotBps :=
      hc.capped.gross_mul_le
    rw [hspot, Nat.mul_zero] at hpaid
    have hnone : frame.grossBonus = 0 := by
      rcases Nat.mul_eq_zero.mp (Nat.le_zero.mp hpaid) with h | h
      · exact h
      · exact absurd h (Nat.ne_of_gt BPS_DENOM_pos)
    have heq := hc.reserve_eq
    rw [hnone] at heq
    exact ⟨hzero, heq⟩
  intro hspot
  obtain ⟨heqUser, heqGross⟩ := hc.spot_eq hspot
  have hcap := hc.capped
  rw [hc.reserveBefore_eq, heqUser, heqGross] at hcap
  apply Returns.seq
  rintro ⟨f, routed⟩ hroute
  have hrouted : f.furnaceReserve = w₁.furnace.furnaceReserve ∧
      (⟨routed.grossBonus, routed.userBonus, routed.lpBonus⟩ : Bonus) = frame.bonus :=
    (bonusAmmSplitAndRoute_spec call w₁.furnace frame).of_ok hroute
  refine ⟨hrouted.2 ▸ hcap, ?_⟩
  have hpaid : routed.grossBonus = frame.grossBonus := congrArg Bonus.gross hrouted.2
  rw [hpaid, ← hc.reserve_eq, ← hrouted.1]
  simp only [bonusAmmEmit]
  split <;> rfl

/-- The caps hold exactly: the AMM reverts only without a quoter, its frame is
within the caps at a depth that reaches the target, and so is what it pays. -/
theorem bonus_caps (user : Address) (principalClaim principalEff lockDurationSec : ℕ) :
    Outcome (fun r ↦ Computed call w principalEff r.1 r.2) (fun e ↦ e = .ZeroAddress)
        (bonusAmmComputeAndUpdate call w user principalClaim principalEff lockDurationSec) ∧
      Returns (fun r ↦ r.2.Capped w.furnace.furnaceReserve principalEff
          (bonusRates call w w.furnace.furnaceReserve).1
          (bonusRates call w w.furnace.furnaceReserve).2.grossSpotBps ∧
        r.1.furnace.furnaceReserve + r.2.gross = w.furnace.furnaceReserve)
        (bonusAmm call w user principalClaim principalEff lockDurationSec) :=
  ⟨bonusAmmComputeAndUpdate_computed call w user principalClaim principalEff lockDurationSec,
    bonusAmm_capped call w user principalClaim principalEff lockDurationSec⟩

end ClaimRush.Furnace
