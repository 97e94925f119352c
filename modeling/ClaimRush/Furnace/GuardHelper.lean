import ClaimRush.Furnace.State

/-!
# FurnaceGuardHelper

The arithmetic of the Furnace that lives in its helper contract: the duration
weights, the rates and payouts of the bonus curve, the overflow drip and the
caps on LP funding.  Quotients are full-precision products, and a quotient of
CLAIM amounts or basis points fits a word.
-/

namespace ClaimRush.Furnace

open Constants

/-! ## Duration weights -/

/-- `_segmentWeight`. -/
def segmentWeight (d leftSec rightSec leftBps rightBps : ℕ) : ℕ :=
  leftBps * WEIGHT_PRECISION +
    (d - leftSec) * ((rightBps - leftBps) * WEIGHT_PRECISION) / (rightSec - leftSec)

/-- The clamped duration of `_clampAndDurationWeight`. -/
def clampDuration (durationSeconds : ℕ) : ℕ :=
  if durationSeconds < MIN_LOCK_DURATION then MIN_LOCK_DURATION
  else if durationSeconds > MAX_LOCK_DURATION then MAX_LOCK_DURATION
  else durationSeconds

/-- The weight of `_clampAndDurationWeight`. -/
def durationWeight (durationSeconds : ℕ) : ℕ :=
  let d := clampDuration durationSeconds
  if d ≤ MIN_LOCK_DURATION then 100 * WEIGHT_PRECISION
  else if d ≤ 14 * DAY then segmentWeight d MIN_LOCK_DURATION (14 * DAY) 100 175
  else if d ≤ 21 * DAY then segmentWeight d (14 * DAY) (21 * DAY) 175 300
  else if d ≤ 30 * DAY then segmentWeight d (21 * DAY) (30 * DAY) 300 500
  else if d ≤ 90 * DAY then segmentWeight d (30 * DAY) (90 * DAY) 500 1500
  else if d ≤ 180 * DAY then segmentWeight d (90 * DAY) (180 * DAY) 1500 4000
  else if d ≤ 270 * DAY then segmentWeight d (180 * DAY) (270 * DAY) 4000 6500
  else segmentWeight d (270 * DAY) MAX_LOCK_DURATION 6500 BPS_DENOM

/-- `_weightDelta`. -/
def weightDelta (newDuration oldDuration : ℕ) : ℕ :=
  let oldWeight := durationWeight oldDuration
  let newWeight := durationWeight newDuration
  if newWeight > oldWeight then newWeight - oldWeight else 0

/-- `incrementalPrincipalEff`. -/
def incrementalPrincipalEff (lockAmount newDuration oldDuration : ℕ) : ℕ :=
  lockAmount * weightDelta newDuration oldDuration / WEIGHT_DENOM

/-! ## The bonus curve -/

/-- `_lpTopupRateBps`, convex in the spot bonus. -/
def lpTopupRateBps (lpRewardsEnabled : Bool) (userSpotBonusBps : ℕ) : ℕ :=
  if !lpRewardsEnabled then 0
  else
    let span := LP_TOPUP_RATE_MAX_BPS - LP_TOPUP_RATE_MIN_BPS
    let extra :=
      span * userSpotBonusBps / MAX_USER_BONUS_BPS * userSpotBonusBps / MAX_USER_BONUS_BPS
    let rate := LP_TOPUP_RATE_MIN_BPS + extra
    if rate > LP_TOPUP_RATE_MAX_BPS then LP_TOPUP_RATE_MAX_BPS else rate

/-- `_grossSpotBonusBps`. -/
def grossSpotBonusBps (userSpotBonusBps lpTopupRateBps : ℕ) : ℕ :=
  let lpTopupSpotBps := userSpotBonusBps * lpTopupRateBps / BPS_DENOM
  let gross := userSpotBonusBps + lpTopupSpotBps
  if gross > MAX_GROSS_BONUS_BPS then MAX_GROSS_BONUS_BPS else gross

/-- Time since an update, zero when the update lies ahead. -/
def elapsedSince (lastUpdate nowTs : ℕ) : ℕ := if nowTs > lastUpdate then nowTs - lastUpdate else 0

/-- `_previewVirtualDepth`: the depth decays to its target over the window and
never lies below it. -/
def previewVirtualDepth (reserve currentVirtualDepth lastBonusUpdate grossSpotBonusBps nowTs : ℕ) :
    ℕ :=
  if reserve = 0 ∨ grossSpotBonusBps = 0 then 0
  else
    let vTarget := ceilDiv (reserve * BPS_DENOM) grossSpotBonusBps
    let V := if currentVirtualDepth < vTarget then vTarget else currentVirtualDepth
    let dt := elapsedSince lastBonusUpdate nowTs
    if dt ≥ BONUS_DECAY_WINDOW then vTarget
    else if V > vTarget then
      let excess := V - vTarget
      let remaining := BONUS_DECAY_WINDOW - dt
      vTarget + excess * remaining / BONUS_DECAY_WINDOW
    else V

structure BonusAmmRates where
  lpRateBps : ℕ
  grossSpotBps : ℕ
  virtualDepth : ℕ
  deriving DecidableEq, Repr

/-- `computeBonusAmmRates`.  The previewed and the effective depth are equal. -/
def computeBonusAmmRates (lpRewardsEnabled : Bool) (reserveBefore currentVirtualDepth
    lastBonusUpdate userSpotBps lpScaleBps nowTs : ℕ) : BonusAmmRates :=
  if reserveBefore = 0 ∨ userSpotBps = 0 then ⟨0, 0, 0⟩
  else
    let lpRateBps := lpTopupRateBps lpRewardsEnabled userSpotBps * lpScaleBps / BPS_DENOM
    let grossSpotBps := grossSpotBonusBps userSpotBps lpRateBps
    if grossSpotBps = 0 then ⟨lpRateBps, 0, 0⟩
    else
      ⟨lpRateBps, grossSpotBps,
        previewVirtualDepth reserveBefore currentVirtualDepth lastBonusUpdate grossSpotBps nowTs⟩

/-- The gross bonus of `computeBonusAmmPayout`. -/
def grossBonusOf (reserveBefore principalEff virtualDepth : ℕ) : ℕ :=
  let grossBonus := reserveBefore * principalEff / (virtualDepth + principalEff)
  if grossBonus > reserveBefore then reserveBefore else grossBonus

structure BonusAmmPayout where
  grossBonus : ℕ
  quoteUserBps : ℕ
  quoteLpBps : ℕ
  deriving DecidableEq, Repr

/-- `computeBonusAmmPayout`. -/
def computeBonusAmmPayout (reserveBefore principalEff userSpotBps : ℕ) (r : BonusAmmRates) :
    BonusAmmPayout :=
  if reserveBefore = 0 ∨ principalEff = 0 ∨ r.grossSpotBps = 0 then ⟨0, 0, 0⟩
  else
    let grossBonus := grossBonusOf reserveBefore principalEff r.virtualDepth
    let quoted := reserveBefore * BPS_DENOM / r.virtualDepth
    let grossQuoteBps := if quoted > r.grossSpotBps then r.grossSpotBps else quoted
    if r.lpRateBps = 0 then ⟨grossBonus, grossQuoteBps, 0⟩
    else
      let userQuote := grossQuoteBps * BPS_DENOM / (BPS_DENOM + r.lpRateBps)
      let quoteUserBps := if userQuote > userSpotBps then userSpotBps else userQuote
      ⟨grossBonus, quoteUserBps, quoteUserBps * r.lpRateBps / BPS_DENOM⟩

/-- `splitBonusAmm`: the user part and the LP part of a gross bonus. -/
def splitBonusAmm (grossBonus lpRateBps : ℕ) : ℕ × ℕ :=
  if lpRateBps = 0 ∨ grossBonus = 0 then (grossBonus, 0)
  else
    let userBonus := grossBonus * BPS_DENOM / (BPS_DENOM + lpRateBps)
    (userBonus, grossBonus - userBonus)

/-! ## Emissions and the overflow drip -/

section Views

variable (call : Call)

/-- `_timeSinceLaunch`. -/
def timeSinceLaunch (core : Address) (deploymentTime : ℕ) : ℕ :=
  let t0 :=
    if core ≠ 0 ∧ call.codeLength core ≠ 0 then
      (call.emissionStartTime core).getD deploymentTime
    else deploymentTime
  if call.timestamp ≤ t0 then 0 else call.timestamp - t0

/-- `_furnaceInflowPerDay`. -/
def furnaceInflowPerDay (core : Address) : Except Error ℕ :=
  if core = 0 ∨ call.codeLength core = 0 then .ok 0
  else do
    let rate ← externalCall (call.furnaceEmissionRateAt core call.timestamp)
    uint256 (rate * DAY)

/-- `_capInflowPerDayFromInflow`. -/
def capInflowPerDayFromInflow (inflowPerDay : ℕ) : ℕ :=
  inflowPerDay * LP_OVERFLOW_DRIP_INFLOW_SHARE_CAP_BPS / BPS_DENOM

/-- `_dripAlphaBps`. -/
def dripAlphaBps (elapsed : ℕ) : ℕ :=
  if elapsed ≤ LP_OVERFLOW_DRIP_START then 0
  else
    let dt := elapsed - LP_OVERFLOW_DRIP_START
    if dt ≥ LP_OVERFLOW_DRIP_RAMP then BPS_DENOM else BPS_DENOM * dt / LP_OVERFLOW_DRIP_RAMP

/-- `_gateBpsFromReserve`. -/
def gateBpsFromReserve (reserve : ℕ) : ℕ :=
  if reserve ≤ RESERVE_TARGET_FINAL then 0
  else
    let excess := reserve - RESERVE_TARGET_FINAL
    BPS_DENOM * excess / (excess + LP_OVERFLOW_DRIP_GATE_K)

structure OverflowDripPreview where
  elapsed : ℕ := 0
  inflowPerDay : ℕ := 0
  capInflowPerDay : ℕ := 0
  alphaBps : ℕ := 0
  gateBps : ℕ := 0
  perDay : ℕ := 0
  deriving DecidableEq, Repr

/-- `_previewOverflowDrip`. -/
def previewOverflowDrip (core : Address) (deploymentTime reserve : ℕ) :
    Except Error OverflowDripPreview :=
  if reserve ≤ RESERVE_TARGET_FINAL then .ok {}
  else do
    let inflowPerDay ← furnaceInflowPerDay call core
    let elapsed := timeSinceLaunch call core deploymentTime
    let p : OverflowDripPreview :=
      { elapsed := elapsed
        inflowPerDay := inflowPerDay
        capInflowPerDay := capInflowPerDayFromInflow inflowPerDay
        alphaBps := dripAlphaBps elapsed }
    if p.alphaBps = 0 ∨ p.capInflowPerDay = 0 then return p
    else
      let baseCap := min p.capInflowPerDay LP_OVERFLOW_DRIP_FIXED_CAP_PER_DAY
      let p := { p with gateBps := gateBpsFromReserve reserve }
      if p.gateBps = 0 then return p
      else
        let out := baseCap * p.gateBps / BPS_DENOM
        return { p with perDay := out * p.alphaBps / BPS_DENOM }

/-- `_lpRewardsVaultLiabilityView`: the stream and the drip that has accrued. -/
def lpRewardsVaultLiability (f : FurnaceState) : Except Error ℕ :=
  if f.lpRewardsVault = 0 then .ok 0
  else if call.timestamp ≤ f.lastLpOverflowDripUpdate ∨ f.furnaceReserve ≤ RESERVE_TARGET_FINAL then
    .ok f.stream.liability
  else do
    let p ← previewOverflowDrip call f.mineCore f.deploymentTime f.furnaceReserve
    let pending := p.perDay * (call.timestamp - f.lastLpOverflowDripUpdate) / DAY
    let maxSpend := f.furnaceReserve - RESERVE_TARGET_FINAL
    return f.stream.liability + if pending > maxSpend then maxSpend else pending

/-! ## Caps on LP funding from sales -/

/-- `_lpSaleRewardCapPerDay`. -/
def lpSaleRewardCapPerDay (core : Address) : Except Error ℕ := do
  let fixedCap := LP_SALE_REWARD_CAP_FIXED_CAP_PER_DAY
  let inflowPerDay ← furnaceInflowPerDay call core
  let capInflow := inflowPerDay * LP_SALE_REWARD_CAP_INFLOW_SHARE_BPS / BPS_DENOM
  return if capInflow = 0 then fixedCap else min capInflow fixedCap

/-- `_lpSaleRewardFundedToday`. -/
def lpSaleRewardFundedToday (fundedDay fundedToday : ℕ) : ℕ :=
  if fundedDay ≠ call.timestamp / DAY then 0 else fundedToday

/-- `_lpSaleRewardCapRemaining`. -/
def lpSaleRewardCapRemaining (core : Address) (fundedDay fundedToday : ℕ) : Except Error ℕ := do
  let cap ← lpSaleRewardCapPerDay call core
  return cap - lpSaleRewardFundedToday call fundedDay fundedToday

/-- `computeAccruedSellImpactVolume` without the addition: the decayed volume. -/
def decayedSellImpactVolume (currentVol lastUpdate : ℕ) : ℕ :=
  let dt := elapsedSince lastUpdate call.timestamp
  if dt < BONUS_DECAY_WINDOW then
    currentVol * (BONUS_DECAY_WINDOW - dt) / BONUS_DECAY_WINDOW
  else 0

end Views

end ClaimRush.Furnace
