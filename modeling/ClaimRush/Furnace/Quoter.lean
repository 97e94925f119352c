import ClaimRush.Furnace.GuardHelper

/-!
# FurnaceQuoter

The view contract of the Furnace.  It holds its own copies of the duration
curve, of the rates and of the previews; the bonus model itself (spot rate, LP
scale, sale spreads) lives only here and is called by the Furnace.
-/

namespace ClaimRush.Furnace.Quoter

open Constants

/-! ## Durations -/

/-- `_clampDurationSeconds`. -/
def clampDurationSeconds (durationSeconds : ℕ) : ℕ :=
  if durationSeconds < MIN_LOCK_DURATION then MIN_LOCK_DURATION
  else if durationSeconds > MAX_LOCK_DURATION then MAX_LOCK_DURATION
  else durationSeconds

/-- `_durationWeight`. -/
def durationWeight (durationSeconds : ℕ) : ℕ :=
  let d := clampDurationSeconds durationSeconds
  let wp := WEIGHT_PRECISION
  if d ≤ MIN_LOCK_DURATION then 100 * wp
  else if d ≤ 14 * DAY then
    100 * wp + (d - MIN_LOCK_DURATION) * ((175 - 100) * wp) / (14 * DAY - MIN_LOCK_DURATION)
  else if d ≤ 21 * DAY then
    175 * wp + (d - 14 * DAY) * ((300 - 175) * wp) / (21 * DAY - 14 * DAY)
  else if d ≤ 30 * DAY then
    300 * wp + (d - 21 * DAY) * ((500 - 300) * wp) / (30 * DAY - 21 * DAY)
  else if d ≤ 90 * DAY then
    500 * wp + (d - 30 * DAY) * ((1500 - 500) * wp) / (90 * DAY - 30 * DAY)
  else if d ≤ 180 * DAY then
    1500 * wp + (d - 90 * DAY) * ((4000 - 1500) * wp) / (180 * DAY - 90 * DAY)
  else if d ≤ 270 * DAY then
    4000 * wp + (d - 180 * DAY) * ((6500 - 4000) * wp) / (270 * DAY - 180 * DAY)
  else
    6500 * wp + (d - 270 * DAY) * ((BPS_DENOM - 6500) * wp) / (MAX_LOCK_DURATION - 270 * DAY)

/-! ## The bonus model -/

/-- `_lockedPctBps`. -/
def lockedPctBps (lockedSupply totalSupply : ℕ) : ℕ :=
  if totalSupply = 0 then 0
  else
    let pct := BPS_DENOM * lockedSupply / totalSupply
    if pct > BPS_DENOM then BPS_DENOM else pct

/-- `_baseUserBps`. -/
def baseUserBps (lockedSupply totalSupply : ℕ) : ℕ :=
  MAX_USER_BONUS_BPS * LOCK_PCT_TARGET_BPS /
    (LOCK_PCT_TARGET_BPS + lockedPctBps lockedSupply totalSupply)

/-- `_maxReserveFactorBps`. -/
def maxReserveFactorBps (lockedPctBps : ℕ) : ℕ :=
  let lowLock := LOCK_PCT_MIN_FOR_BOOST_CAP_BPS
  let fullLock := LOCK_PCT_FULL_BOOST_CAP_BPS
  let lowCap := RESERVE_FACTOR_MAX_BPS_LOWLOCK
  let highCap := RESERVE_FACTOR_MAX_BPS
  if lockedPctBps ≤ lowLock then lowCap
  else if lockedPctBps ≥ fullLock then highCap
  else lowCap + (highCap - lowCap) * (lockedPctBps - lowLock) / (fullLock - lowLock)

/-- `_reserveFullnessBps`. -/
def reserveFullnessBps (reserve : ℕ) : ℕ :=
  let raw := BPS_DENOM * reserve / RESERVE_TARGET_FINAL
  if raw > RESERVE_FACTOR_MAX_BPS then RESERVE_FACTOR_MAX_BPS else raw

/-- `_swingAlphaBps`. -/
def swingAlphaBps (elapsed : ℕ) : ℕ :=
  let raw := BPS_DENOM * elapsed / SWING_TIME
  if raw > BPS_DENOM then BPS_DENOM else raw

/-- `_reserveFactorBps`. -/
def reserveFactorBps (reserveFullnessBps swingAlphaBps : ℕ) : ℕ :=
  if swingAlphaBps = 0 then BPS_DENOM
  else if reserveFullnessBps = BPS_DENOM then BPS_DENOM
  else if reserveFullnessBps > BPS_DENOM then
    let out := BPS_DENOM + swingAlphaBps * (reserveFullnessBps - BPS_DENOM) / BPS_DENOM
    if out > RESERVE_FACTOR_MAX_BPS then RESERVE_FACTOR_MAX_BPS else out
  else
    let dec := ceilDiv (swingAlphaBps * (BPS_DENOM - reserveFullnessBps)) BPS_DENOM
    if dec ≥ BPS_DENOM then 0 else BPS_DENOM - dec

/-- The reserve factor under the cap for the locked percentage, as both
`_userSpotBonusBps` and `_lpScaleBps` compute it. -/
def cappedReserveFactorBps (lockedSupply totalSupply reserve elapsed : ℕ) : ℕ :=
  let reserveFactor := reserveFactorBps (reserveFullnessBps reserve) (swingAlphaBps elapsed)
  let maxFactorBps := maxReserveFactorBps (lockedPctBps lockedSupply totalSupply)
  if reserveFactor > maxFactorBps then maxFactorBps else reserveFactor

/-- `_userSpotBonusBps`. -/
def userSpotBonusBps (lockedSupply totalSupply reserve elapsed : ℕ) : ℕ :=
  let reserveFactor := cappedReserveFactorBps lockedSupply totalSupply reserve elapsed
  let spot := baseUserBps lockedSupply totalSupply * reserveFactor / BPS_DENOM
  if spot > MAX_USER_BONUS_BPS then MAX_USER_BONUS_BPS else spot

/-- `_lpScaleBps`. -/
def lpScaleBps (lockedSupply totalSupply reserve elapsed : ℕ) : ℕ :=
  let reserveFactor := cappedReserveFactorBps lockedSupply totalSupply reserve elapsed
  if reserveFactor > BPS_DENOM then BPS_DENOM else reserveFactor

/-- `_lpTopupRateBps`. -/
def lpTopupRateBps (lpRewardsEnabled : Bool) (userSpotBonusBps : ℕ) : ℕ :=
  if !lpRewardsEnabled then 0
  else
    let span := LP_TOPUP_RATE_MAX_BPS - LP_TOPUP_RATE_MIN_BPS
    let extra :=
      span * userSpotBonusBps / MAX_USER_BONUS_BPS * userSpotBonusBps / MAX_USER_BONUS_BPS
    let rate := LP_TOPUP_RATE_MIN_BPS + extra
    if rate > LP_TOPUP_RATE_MAX_BPS then LP_TOPUP_RATE_MAX_BPS else rate

/-- `_grossSpotBonusBps`. -/
def grossSpotBonusBps (userSpotBonusBps lpTopupRateBps : ℕ) : ℕ :=
  let lpTopupSpotBps := userSpotBonusBps * lpTopupRateBps / BPS_DENOM
  let gross := userSpotBonusBps + lpTopupSpotBps
  if gross > MAX_GROSS_BONUS_BPS then MAX_GROSS_BONUS_BPS else gross

section Views

variable {S : Type} (call : Call) (w : World S)

/-- `_whenLockingEnabled`. -/
def whenLockingEnabled : Except Error Unit := revertIf w.furnace.lockingPaused .LockingPaused

/-- `_timeSinceLaunch`. -/
def timeSinceLaunch : ℕ :=
  let core := w.furnace.mineCore
  let t0 :=
    if core ≠ 0 ∧ call.codeLength core ≠ 0 then
      (call.emissionStartTime core).getD w.furnace.deploymentTime
    else w.furnace.deploymentTime
  if call.timestamp ≤ t0 then 0 else call.timestamp - t0

/-- `_previewReserveAfterLpOverflowDrip`: the reserve after the pending drip, and
the drip. -/
def previewReserveAfterLpOverflowDrip : Except Error (ℕ × ℕ) :=
  let f := w.furnace
  let reserveBefore := f.furnaceReserve
  if call.timestamp ≤ f.lastLpOverflowDripUpdate then .ok (reserveBefore, 0)
  else if f.lpRewardsVault = 0 then .ok (reserveBefore, 0)
  else do
    let p ← previewOverflowDrip call f.mineCore f.deploymentTime reserveBefore
    let dripped := p.perDay * (call.timestamp - f.lastLpOverflowDripUpdate) / DAY
    if p.perDay = 0 ∨ dripped = 0 then return (reserveBefore, 0)
    else if reserveBefore ≤ RESERVE_TARGET_FINAL then return (reserveBefore, 0)
    else
      let maxSpend := reserveBefore - RESERVE_TARGET_FINAL
      let dripped := if dripped > maxSpend then maxSpend else dripped
      return (reserveBefore - dripped, dripped)

/-- `_previewVirtualDepthWithReserve`. -/
def previewVirtualDepthWithReserve (reserve grossSpotBonusBps : ℕ) : ℕ :=
  if reserve = 0 ∨ grossSpotBonusBps = 0 then 0
  else
    let vTarget := ceilDiv (reserve * BPS_DENOM) grossSpotBonusBps
    let V := if w.furnace.bonusVirtualDepth < vTarget then vTarget else w.furnace.bonusVirtualDepth
    let dt := elapsedSince w.furnace.lastBonusUpdate call.timestamp
    if dt ≥ BONUS_DECAY_WINDOW then vTarget
    else if V > vTarget then
      let excess := V - vTarget
      let remaining := BONUS_DECAY_WINDOW - dt
      vTarget + excess * remaining / BONUS_DECAY_WINDOW
    else V

/-- `_quoteBonusAmmView`: gross, user and LP bonus. -/
def quoteBonusAmmView (principalEff : ℕ) : Except Error (ℕ × ℕ × ℕ) :=
  if principalEff = 0 then .ok (0, 0, 0)
  else do
    let (reserveBefore, _) ← previewReserveAfterLpOverflowDrip call w
    if reserveBefore = 0 then return (0, 0, 0)
    else
      let lockedSupply := w.ve.totalLockedClaim
      let elapsed := timeSinceLaunch call w
      let totalSupply := w.claim.totalSupply
      let userSpotBps := userSpotBonusBps lockedSupply totalSupply reserveBefore elapsed
      let lpScale := lpScaleBps lockedSupply totalSupply reserveBefore elapsed
      let lpEnabled := decide (w.furnace.lpRewardsVault ≠ 0)
      let lpRateBps := lpTopupRateBps lpEnabled userSpotBps * lpScale / BPS_DENOM
      let grossSpotBps := grossSpotBonusBps userSpotBps lpRateBps
      if grossSpotBps = 0 then return (0, 0, 0)
      else
        let V := previewVirtualDepthWithReserve call w reserveBefore grossSpotBps
        if V = 0 then return (0, 0, 0)
        else
          let gross := reserveBefore * principalEff / (V + principalEff)
          let grossBonus := if gross > reserveBefore then reserveBefore else gross
          if lpRateBps = 0 ∨ grossBonus = 0 then return (grossBonus, grossBonus, 0)
          else
            let userBonus := grossBonus * BPS_DENOM / (BPS_DENOM + lpRateBps)
            return (grossBonus, userBonus, grossBonus - userBonus)

/-! ## Entry quotes -/

/-- `_resolveDestinationDuration`: the effective duration and the destination. -/
def resolveDestinationDuration (user : Address) (targetTokenId durationSeconds : ℕ)
    (createAutoMax : Bool) : Except Error (ℕ × ℕ) :=
  let d := clampDurationSeconds durationSeconds
  if targetTokenId = 0 then do
    revertIf (createAutoMax ∧ d ≠ MAX_LOCK_DURATION) .InvalidDuration
    return (d, 0)
  else do
    revertIf (w.ve.owners targetTokenId = 0) .InvalidToken
    revertIf (w.ve.owners targetTokenId ≠ user) .NotAuthorized
    let (_, lockEnd, autoMaxExisting, listed) := w.ve.getLockInfo call.timestamp targetTokenId
    revertIf (listed) .LockListedOrFrozen
    revertIf (lockEnd ≤ call.timestamp) .LockExpired
    if autoMaxExisting then
      revertIf (d ≠ MAX_LOCK_DURATION) .InvalidDuration
      return (MAX_LOCK_DURATION, targetTokenId)
    else
      let remaining := lockEnd - call.timestamp
      revertIf (remaining < MIN_LOCK_DURATION) .InvalidDuration
      return (remaining, targetTokenId)

/-- `_quoteVeOutForResolvedDuration`. -/
def quoteVeOutForResolvedDuration (amountLocked effectiveDuration routeTokenId : ℕ) :
    Except Error ℕ := do
  revertIf (routeTokenId = 0 ∧ amountLocked < MIN_LOCK_AMOUNT) .MinLockAmountNotMet
  return amountLocked * effectiveDuration / MAX_LOCK_DURATION

/-- `_quoteAfterPrincipal`: the bonus, the ve output and the destination. -/
def quoteAfterPrincipal (user : Address) (principalClaim targetTokenId durationSeconds : ℕ)
    (createAutoMax : Bool) : Except Error (ℕ × ℕ × ℕ) := do
  let (effectiveDuration, routeTokenId) ←
    resolveDestinationDuration call w user targetTokenId durationSeconds createAutoMax
  let weight := durationWeight effectiveDuration
  let principalEff := principalClaim * weight / WEIGHT_DENOM
  let (_, bonusClaim, _) ← quoteBonusAmmView call w principalEff
  let veOut ← quoteVeOutForResolvedDuration (principalClaim + bonusClaim) effectiveDuration
    routeTokenId
  return (bonusClaim, veOut, routeTokenId)

/-- `_requireRegistryAndRouterConfig`, also `getValidatedRouterConfig` of the
helper. -/
def requireRegistryAndRouterConfig : Except Error RouterConfig := do
  let reg := w.furnace.entryTokenRegistry
  revertIf (reg = 0 ∨ call.codeLength reg = 0) .RouterConfigNotSet
  let c ← externalCall (call.routerConfig reg)
  revertIf (c.router = 0 ∨ c.factory = 0 ∨ c.weth = 0 ∨ c.claimToken = 0) .RouterConfigNotSet
  revertIf (call.codeLength c.router = 0 ∨ call.codeLength c.factory = 0 ∨
    call.codeLength c.weth = 0 ∨ call.codeLength c.claimToken = 0) .NotAContract
  revertIf (c.claimToken ≠ w.claim.self) .InvalidToken
  return c

structure EntryQuote where
  principalClaim : ℕ
  bonusClaim : ℕ
  veOut : ℕ
  routeTokenId : ℕ
  deriving DecidableEq, Repr

/-- `quoteEnterWithClaim`. -/
def quoteEnterWithClaim (user : Address) (claimIn targetTokenId durationSeconds : ℕ)
    (createAutoMax : Bool) : Except Error EntryQuote := do
  whenLockingEnabled w
  revertIf (claimIn = 0) .AmountZero
  let _ ← requireRegistryAndRouterConfig call w
  let (bonusClaim, veOut, routeTokenId) ←
    quoteAfterPrincipal call w user claimIn targetTokenId durationSeconds createAutoMax
  return ⟨claimIn, bonusClaim, veOut, routeTokenId⟩

/-! ## Extension and AutoMax quotes -/

/-- The bonus of a quote: below the minimal top-up the user would get nothing. -/
def deliveredBonus (principalEff : ℕ) : Except Error ℕ := do
  if principalEff > 0 then
    let (_, bonusClaim, _) ← quoteBonusAmmView call w principalEff
    return if bonusClaim > 0 ∧ bonusClaim < MIN_TOPUP_AMOUNT then 0 else bonusClaim
  else return 0

/-- `quoteExtendWithBonus`: the lock amount, the bonus and the new end. -/
def quoteExtendWithBonus (user : Address) (tokenId durationSeconds : ℕ) :
    Except Error (ℕ × ℕ × ℕ) := do
  whenLockingEnabled w
  let (amt, lockEnd, autoMax, listed) := w.ve.getLockInfo call.timestamp tokenId
  revertIf (amt = 0) .InvalidToken
  revertIf (autoMax) .InvalidDuration
  revertIf (listed) .LockListedOrFrozen
  revertIf (lockEnd ≤ call.timestamp) .LockExpired
  revertIf (w.ve.owners tokenId = 0) .ERC721NonexistentToken
  revertIf (w.ve.owners tokenId ≠ user) .NotAuthorized
  let d := clampDurationSeconds durationSeconds
  let oldRemaining := lockEnd - call.timestamp
  revertIf (d ≤ oldRemaining) .InvalidDuration
  let oldWeight := durationWeight oldRemaining
  let newWeight := durationWeight d
  let delta := if newWeight > oldWeight then newWeight - oldWeight else 0
  let principalEff := amt * delta / WEIGHT_DENOM
  let recorded := w.furnace.bonusBasis tokenId
  let basis := if recorded = 0 then amt else recorded
  let principalEff := if basis < amt then principalEff * basis / amt else principalEff
  let bonusClaim ← deliveredBonus call w principalEff
  return (amt, bonusClaim, call.timestamp + d)

/-- `_quoteAutoMaxBonusSingle`: the lock amount and the bonus. -/
def quoteAutoMaxBonusSingle (tokenId : ℕ) : Except Error (ℕ × ℕ) :=
  let (amt, lockEnd, autoMax, listed) := w.ve.getLockInfo call.timestamp tokenId
  if amt = 0 ∨ !autoMax ∨ listed ∨ lockEnd ≤ call.timestamp then .ok (amt, 0)
  else
    let recorded := w.furnace.lastAutoMaxBonusClaim tokenId
    if recorded = 0 then .ok (amt, 0)
    else do
      let lockStart := (w.ve.locks tokenId).lockStart
      let lastClaim := if lockStart > recorded then lockStart else recorded
      let elapsed ← usub call.timestamp lastClaim
      if elapsed < DAY then return (amt, 0)
      else
        let elapsed := if elapsed > MAX_LOCK_DURATION then MAX_LOCK_DURATION else elapsed
        let oldWeight := durationWeight (MAX_LOCK_DURATION - elapsed)
        let maxWeight := durationWeight MAX_LOCK_DURATION
        let delta := if maxWeight > oldWeight then maxWeight - oldWeight else 0
        let bonusClaim ← deliveredBonus call w (amt * delta / WEIGHT_DENOM)
        return (amt, bonusClaim)

/-- `quoteAutoMaxBonus`. -/
def quoteAutoMaxBonus (tokenId : ℕ) : Except Error (ℕ × ℕ) := do
  whenLockingEnabled w
  quoteAutoMaxBonusSingle call w tokenId

/-! ## Sale quotes -/

/-- `_previewSellImpactVolumeAt`. -/
def previewSellImpactVolumeAt (nowTs : ℕ) : ℕ :=
  let dt := elapsedSince w.furnace.lastSellImpactUpdate nowTs
  if dt ≥ BONUS_DECAY_WINDOW then 0
  else w.furnace.sellImpactVolume * (BONUS_DECAY_WINDOW - dt) / BONUS_DECAY_WINDOW

/-- `_kingRateAt`. -/
def kingRateAt (elapsed : ℕ) : ℕ :=
  let R0 := KING_EMISSION_LAUNCH_RATE
  let RF := KING_EMISSION_FLOOR
  if elapsed ≥ EMISSION_DECAY_PERIOD then RF
  else
    let rate := R0 - (R0 - RF) * elapsed / EMISSION_DECAY_PERIOD
    if rate < RF then RF else rate

/-- `_sellImpactBps`. -/
def sellImpactBps (volAfter elapsed : ℕ) : ℕ :=
  let eWindow := kingRateAt elapsed * BONUS_DECAY_WINDOW
  let freeVol := eWindow / 2
  let stepVol := if eWindow / 5 = 0 then MIN_LOCK_AMOUNT else eWindow / 5
  if volAfter ≤ freeVol then 0
  else
    let maxSteps := SELL_IMPACT_MAX_BPS / SELL_IMPACT_BPS_PER_STEP + 1
    let steps := min ((volAfter - freeVol) / stepVol) maxSteps
    let impactBps := steps * SELL_IMPACT_BPS_PER_STEP
    if impactBps > SELL_IMPACT_MAX_BPS then SELL_IMPACT_MAX_BPS else impactBps

/-- `_sellSystemSpreadBps`. -/
def sellSystemSpreadBps (userSpotBonusBps : ℕ) : ℕ :=
  let noArb := ceilDiv (BPS_DENOM * userSpotBonusBps) (BPS_DENOM + userSpotBonusBps)
  let bBps := min (userSpotBonusBps * BPS_DENOM / MAX_USER_BONUS_BPS) BPS_DENOM
  let span := SELL_SPREAD_MAX_BPS - SELL_SPREAD_MIN_BPS
  let extra := span * bBps / BPS_DENOM * bBps / BPS_DENOM
  let curve := SELL_SPREAD_MIN_BPS + extra
  if noArb > curve then noArb else curve

/-- `_sellDurationFactorBps`. -/
def sellDurationFactorBps (remainingSec : ℕ) : ℕ :=
  if remainingSec ≤ MIN_LOCK_DURATION then 500
  else if remainingSec ≥ MAX_LOCK_DURATION then BPS_DENOM
  else if remainingSec ≤ 30 * DAY then
    500 + (1500 - 500) * (remainingSec - MIN_LOCK_DURATION) / (30 * DAY - MIN_LOCK_DURATION)
  else if remainingSec ≤ 90 * DAY then
    1500 + (3500 - 1500) * (remainingSec - 30 * DAY) / (90 * DAY - 30 * DAY)
  else if remainingSec ≤ 180 * DAY then
    3500 + (6000 - 3500) * (remainingSec - 90 * DAY) / (180 * DAY - 90 * DAY)
  else
    6000 + (BPS_DENOM - 6000) * (remainingSec - 180 * DAY) / (MAX_LOCK_DURATION - 180 * DAY)

/-- `_sellSpreadWithSize`: the size does not enter. -/
def sellSpreadWithSize (spreadDurBps : ℕ) : ℕ :=
  if spreadDurBps ≥ SELL_SPREAD_MAX_BPS then SELL_SPREAD_MAX_BPS else spreadDurBps

/-- `_lpSaleShareBps`. -/
def lpSaleShareBps (userSpotBonusBps : ℕ) : ℕ :=
  let bBps := min (userSpotBonusBps * BPS_DENOM / MAX_USER_BONUS_BPS) BPS_DENOM
  let span := LP_SALE_MAX_BPS - LP_SALE_MIN_BPS
  let extra := span * bBps / BPS_DENOM * bBps / BPS_DENOM
  let rate := LP_SALE_MIN_BPS + extra
  if rate > LP_SALE_MAX_BPS then LP_SALE_MAX_BPS else rate

/-- `_sellRoundTripLossBps`. -/
def sellRoundTripLossBps (remainingSec : ℕ) : ℕ :=
  ceilDiv (SELL_ROUND_TRIP_LOSS_MAX_BPS * clampDurationSeconds remainingSec) MAX_LOCK_DURATION

/-- `_sellRoundTripSpreadFloorBps` before the clamp. -/
def roundTripFloorBps (userSpotBonusBps remainingSec : ℕ) : ℕ :=
  let d := clampDurationSeconds remainingSec
  let bBuyBps := userSpotBonusBps * durationWeight d / WEIGHT_DENOM
  ceilDiv (BPS_DENOM * (bBuyBps + sellRoundTripLossBps d)) (BPS_DENOM + bBuyBps)

/-- `_sellRoundTripSpreadFloorBps`. -/
def sellRoundTripSpreadFloorBps (userSpotBonusBps remainingSec : ℕ) : ℕ :=
  let floorBps := roundTripFloorBps userSpotBonusBps remainingSec
  if floorBps > SELL_SPREAD_MAX_BPS then SELL_SPREAD_MAX_BPS else floorBps

structure SellLockMath where
  claimOut : ℕ := 0
  spreadBps : ℕ := 0
  lpReward : ℕ := 0
  reserveAdd : ℕ := 0
  bonusRefBpsUsed : ℕ := 0
  deriving DecidableEq, Repr

/-- The spread of `_sellLockMath` before the burst add-on. -/
def sellBaseSpreadBps (bonusRefBpsUsed remainingSec : ℕ) : ℕ :=
  let spreadDurBps :=
    sellSystemSpreadBps bonusRefBpsUsed * sellDurationFactorBps remainingSec / BPS_DENOM
  let spreadBps := sellSpreadWithSize spreadDurBps
  let spreadBps :=
    if remainingSec ≤ MIN_LOCK_DURATION ∧ spreadBps < SELL_SPREAD_FLOOR_7D_BPS then
      SELL_SPREAD_FLOOR_7D_BPS
    else spreadBps
  let rtFloorBps := sellRoundTripSpreadFloorBps bonusRefBpsUsed remainingSec
  if spreadBps < rtFloorBps then rtFloorBps else spreadBps

/-- `_sellLockMath`, without the figures that only analytics reads. -/
def sellLockMath (lockAmount remainingSec lockedSupplyExcl reserveBefore elapsed : ℕ) :
    Except Error SellLockMath :=
  if lockAmount = 0 then .ok {}
  else do
    let f := w.furnace
    let totalSupply := w.claim.totalSupply
    revertIf (totalSupply = 0) .InvariantViolation
    let spotBonusBps := userSpotBonusBps lockedSupplyExcl totalSupply reserveBefore elapsed
    let baseBonusBps := baseUserBps lockedSupplyExcl totalSupply
    let bonusRefBpsUsed := if spotBonusBps < baseBonusBps then baseBonusBps else spotBonusBps
    let volAfter := previewSellImpactVolumeAt w call.timestamp + lockAmount
    let impactBps := sellImpactBps volAfter elapsed
    let baseSpread := sellBaseSpreadBps bonusRefBpsUsed remainingSec
    let spreadBps :=
      if impactBps ≠ 0 then min (baseSpread + impactBps) SELL_SPREAD_MAX_BPS else baseSpread
    let claimOut :=
      if spreadBps ≥ BPS_DENOM then 0 else lockAmount * (BPS_DENOM - spreadBps) / BPS_DENOM
    let cut := lockAmount - claimOut
    let lpReward ←
      if f.lpRewardsVault ≠ 0 then do
        let lpScale := lpScaleBps lockedSupplyExcl totalSupply reserveBefore elapsed
        let lpShareBps := lpSaleShareBps bonusRefBpsUsed * lpScale / BPS_DENOM
        let remainingCap ←
          lpSaleRewardCapRemaining call f.mineCore f.lpSaleFundedDay f.lpSaleFundedToday
        pure (min (cut * lpShareBps / BPS_DENOM) remainingCap)
      else pure 0
    return { claimOut := claimOut
             spreadBps := spreadBps
             lpReward := lpReward
             reserveAdd := cut - lpReward
             bonusRefBpsUsed := bonusRefBpsUsed }

/-- The part that `_quoteSellLockToFurnaceCore` and `quoteSellLockForExecution`
share: the sale figures and the previewed reserve. -/
def sellLockFigures (lockAmount lockEnd : ℕ) (autoMax : Bool) :
    Except Error (SellLockMath × ℕ) := do
  revertIf (!autoMax ∧ lockEnd ≤ call.timestamp) .LockExpired
  let remainingSec := if autoMax then MAX_LOCK_DURATION else lockEnd - call.timestamp
  revertIf (w.ve.totalLockedClaim < lockAmount) .InvariantViolation
  let lockedSupplyExcl := w.ve.totalLockedClaim - lockAmount
  let elapsed := timeSinceLaunch call w
  let (reserveBefore, _) ← previewReserveAfterLpOverflowDrip call w
  let m ← sellLockMath call w lockAmount remainingSec lockedSupplyExcl reserveBefore elapsed
  return (m, reserveBefore)

/-- `quoteSellLockToFurnaceFromInfo`. -/
def quoteSellLockToFurnaceFromInfo (lockAmount lockEnd : ℕ) (autoMax : Bool) :
    Except Error SellLockMath := do
  whenLockingEnabled w
  revertIf (lockAmount = 0) .AmountZero
  let (m, _) ← sellLockFigures call w lockAmount lockEnd autoMax
  return m

structure SellExecutionQuote where
  claimOut : ℕ
  spreadBps : ℕ
  lpSaleShareBps : ℕ
  lpReward : ℕ
  reserveAdd : ℕ
  bonusBpsUsed : ℕ
  reserveBefore : ℕ
  deriving DecidableEq, Repr

/-- `quoteSellLockForExecution`. -/
def quoteSellLockForExecution (lockAmount lockEnd : ℕ) (autoMax : Bool) :
    Except Error SellExecutionQuote := do
  whenLockingEnabled w
  revertIf (lockAmount = 0) .AmountZero
  let (m, reserveBefore) ← sellLockFigures call w lockAmount lockEnd autoMax
  let cut := lockAmount - m.claimOut
  return { claimOut := m.claimOut
           spreadBps := m.spreadBps
           lpSaleShareBps := if cut > 0 ∧ m.lpReward > 0 then m.lpReward * BPS_DENOM / cut else 0
           lpReward := m.lpReward
           reserveAdd := m.reserveAdd
           bonusBpsUsed := m.bonusRefBpsUsed
           reserveBefore := reserveBefore }

end Views

end ClaimRush.Furnace.Quoter
