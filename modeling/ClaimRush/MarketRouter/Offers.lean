import ClaimRush.MarketRouter.Listings

/-!
# Bonus target escrows

The entry points that open an offer, close it with a refund, extend it, and
execute it into the Furnace.
-/

open Function

namespace ClaimRush.MarketRouter

open Constants

section Peers

variable {S : Type} (peers : Peers S) (call : Call) (w : RouterWorld S)

/-- `_validateBonusTargetEscrow`: the effective duration and the expiry. -/
def validateBonusTargetEscrow (discountBps budgetClaim durationSeconds : ℕ)
    (createAutoMax : Bool) (escrowTtlSeconds : ℕ) : Except Error (ℕ × ℕ) := do
  revertIf (budgetClaim < w.router.minBonusTargetEscrowBudget) .BudgetTooSmall
  revertIf (discountBps ≥ BPS_DENOM) .DiscountTooHigh
  revertIf (discountBps > w.router.maxBonusTargetEscrowDiscountBps) .DiscountTooHigh
  let ttl :=
    if escrowTtlSeconds = 0 then DEFAULT_BONUS_TARGET_ESCROW_TTL_SECONDS else escrowTtlSeconds
  revertIf (ttl < MIN_BONUS_TARGET_ESCROW_TTL_SECONDS ∨
    ttl > MAX_BONUS_TARGET_ESCROW_TTL_SECONDS) .InvalidOfferTtl
  let effectiveDurationSeconds := if createAutoMax then MAX_LOCK_DURATION else durationSeconds
  revertIf (effectiveDurationSeconds < MIN_LOCK_DURATION ∨
    effectiveDurationSeconds > MAX_LOCK_DURATION) .InvalidDuration
  let expiresAt ← uint256 (call.timestamp + ttl)
  return (effectiveDurationSeconds, expiresAt)

/-- `_validateEligibleDestinationLock`. -/
def validateEligibleDestinationLock (user : Address) (tokenId targetEnd : ℕ)
    (targetAutoMax : Bool) : Except Error Unit := do
  let tokenOwner ← requireTokenOwner w tokenId
  revertIf (tokenOwner ≠ user) .NotAuthorized
  let info := w.outer.ve.getLockInfo call.timestamp tokenId
  let lockEnd := info.2.1
  let autoMax := info.2.2.1
  let listed := info.2.2.2
  revertIf (lockEnd ≤ call.timestamp) .LockExpired
  revertIf listed .LockListedOrFrozen
  revertIf (!autoMax ∧ lockEnd - call.timestamp < MIN_LOCK_DURATION) .InvalidDuration
  revertIf (autoMax ≠ targetAutoMax) .AutoMaxMismatch
  revertIf (lockEnd < targetEnd) .DecreaseNotAllowed

/-- `_isEligibleDestinationLock`: the same conditions, answered. -/
def isEligibleDestinationLock (user : Address) (tokenId targetEnd : ℕ) (targetAutoMax : Bool) :
    Bool :=
  tokenId ≠ 0 ∧ (validateEligibleDestinationLock call w user tokenId targetEnd targetAutoMax).isOk

/-- `claim.safeTransfer`, called by the router. -/
def refund (buyer : Address) (amount : ℕ) : Except Error (RouterWorld S) :=
  if amount > 0 then do
    let claim ← w.outer.claim.transfer w.router.self buyer amount
    return { w with outer := { w.outer with claim := claim } }
  else .ok w

/-- Deactivate an offer, drop its target and take it off its buyer's list. -/
def closeOffer (offerId : ℕ) : Except Error (RouterWorld S) := do
  let offer := w.router.offers offerId
  let r := { w.router with
    offers := update w.router.offers offerId { offer with active := false, fundsRemaining := 0 }
    bonusTargetConfigs := update w.router.bonusTargetConfigs offerId {} }
  return { w with router := ← r.removeUserOffer offer.buyer offerId }

/-! ## Opening and closing -/

/-- Pull the budget of `offer` from the caller and enter it under the next id. -/
def enterOffer (offer : BonusTargetEscrow) (config : BonusTargetConfig) :
    Except Error (RouterWorld S × ℕ) := do
  let claim ←
    w.outer.claim.transferFrom w.router.self offer.buyer w.router.self offer.fundsRemaining
  let offerId := w.router.nextOfferId
  let nextOfferId ← uint256 (offerId + 1)
  let r := { w.router with
    nextOfferId := nextOfferId, offers := update w.router.offers offerId offer
    bonusTargetConfigs := update w.router.bonusTargetConfigs offerId config }
  return ({ router := r.addUserOffer offer.buyer offerId
            outer := { w.outer with claim := claim } }, offerId)

/-- `_createBonusTargetEscrowWithTargetInternal`, with the id of the new offer. -/
def createOffer (targetBonusBps budgetClaim durationSeconds : ℕ) (createAutoMax : Bool)
    (escrowTtlSeconds destinationLockId slippageBps : ℕ) :
    Except Error (RouterWorld S × ℕ) := do
  revertIf (slippageBps ≥ BPS_DENOM) .SlippageTooHigh
  revertIf (targetBonusBps = 0) .AmountZero
  let denom ← uint256 (BPS_DENOM + targetBonusBps)
  let discountBps ← mulDiv targetBonusBps BPS_DENOM denom
  let (effectiveDurationSeconds, expiresAt) ← validateBonusTargetEscrow call w discountBps
    budgetClaim durationSeconds createAutoMax escrowTtlSeconds
  let targetEnd ← uint256 (call.timestamp + effectiveDurationSeconds)
  if destinationLockId ≠ 0 then
    validateEligibleDestinationLock call w call.sender destinationLockId targetEnd createAutoMax
  enterOffer w
    { buyer := call.sender, discountBps := discountBps, durationSeconds := effectiveDurationSeconds
      createAutoMax := createAutoMax, destinationLockId := destinationLockId
      fundsRemaining := budgetClaim, createdAt := call.timestamp, expiresAt := expiresAt
      active := true }
    { targetBonusBps := targetBonusBps, slippageBps := slippageBps, configured := true }

def createBonusTargetEscrowWithTarget (targetBonusBps budgetClaim durationSeconds : ℕ)
    (createAutoMax : Bool) (escrowTtlSeconds destinationLockId slippageBps : ℕ) :
    Except Error (RouterWorld S) := do
  whenTradingEnabled w.router
  let _ ← requireCanonicalFurnace call w
  let (w, offerId) ← createOffer call w targetBonusBps budgetClaim durationSeconds createAutoMax
    escrowTtlSeconds destinationLockId slippageBps
  let offer := w.router.offers offerId
  let r := w.router.emit (.BonusTargetEscrowCreated offerId offer.buyer offer.discountBps
    offer.durationSeconds offer.createAutoMax offer.expiresAt offer.destinationLockId
    offer.fundsRemaining offer.createdAt)
  return { w with
    router := r.emit (.BonusTargetEscrowConfigured offerId offer.buyer targetBonusBps slippageBps) }

/-- Close an offer and pay what is left back to its buyer. -/
def closeWithRefund (offerId : ℕ) (event : ℕ → Address → ℕ → Event) :
    Except Error (RouterWorld S) := do
  let buyer := (w.router.offers offerId).buyer
  let remaining := (w.router.offers offerId).fundsRemaining
  let w ← closeOffer w offerId
  let w ← refund w buyer remaining
  return { w with router := w.router.emit (event offerId buyer remaining) }

def cancelBonusTargetEscrow (offerId : ℕ) : Except Error (RouterWorld S) := do
  let offer := w.router.offers offerId
  revertIf (!offer.active) .OfferNotActive
  revertIf (offer.buyer ≠ call.sender ∧ isCanonicalOfferLifecycleRouter call w) .NotAuthorized
  closeWithRefund w offerId .BonusTargetEscrowCancelled

def cancelExpiredBonusTargetEscrow (offerId : ℕ) : Except Error (RouterWorld S) := do
  let offer := w.router.offers offerId
  revertIf (!offer.active) .OfferNotActive
  revertIf (call.timestamp < offer.expiresAt) .OfferNotExpired
  closeWithRefund w offerId .BonusTargetEscrowExpired

/-- One entry of `cancelExpiredBonusTargetEscrowBatch`; an ineligible one is skipped. -/
def cancelExpiredBonusTargetEscrowEntry (offerId : ℕ) : Except Error (RouterWorld S) :=
  let offer := w.router.offers offerId
  if offer.active ∧ call.timestamp ≥ offer.expiresAt then
    closeWithRefund w offerId .BonusTargetEscrowExpired
  else .ok w

def cancelExpiredBonusTargetEscrowBatch (offerIds : List ℕ) : Except Error (RouterWorld S) :=
  offerIds.foldlM (cancelExpiredBonusTargetEscrowEntry call) w

def extendBonusTargetEscrowExpiry (offerId newExpiresAt : ℕ) : Except Error (RouterWorld S) := do
  whenTradingEnabled w.router
  let offer := w.router.offers offerId
  revertIf (!offer.active) .OfferNotActive
  revertIf (offer.buyer ≠ call.sender) .NotAuthorized
  let _ ← requireCanonicalFurnace call w
  revertIf (call.timestamp ≥ offer.expiresAt) .OfferExpired
  revertIf (newExpiresAt ≤ offer.expiresAt) .InvalidOfferExpiry
  let maxExpiresAt ← uint256 (offer.createdAt + MAX_BONUS_TARGET_ESCROW_TTL_SECONDS)
  revertIf (newExpiresAt > maxExpiresAt) .InvalidOfferExpiry
  let r := { w.router with
    offers := update w.router.offers offerId { offer with expiresAt := newExpiresAt } }
  return { w with
    router := r.emit
      (.BonusTargetEscrowExpiryExtended offerId call.sender offer.expiresAt newExpiresAt) }

/-! ## Execution -/

structure AutoFurnaceSnapshot where
  buyer : Address
  claimIn : ℕ
  durationSeconds : ℕ
  createAutoMax : Bool
  destinationLockId : ℕ
  targetBonusBps : ℕ
  slippageBps : ℕ

structure AutoFurnacePrep where
  furnaceAddr : Address
  resolvedLockId : ℕ
  executionDurationSeconds : ℕ
  principalClaim : ℕ
  bonusClaim : ℕ
  veOut : ℕ
  routeTokenId : ℕ
  minVeOut : ℕ

/-- `_closeOfferForAutoFurnace`. -/
def closeOfferForAutoFurnace (offerId : ℕ) :
    Except Error (RouterWorld S × AutoFurnaceSnapshot) := do
  let offer := w.router.offers offerId
  revertIf (!offer.active) .OfferNotActive
  revertIf (call.timestamp ≥ offer.expiresAt) .OfferExpired
  let cfg := w.router.bonusTargetConfigs offerId
  revertIf (!cfg.configured) .BonusTargetNotConfigured
  let claimIn := offer.fundsRemaining
  revertIf (claimIn = 0) .OfferInsufficientFunds
  let snapshot : AutoFurnaceSnapshot :=
    { buyer := offer.buyer, claimIn := claimIn, durationSeconds := offer.durationSeconds
      createAutoMax := offer.createAutoMax, destinationLockId := offer.destinationLockId
      targetBonusBps := cfg.targetBonusBps, slippageBps := cfg.slippageBps }
  let w ← closeOffer w offerId
  return (w, snapshot)

/-- `_prepareAutoFurnaceExecution`; an ineligible destination falls back to a new
lock, and an existing lock is quoted with its live remaining duration. -/
def prepareAutoFurnaceExecution (s : AutoFurnaceSnapshot) : Except Error AutoFurnacePrep := do
  let targetEnd ← uint256 (call.timestamp + MIN_LOCK_DURATION)
  let resolvedLockId :=
    if s.destinationLockId ≠ 0 ∧
      !isEligibleDestinationLock call w s.buyer s.destinationLockId targetEnd s.createAutoMax
    then 0 else s.destinationLockId
  let info := w.outer.ve.getLockInfo call.timestamp resolvedLockId
  let executionDurationSeconds ←
    if resolvedLockId ≠ 0 then
      if info.2.2.1 then pure MAX_LOCK_DURATION else usub info.2.1 call.timestamp
    else pure s.durationSeconds
  let furnaceAddr ← requireCanonicalFurnace call w
  let ownCall := call.as w.router.self
  let quoter := peers.furnaceQuoter ownCall w.outer furnaceAddr
  revertIf (quoter = 0) .ZeroAddress
  match peers.quoteEnterWithClaim ownCall w.outer quoter s.buyer s.claimIn resolvedLockId
      executionDurationSeconds s.createAutoMax with
  | none => throw .QuoteCallFailed
  | some (principalClaim, bonusClaim, veOut, routeTokenId) =>
    revertIf (principalClaim = 0) .AmountZero
    revertIf (resolvedLockId = 0 ∧ s.claimIn < MIN_LOCK_AMOUNT) .BudgetTooSmall
    let bonusBpsVsPrincipalClaim ← mulDiv bonusClaim BPS_DENOM principalClaim
    revertIf (bonusBpsVsPrincipalClaim < s.targetBonusBps) .BonusTargetNotMet
    let keepBps ← usub BPS_DENOM s.slippageBps
    let floor ← mulDiv veOut keepBps BPS_DENOM
    return {
      furnaceAddr := furnaceAddr, resolvedLockId := resolvedLockId
      executionDurationSeconds := executionDurationSeconds, principalClaim := principalClaim
      bonusClaim := bonusClaim, veOut := veOut, routeTokenId := routeTokenId
      minVeOut := if floor = 0 ∧ veOut > 0 then 1 else floor }

/-- `SafeApprove.forceApprove` of the Furnace on the token, by the router. -/
def forceApprove (furnaceAddr : Address) (amount : ℕ) : RouterWorld S :=
  { w with outer :=
    { w.outer with claim := w.outer.claim.approve w.router.self furnaceAddr amount } }

/-- `_enterFurnaceWithClaimFor`. -/
def enterFurnaceWithClaimFor (s : AutoFurnaceSnapshot) (p : AutoFurnacePrep) :
    Except Error (RouterWorld S × ℕ) := do
  let w := forceApprove w p.furnaceAddr s.claimIn
  let (outer, furnaceTokenId) ← externalCall
    (peers.enterWithClaimFor (call.as w.router.self) w.outer p.furnaceAddr s.buyer s.claimIn
      p.resolvedLockId p.executionDurationSeconds s.createAutoMax p.minVeOut)
  revertIf (furnaceTokenId = 0) .InvalidToken
  return (forceApprove { w with outer := outer } p.furnaceAddr 0, furnaceTokenId)

def executeAutoFurnace (offerId deadline : ℕ) : Except Error (RouterWorld S) := do
  whenTradingEnabled w.router
  revertIf (call.timestamp > deadline) .DeadlineExpired
  let offer := w.router.offers offerId
  revertIf (!offer.active) .OfferNotActive
  revertIf (call.timestamp ≥ offer.expiresAt) .OfferExpired
  requireSettlementKeeper call w.router offer.createdAt
  let (w, s) ← closeOfferForAutoFurnace call w offerId
  let p ← prepareAutoFurnaceExecution peers call w s
  let r :=
    if s.destinationLockId ≠ 0 ∧ p.resolvedLockId = 0 then
      w.router.emit (.DestinationLockIneligible offerId s.destinationLockId)
    else w.router
  let (w, furnaceTokenId) ← enterFurnaceWithClaimFor peers call { w with router := r } s p
  let r := w.router.emit (.BonusTargetEscrowExecuted offerId s.buyer s.claimIn p.principalClaim
    p.bonusClaim p.veOut p.routeTokenId furnaceTokenId)
  return { w with
    router := r.emit (.BonusTargetEscrowAutoFurnaceExecuted offerId s.buyer s.claimIn
      p.principalClaim p.bonusClaim p.veOut p.routeTokenId furnaceTokenId) }

end Peers

end ClaimRush.MarketRouter
