import ClaimRush.MarketRouter.Offers

/-!
# Runs of the router

The owner's and the guardian's calls, the dispatch over all entry points, and the
router next to the outer world.
-/

open Function

namespace ClaimRush.MarketRouter

open Constants
open VeClaimNFT (World IShareholderRoyalties)

variable {S : Type} (peers : Peers S) (call : Call) (w : RouterWorld S)

/-! ## Administration -/

/-- `onlyOwner`. -/
def checkOwner (r : RouterState) : Except Error Unit := do
  revertIf (r.owner ≠ call.sender) .OwnableUnauthorizedAccount
  validateNewOwner call call.sender

/-- `onlyGuardian`. -/
def checkGuardian (r : RouterState) : Except Error Unit := do
  revertIf (call.sender ≠ r.guardian) .OnlyGuardian
  rejectDelegatedEOA call call.sender

/-- The caller of `setGuardian`: the owner, or the guardian itself. -/
def checkGuardianSetter (r : RouterState) : Except Error Unit :=
  if call.sender = r.owner then validateNewOwner call call.sender
  else if call.sender = r.guardian then rejectDelegatedEOA call call.sender
  else .error .NotAuthorized

def setGuardian (r : RouterState) (guardian : Address) : Except Error RouterState := do
  checkGuardianSetter call r
  revertIf (guardian = 0) .ZeroAddress
  revertIf (guardian = r.self) .NotAuthorized
  rejectDelegatedEOA call guardian
  return { r with guardian := guardian }.emit (.GuardianChanged r.guardian guardian)

def setBonusTargetEscrowParams (r : RouterState) (minBudget maxDiscountBps : ℕ) :
    Except Error RouterState := do
  checkOwner call r
  revertIf (minBudget = 0) .BudgetTooSmall
  revertIf (maxDiscountBps > BPS_DENOM) .DiscountTooHigh
  revertIf (minBudget < r.minBonusTargetEscrowBudget) .DecreaseNotAllowed
  revertIf (minBudget > MAX_BONUS_TARGET_ESCROW_BUDGET_CAP) .BudgetTooHigh
  let r' := { r with
    minBonusTargetEscrowBudget := minBudget, maxBonusTargetEscrowDiscountBps := maxDiscountBps }
  return r'.emit (.BonusTargetEscrowParamsChanged r.minBonusTargetEscrowBudget minBudget
    r.maxBonusTargetEscrowDiscountBps maxDiscountBps)

def pauseTrading (r : RouterState) (paused : Bool) : Except Error RouterState := do
  checkGuardian call r
  if paused = r.tradingPaused then return r
  else return { r with tradingPaused := paused }.emit (.TradingPausedChanged paused)

def setSettlementKeeper (r : RouterState) (keeper : Address) (allowed : Bool) :
    Except Error RouterState := do
  checkOwner call r
  revertIf (keeper = 0) .ZeroAddress
  revertIf (allowed ∧ call.delegatedEOA keeper) .DelegatedEOA
  let r := { r with isSettlementKeeper := update r.isSettlementKeeper keeper allowed }
  return r.emit (.SettlementKeeperSet keeper allowed)

def transferOwnership (r : RouterState) (newOwner : Address) : Except Error RouterState := do
  checkOwner call r
  revertIf (newOwner = 0) .OwnableInvalidOwner
  validateNewOwner call newOwner
  return { r with pendingOwner := newOwner }.emit (.OwnershipTransferStarted r.owner newOwner)

def acceptOwnership (r : RouterState) : Except Error RouterState := do
  revertIf (r.pendingOwner ≠ call.sender) .OwnableUnauthorizedAccount
  validateNewOwner call call.sender
  return { r with pendingOwner := 0, owner := call.sender }.emit
    (.OwnershipTransferred r.owner call.sender)

/-! ## Entry points -/

inductive Op
  | listLock (tokenId minClaimOut expiresAtTime : ℕ)
  | delistLock (tokenId : ℕ)
  | cancelExpiredListing (tokenId : ℕ)
  | cancelExpiredListingBatch (tokenIds : List ℕ)
  | cleanupStaleListing (tokenId : ℕ)
  | emergencyDelist (tokenId : ℕ)
  | sellLockToFurnace (tokenId minClaimOut deadline : ℕ)
  | sellListedLockToFurnace (tokenId deadline : ℕ)
  | createBonusTargetEscrowWithTarget (targetBonusBps budgetClaim durationSeconds : ℕ)
      (createAutoMax : Bool) (escrowTtlSeconds destinationLockId slippageBps : ℕ)
  | cancelBonusTargetEscrow (offerId : ℕ)
  | cancelExpiredBonusTargetEscrow (offerId : ℕ)
  | cancelExpiredBonusTargetEscrowBatch (offerIds : List ℕ)
  | extendBonusTargetEscrowExpiry (offerId newExpiresAt : ℕ)
  | executeAutoFurnace (offerId deadline : ℕ)
  | setGuardian (guardian : Address)
  | setBonusTargetEscrowParams (minBudget maxDiscountBps : ℕ)
  | pauseTrading (paused : Bool)
  | setSettlementKeeper (keeper : Address) (allowed : Bool)
  | transferOwnership (newOwner : Address)
  | acceptOwnership
  deriving DecidableEq, Repr

/-- A call that only writes the router. -/
def onRouter (x : Except Error RouterState) : Except Error (RouterWorld S) := do
  return { w with router := ← x }

/-- Execute one external call on the router. -/
def exec : Op → Except Error (RouterWorld S)
  | .listLock tokenId minClaimOut expiresAtTime =>
      listLock call w tokenId minClaimOut expiresAtTime
  | .delistLock tokenId => delistLock call w tokenId
  | .cancelExpiredListing tokenId => cancelExpiredListing call w tokenId
  | .cancelExpiredListingBatch tokenIds => cancelExpiredListingBatch call w tokenIds
  | .cleanupStaleListing tokenId => cleanupStaleListing call w tokenId
  | .emergencyDelist tokenId => emergencyDelist call w tokenId
  | .sellLockToFurnace tokenId minClaimOut deadline =>
      sellLockToFurnace peers call w tokenId minClaimOut deadline
  | .sellListedLockToFurnace tokenId deadline =>
      sellListedLockToFurnace peers call w tokenId deadline
  | .createBonusTargetEscrowWithTarget targetBonusBps budgetClaim durationSeconds createAutoMax
      escrowTtlSeconds destinationLockId slippageBps =>
      createBonusTargetEscrowWithTarget call w targetBonusBps budgetClaim durationSeconds
        createAutoMax escrowTtlSeconds destinationLockId slippageBps
  | .cancelBonusTargetEscrow offerId => cancelBonusTargetEscrow call w offerId
  | .cancelExpiredBonusTargetEscrow offerId => cancelExpiredBonusTargetEscrow call w offerId
  | .cancelExpiredBonusTargetEscrowBatch offerIds =>
      cancelExpiredBonusTargetEscrowBatch call w offerIds
  | .extendBonusTargetEscrowExpiry offerId newExpiresAt =>
      extendBonusTargetEscrowExpiry call w offerId newExpiresAt
  | .executeAutoFurnace offerId deadline => executeAutoFurnace peers call w offerId deadline
  | .setGuardian guardian => onRouter w (setGuardian call w.router guardian)
  | .setBonusTargetEscrowParams minBudget maxDiscountBps =>
      onRouter w (setBonusTargetEscrowParams call w.router minBudget maxDiscountBps)
  | .pauseTrading paused => onRouter w (pauseTrading call w.router paused)
  | .setSettlementKeeper keeper allowed =>
      onRouter w (setSettlementKeeper call w.router keeper allowed)
  | .transferOwnership newOwner => onRouter w (transferOwnership call w.router newOwner)
  | .acceptOwnership => onRouter w (acceptOwnership call w.router)

/-! ## The system -/

/-- The world, its last block, and the accounts that the lock contract has ever
taken for its Furnace. -/
structure Config (S : Type) where
  now : ℕ
  blockNumber : ℕ
  world : RouterWorld S
  furnaces : Set Address

variable {peers}

/-- A call on the router or on the lock contract, or a change of the royalties
storage or of the token.  A Furnace makes no call on the entry points of the
router. -/
inductive Step (peers : Peers S) : Config S → Config S → Prop
  | router {c : Config S} {w : RouterWorld S} (call : Call) (op : Op)
      (hnow : c.now ≤ call.timestamp) (hblock : c.blockNumber ≤ call.blockNumber)
      (hsender : call.sender ∉ c.furnaces) (hexec : exec peers call c.world op = .ok w) :
      Step peers c ⟨call.timestamp, call.blockNumber, w, c.furnaces⟩
  | ve {c : Config S} {w : World S} (call : VeClaimNFT.Call) (op : VeClaimNFT.Op)
      (hnow : c.now ≤ call.timestamp)
      (hexec : VeClaimNFT.exec peers.port call c.world.outer op = .ok w) :
      Step peers c ⟨call.timestamp, c.blockNumber, { c.world with outer := w },
        insert w.ve.furnace c.furnaces⟩
  | rest (c : Config S) (royalties : S) (claim : ClaimToken) :
      Step peers c ⟨c.now, c.blockNumber, { c.world with
        outer := { ve := c.world.outer.ve, royalties := royalties, claim := claim } }, c.furnaces⟩

/-- A router deployed next to a lock contract that has been running. -/
def system (peers : Peers S) : TransitionSystem (Config S) where
  init c := (VeClaimNFT.system peers.port).Reachable ⟨c.now, c.world.outer⟩ ∧
    c.furnaces = {c.world.outer.ve.furnace} ∧
    ∃ self royalties initialOwner, c.world.router =
      initial self c.world.outer.ve.claimToken c.world.outer.ve.self royalties initialOwner
  step := Step peers

end ClaimRush.MarketRouter
