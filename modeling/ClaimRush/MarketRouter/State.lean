import ClaimRush.MarketRouter.UserIds

/-!
# Storage of MarketRouter

Listings of locks at their token ids, escrowed offers at their offer ids, and the
index arrays over both.  The lock contract, the royalties storage and the CLAIM
token are the outer world; the Furnace, its quoter and the royalties contract are
known by what their calls do to it.
-/

open Function

namespace ClaimRush.MarketRouter

open Constants
open VeClaimNFT (World IShareholderRoyalties)

structure Listing where
  seller : Address := 0
  minClaimOut : ℕ := 0
  listedAtTime : ℕ := 0
  expiresAtTime : ℕ := 0
  active : Bool := false
  deriving DecidableEq, Repr

/-- A buy order that escrows CLAIM and enters the Furnace at a target bonus. -/
structure BonusTargetEscrow where
  buyer : Address := 0
  discountBps : ℕ := 0
  durationSeconds : ℕ := 0
  createAutoMax : Bool := false
  destinationLockId : ℕ := 0
  fundsRemaining : ℕ := 0
  createdAt : ℕ := 0
  expiresAt : ℕ := 0
  active : Bool := false
  deriving DecidableEq, Repr

structure BonusTargetConfig where
  targetBonusBps : ℕ := 0
  slippageBps : ℕ := 0
  configured : Bool := false
  deriving DecidableEq, Repr

inductive Event
  | LockListed (tokenId : ℕ) (seller : Address) (minClaimOut listedAtTime expiresAtTime : ℕ)
  | LockDelisted (tokenId : ℕ) (seller : Address) (reason : ℕ)
  | ListingSettled (tokenId : ℕ) (seller : Address) (claimOut penalty : ℕ)
  | MarketSellToFurnace (tokenId : ℕ) (seller : Address) (minClaimOut deadline claimOut : ℕ)
  | BonusTargetEscrowCreated (escrowId : ℕ) (buyer : Address) (discountBps durationSeconds : ℕ)
      (createAutoMax : Bool) (expiresAt destinationLockId budgetClaim createdAt : ℕ)
  | BonusTargetEscrowConfigured (escrowId : ℕ) (buyer : Address) (targetBonusBps slippageBps : ℕ)
  | BonusTargetEscrowCancelled (escrowId : ℕ) (buyer : Address) (refundClaim : ℕ)
  | BonusTargetEscrowExpired (escrowId : ℕ) (buyer : Address) (refundClaim : ℕ)
  | BonusTargetEscrowExpiryExtended (escrowId : ℕ) (buyer : Address) (oldExpiresAt newExpiresAt : ℕ)
  | DestinationLockIneligible (offerId destinationLockId : ℕ)
  | BonusTargetEscrowExecuted (escrowId : ℕ) (buyer : Address)
      (claimIn principalClaim bonusClaim veOut routeTokenId furnaceTokenId : ℕ)
  | BonusTargetEscrowAutoFurnaceExecuted (escrowId : ℕ) (buyer : Address)
      (claimIn principalClaim bonusClaim veOut routeTokenId furnaceTokenId : ℕ)
  | BonusTargetEscrowParamsChanged
      (oldMinBudget newMinBudget oldMaxDiscountBps newMaxDiscountBps : ℕ)
  | TradingPausedChanged (paused : Bool)
  | SettlementKeeperSet (keeper : Address) (allowed : Bool)
  | GuardianChanged (oldGuardian newGuardian : Address)
  | OwnershipTransferStarted (previousOwner newOwner : Address)
  | OwnershipTransferred (previousOwner newOwner : Address)
  deriving DecidableEq, Repr

structure RouterState where
  self : Address
  claim : Address
  ve : Address
  royalties : Address
  owner : Address
  pendingOwner : Address
  guardian : Address
  tradingPaused : Bool
  isSettlementKeeper : Address → Bool
  lastListingActionBlock : ℕ → ℕ
  listings : ℕ → Listing
  offers : ℕ → BonusTargetEscrow
  bonusTargetConfigs : ℕ → BonusTargetConfig
  nextOfferId : ℕ
  minBonusTargetEscrowBudget : ℕ
  maxBonusTargetEscrowDiscountBps : ℕ
  userListings : UserIds
  userBonusTargetEscrows : UserIds
  events : List Event

/-- A call on the router: the calling surroundings and the number of its block. -/
structure Call extends VeClaimNFT.Call where
  blockNumber : ℕ

/-- The same surroundings for a call made by `sender`. -/
def Call.as (call : Call) (sender : Address) : VeClaimNFT.Call :=
  { call.toCall with sender := sender }

/-- `_isContract`. -/
def Call.isContract (call : Call) (addr : Address) : Bool :=
  addr != 0 && call.codeLength addr != 0

/-- Storage after `_initialize(initialOwner)` behind a fresh proxy. -/
def initial (self claim ve royalties initialOwner : Address) : RouterState where
  self := self
  claim := claim
  ve := ve
  royalties := royalties
  owner := initialOwner
  pendingOwner := 0
  guardian := initialOwner
  tradingPaused := false
  isSettlementKeeper := fun _ ↦ false
  lastListingActionBlock := fun _ ↦ 0
  listings := fun _ ↦ {}
  offers := fun _ ↦ {}
  bonusTargetConfigs := fun _ ↦ {}
  nextOfferId := 1
  minBonusTargetEscrowBudget := DEFAULT_MIN_BONUS_TARGET_ESCROW_BUDGET
  maxBonusTargetEscrowDiscountBps := DEFAULT_MAX_BONUS_TARGET_ESCROW_DISCOUNT_BPS
  userListings := .empty
  userBonusTargetEscrows := .empty
  events := [.OwnershipTransferred 0 initialOwner]

namespace RouterState

variable (r : RouterState)

def emit (e : Event) : RouterState := { r with events := r.events ++ [e] }

/-- `_addUserListing`. -/
def addUserListing (seller : Address) (tokenId : ℕ) : RouterState :=
  { r with userListings := r.userListings.add seller tokenId }

/-- `_removeUserListing`. -/
def removeUserListing (seller : Address) (tokenId : ℕ) : Except Error RouterState := do
  return { r with userListings := ← r.userListings.remove seller tokenId }

/-- `_addUserOffer`. -/
def addUserOffer (buyer : Address) (offerId : ℕ) : RouterState :=
  { r with userBonusTargetEscrows := r.userBonusTargetEscrows.add buyer offerId }

/-- `_removeUserOffer`. -/
def removeUserOffer (buyer : Address) (offerId : ℕ) : Except Error RouterState := do
  return { r with userBonusTargetEscrows := ← r.userBonusTargetEscrows.remove buyer offerId }

/-- `getUserListingsPaginated`. -/
def getUserListingsPaginated (user : Address) (offset limit : ℕ) : List ℕ × Bool :=
  sliceUintArray (r.userListings.ids user) offset limit

/-- `getUserBonusTargetEscrowsPaginated`. -/
def getUserBonusTargetEscrowsPaginated (user : Address) (offset limit : ℕ) : List ℕ × Bool :=
  sliceUintArray (r.userBonusTargetEscrows.ids user) offset limit

end RouterState

/-! ## The other contracts -/

/-- The lock contract executes a call in the block of `timestamp` that leaves its
wiring alone, or the royalties storage or the token changes. -/
inductive Outside {S : Type} (port : IShareholderRoyalties S) (timestamp : ℕ) :
    World S → World S → Prop
  | ve {w w' : World S} (call : VeClaimNFT.Call) (op : VeClaimNFT.Op)
      (htime : call.timestamp = timestamp) (hwiring : ∀ furnace, op ≠ .setFurnace furnace)
      (hexec : VeClaimNFT.exec port call w op = .ok w') : Outside port timestamp w w'
  | rest (w : World S) (royalties : S) (claim : ClaimToken) :
      Outside port timestamp w { ve := w.ve, royalties := royalties, claim := claim }

/-- The calls of the router on the royalties contract, the Furnace and its quoter.
They reach the lock contract through its external functions only, and never
rewire it; `none` is a reverted call. -/
structure Peers (S : Type) where
  port : IShareholderRoyalties S
  checkpointTransfer : VeClaimNFT.Call → World S → Address → Address → Option (World S)
  furnaceQuoter : VeClaimNFT.Call → World S → Address → Address
  quoteSellLockToFurnaceFromInfo :
    VeClaimNFT.Call → World S → Address → ℕ → ℕ → Bool → Option (ℕ × ℕ × ℕ × ℕ)
  quoteEnterWithClaim :
    VeClaimNFT.Call → World S → Address → Address → ℕ → ℕ → ℕ → Bool → Option (ℕ × ℕ × ℕ × ℕ)
  sellLockToFurnaceFromMarket :
    VeClaimNFT.Call → World S → Address → Address → ℕ → ℕ → Option (World S × ℕ)
  enterWithClaimFor :
    VeClaimNFT.Call → World S → Address → Address → ℕ → ℕ → ℕ → Bool → ℕ → Option (World S × ℕ)
  checkpointTransfer_outside : ∀ {call w src dst w'}, checkpointTransfer call w src dst = some w' →
    Relation.ReflTransGen (Outside port call.timestamp) w w'
  sellLockToFurnaceFromMarket_outside : ∀ {call w furnace seller tokenId minClaimOut r},
    sellLockToFurnaceFromMarket call w furnace seller tokenId minClaimOut = some r →
      Relation.ReflTransGen (Outside port call.timestamp) w r.1
  enterWithClaimFor_outside :
    ∀ {call w furnace buyer claimIn tokenId durationSeconds createAutoMax minVeOut r},
      enterWithClaimFor call w furnace buyer claimIn tokenId durationSeconds createAutoMax
        minVeOut = some r → Relation.ReflTransGen (Outside port call.timestamp) w r.1

/-- The router together with the outer world. -/
structure RouterWorld (S : Type) where
  router : RouterState
  outer : World S

end ClaimRush.MarketRouter
