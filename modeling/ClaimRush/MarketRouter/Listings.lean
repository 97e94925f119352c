import ClaimRush.MarketRouter.State

/-!
# Listings and sales

The entry points that list a lock, take a listing back, and sell a lock into the
Furnace.
-/

open Function

namespace ClaimRush.MarketRouter

open Constants

/-! ## Guards -/

section Guards

variable (call : Call) (r : RouterState)

def whenTradingEnabled : Except Error Unit := revertIf r.tradingPaused .TradingPaused

/-- `_rejectDelegatedEOA`. -/
def rejectDelegatedEOA (account : Address) : Except Error Unit :=
  revertIf (call.delegatedEOA account) .DelegatedEOA

/-- `_validateNewOwner`. -/
def validateNewOwner (newOwner : Address) : Except Error Unit :=
  revertIf (call.delegatedEOA newOwner) .DelegatedEOAOwner

/-- `_enforceListingCooldown`. -/
def enforceListingCooldown (tokenId : ℕ) : Except Error Unit :=
  revertIf (call.blockNumber ≤ r.lastListingActionBlock tokenId) .ListingCooldown

/-- The gate of the first half hour after `since`: allowlisted keepers and the owner. -/
def requireSettlementKeeper (since : ℕ) : Except Error Unit := do
  if !r.isSettlementKeeper call.sender ∧ call.sender ≠ r.owner then
    let graceEnd ← uint256 (since + SETTLEMENT_KEEPER_GRACE_SECONDS)
    revertIf (call.timestamp < graceEnd) .SettlementKeeperGracePeriod
  else if r.isSettlementKeeper call.sender then rejectDelegatedEOA call call.sender
  else validateNewOwner call call.sender

end Guards

section Peers

variable {S : Type} (peers : Peers S) (call : Call) (w : RouterWorld S)

/-- `_requireTokenOwner`. -/
def requireTokenOwner (tokenId : ℕ) : Except Error Address := do
  revertIf (w.outer.ve.owners tokenId = 0) .InvalidToken
  return w.outer.ve.owners tokenId

/-- The reciprocal edges of the canonical bundle around `furnace` and `core`. -/
def canonicalBundle (furnace core : Address) : Bool :=
  let r := w.router
  let at_ := call.staticcallAddress
  at_ furnace .ve == r.ve && at_ furnace .claim == r.claim && at_ furnace .mineMarket == r.self
    && at_ furnace .mineCore == core && at_ furnace .shareholderRoyalties == r.royalties
    && at_ r.royalties .mineMarket == r.self && at_ r.royalties .furnace == furnace
    && at_ r.royalties .ve == r.ve && at_ core .furnace == furnace
    && at_ core .royalties == r.royalties && at_ core .claim == r.claim && at_ core .ve == r.ve
    && at_ r.claim .mineCore == core

/-- `_requireCanonicalFurnace`. -/
def requireCanonicalFurnace : Except Error Address := do
  let r := w.router
  let furnace := w.outer.ve.furnace
  revertIf (furnace = 0) .ZeroAddress
  revertIf (!call.isContract furnace) .NotAContract
  revertIf (w.outer.ve.mineMarket ≠ r.self) .WiringMismatch
  revertIf (!call.isContract r.claim ∨ !call.isContract r.ve ∨ !call.isContract r.royalties)
    .NotAContract
  let core := call.staticcallAddress r.royalties .mineCore
  revertIf (core = 0) .ZeroAddress
  revertIf (!call.isContract core) .NotAContract
  revertIf (!canonicalBundle call w furnace core) .WiringMismatch
  return furnace

/-- `_isCanonicalOfferLifecycleRouter`. -/
def isCanonicalOfferLifecycleRouter : Bool := (requireCanonicalFurnace call w).isOk

/-- `ve.setListed`, called by the router. -/
def setListed (tokenId : ℕ) (listed : Bool) : Except Error (RouterWorld S) := do
  return { w with outer := ← VeClaimNFT.setListed (call.as w.router.self) w.outer tokenId listed }

/-- `_clearListing`. -/
def clearListing (tokenId : ℕ) (seller : Address) : Except Error (RouterWorld S) := do
  let r := { w.router with
    listings := update w.router.listings tokenId {}
    lastListingActionBlock := update w.router.lastListingActionBlock tokenId call.blockNumber }
  return { w with router := ← r.removeUserListing seller tokenId }

/-! ## Listings -/

def listLock (tokenId minClaimOut expiresAtTime : ℕ) : Except Error (RouterWorld S) := do
  whenTradingEnabled w.router
  revertIf (minClaimOut = 0) .AmountZero
  revertIf (expiresAtTime ≤ call.timestamp) .InvalidListingExpiry
  enforceListingCooldown call w.router tokenId
  let tokenOwner ← requireTokenOwner w tokenId
  revertIf (tokenOwner ≠ call.sender) .NotAuthorized
  let info := w.outer.ve.getLockInfo call.timestamp tokenId
  let lockEnd := info.2.1
  let listed := info.2.2.2
  revertIf (lockEnd ≤ call.timestamp) .LockExpired
  revertIf (expiresAtTime > lockEnd) .InvalidListingExpiry
  revertIf listed .LockListedOrFrozen
  let r := { w.router with
    listings := update w.router.listings tokenId
      { seller := call.sender, minClaimOut := minClaimOut, listedAtTime := call.timestamp
        expiresAtTime := expiresAtTime, active := true }
    lastListingActionBlock := update w.router.lastListingActionBlock tokenId call.blockNumber }
  let w := { w with router := r.addUserListing call.sender tokenId }
  let w ← setListed call w tokenId true
  return { w with
    router := w.router.emit
      (.LockListed tokenId call.sender minClaimOut call.timestamp expiresAtTime) }

/-- Clear an active listing here and in the lock contract. -/
def delist (tokenId : ℕ) (seller : Address) (reason : ℕ) : Except Error (RouterWorld S) := do
  let w ← clearListing call w tokenId seller
  let w ← setListed call w tokenId false
  return { w with router := w.router.emit (.LockDelisted tokenId seller reason) }

/-- `delistLock`; without a local record it clears a stale flag of the lock. -/
def delistLock (tokenId : ℕ) : Except Error (RouterWorld S) := do
  enforceListingCooldown call w.router tokenId
  let lst := w.router.listings tokenId
  if !lst.active then
    let tokenOwner ← requireTokenOwner w tokenId
    revertIf (tokenOwner ≠ call.sender) .NotAuthorized
    let listed := (w.outer.ve.getLockInfo call.timestamp tokenId).2.2.2
    revertIf (!listed) .ListingNotActive
    let r := { w.router with
      lastListingActionBlock := update w.router.lastListingActionBlock tokenId call.blockNumber }
    let w ← setListed call { w with router := r } tokenId false
    return { w with
      router := w.router.emit (.LockDelisted tokenId tokenOwner LOCK_DELIST_REASON_NORMAL) }
  else
    revertIf (lst.seller ≠ call.sender) .NotAuthorized
    delist call w tokenId lst.seller
      (if call.timestamp ≥ lst.expiresAtTime then LOCK_DELIST_REASON_EXPIRED
      else LOCK_DELIST_REASON_NORMAL)

def cancelExpiredListing (tokenId : ℕ) : Except Error (RouterWorld S) := do
  enforceListingCooldown call w.router tokenId
  let lst := w.router.listings tokenId
  revertIf (!lst.active) .ListingNotActive
  revertIf (call.timestamp < lst.expiresAtTime) .ListingNotExpired
  delist call w tokenId lst.seller LOCK_DELIST_REASON_EXPIRED

/-- One entry of `cancelExpiredListingBatch`; an ineligible one is skipped. -/
def cancelExpiredListingEntry (tokenId : ℕ) : Except Error (RouterWorld S) :=
  let lst := w.router.listings tokenId
  if lst.active ∧ call.timestamp ≥ lst.expiresAtTime then
    delist call w tokenId lst.seller LOCK_DELIST_REASON_EXPIRED
  else .ok w

def cancelExpiredListingBatch (tokenIds : List ℕ) : Except Error (RouterWorld S) :=
  tokenIds.foldlM (cancelExpiredListingEntry call) w

def cleanupStaleListing (tokenId : ℕ) : Except Error (RouterWorld S) := do
  enforceListingCooldown call w.router tokenId
  let lst := w.router.listings tokenId
  revertIf (!lst.active) .ListingNotActive
  let listed := (w.outer.ve.getLockInfo call.timestamp tokenId).2.2.2
  revertIf listed .LockListedOrFrozen
  let w ← clearListing call w tokenId lst.seller
  return { w with
    router := w.router.emit (.LockDelisted tokenId lst.seller LOCK_DELIST_REASON_NORMAL) }

def emergencyDelist (tokenId : ℕ) : Except Error (RouterWorld S) := do
  enforceListingCooldown call w.router tokenId
  let lst := w.router.listings tokenId
  revertIf (!lst.active) .ListingNotActive
  revertIf (lst.seller ≠ call.sender) .NotAuthorized
  let minTime ← uint256 (lst.listedAtTime + EMERGENCY_DELIST_MIN_AGE)
  revertIf (call.timestamp < minTime) .EmergencyDelistTooSoon
  delist call w tokenId lst.seller LOCK_DELIST_REASON_EMERGENCY

/-! ## Sales to the Furnace -/

/-- `_autoDelistForSale`. -/
def autoDelistForSale (tokenId : ℕ) : Except Error (RouterWorld S) := do
  enforceListingCooldown call w.router tokenId
  let lst := w.router.listings tokenId
  let w ←
    if lst.active then do
      revertIf (lst.seller ≠ call.sender) .NotAuthorized
      let w ← clearListing call w tokenId lst.seller
      let e := Event.LockDelisted tokenId lst.seller LOCK_DELIST_REASON_SOLD_TO_FURNACE
      pure { w with router := w.router.emit e }
    else
      let r := { w.router with
        lastListingActionBlock := update w.router.lastListingActionBlock tokenId call.blockNumber }
      pure { w with router := r }
  setListed call w tokenId false

/-- The royalties checkpoint, the transfer into custody and the sale. -/
def transferAndSell (furnace seller : Address) (tokenId minClaimOut : ℕ) :
    Except Error (RouterWorld S × ℕ) := do
  let ownCall := call.as w.router.self
  let outer ← externalCall (peers.checkpointTransfer ownCall w.outer seller furnace)
  let outer ← VeClaimNFT.safeTransferFrom peers.port ownCall outer seller furnace tokenId
  let (outer, claimOut) ← externalCall
    (peers.sellLockToFurnaceFromMarket ownCall outer furnace seller tokenId minClaimOut)
  return ({ w with outer := outer }, claimOut)

def sellLockToFurnace (tokenId minClaimOut deadline : ℕ) : Except Error (RouterWorld S) := do
  whenTradingEnabled w.router
  revertIf (call.timestamp > deadline) .DeadlineExpired
  let seller ← requireTokenOwner w tokenId
  revertIf (seller ≠ call.sender) .NotAuthorized
  let furnace ← requireCanonicalFurnace call w
  let info := w.outer.ve.getLockInfo call.timestamp tokenId
  revertIf (info.1 = 0) .InvalidToken
  revertIf (info.2.1 ≤ call.timestamp) .LockExpired
  let w ← autoDelistForSale call w tokenId
  let (w, claimOut) ← transferAndSell peers call w furnace seller tokenId minClaimOut
  revertIf (claimOut < minClaimOut) .SlippageTooHigh
  return { w with
    router := w.router.emit (.MarketSellToFurnace tokenId seller minClaimOut deadline claimOut) }

def sellListedLockToFurnace (tokenId deadline : ℕ) : Except Error (RouterWorld S) := do
  whenTradingEnabled w.router
  revertIf (call.timestamp > deadline) .DeadlineExpired
  let lst := w.router.listings tokenId
  revertIf (!lst.active) .ListingNotActive
  enforceListingCooldown call w.router tokenId
  revertIf (call.timestamp ≥ lst.expiresAtTime) .ListingExpired
  let seller := lst.seller
  let currentOwner ← requireTokenOwner w tokenId
  revertIf (currentOwner ≠ seller) .NotAuthorized
  requireSettlementKeeper call w.router lst.listedAtTime
  let minClaimOut := lst.minClaimOut
  let info := w.outer.ve.getLockInfo call.timestamp tokenId
  let lockAmount := info.1
  let lockEnd := info.2.1
  let autoMax := info.2.2.1
  let listed := info.2.2.2
  revertIf (lockAmount = 0) .InvalidToken
  revertIf (!listed) .ListingNotActive
  revertIf (lockEnd ≤ call.timestamp) .LockExpired
  let furnace ← requireCanonicalFurnace call w
  let quoter := peers.furnaceQuoter (call.as w.router.self) w.outer furnace
  revertIf (quoter = 0) .ZeroAddress
  match peers.quoteSellLockToFurnaceFromInfo (call.as w.router.self) w.outer quoter lockAmount
      lockEnd autoMax with
  | none => throw .QuoteCallFailed
  | some (quoteClaimOut, _) =>
    revertIf (quoteClaimOut < minClaimOut) .SlippageTooHigh
    let w ← delist call w tokenId seller LOCK_DELIST_REASON_SOLD_TO_FURNACE
    let (w, claimOut) ← transferAndSell peers call w furnace seller tokenId quoteClaimOut
    revertIf (claimOut < quoteClaimOut) .SlippageTooHigh
    revertIf (claimOut < minClaimOut) .SlippageTooHigh
    let penalty := if lockAmount > claimOut then lockAmount - claimOut else 0
    return { w with router := w.router.emit (.ListingSettled tokenId seller claimOut penalty) }

end Peers

end ClaimRush.MarketRouter
