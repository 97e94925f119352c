import ClaimRush.VeClaimNFT.Ownership
import ClaimRush.VeClaimNFT.Contributions

/-!
# Lock mutations

The external functions that create, change and remove locks.  Each one checks
its arguments, runs the global checkpoint and the royalties checkpoint, moves
the accumulators by the difference between the new and the old contribution,
and then writes the lock.
-/

open Function

namespace ClaimRush.VeClaimNFT

open Constants

variable {S : Type} (port : IShareholderRoyalties S) (call : Call) (w : World S)

/-- The global checkpoint and the fail-closed royalties checkpoint that precede
a user lock mutation. -/
def beginMutation (user : Address) : Except Error (World S) := do
  let w := { w with ve := ← w.ve.checkpointGlobalStateInternal call.timestamp }
  checkpointShareholderRoyalties call port w user

/-- The end written to a lock: an AutoMax lock is refreshed to the maximal
duration, another keeps `lockEnd`. -/
def refreshedEnd (nowTs lockEnd : ℕ) (autoMax : Bool) : Except Error ℕ :=
  if autoMax then uint256 (nowTs + MAX_LOCK_DURATION) else .ok lockEnd

/-- `checkpointGlobalState`, also named `checkpointTotalVe`. -/
def checkpointGlobalState : Except Error (World S) := do
  return { w with ve := ← w.ve.checkpointGlobalStateInternal call.timestamp }

/-- `_createLock`, called by `payer`. -/
def createLock (payer user : Address) (amount duration : ℕ) (autoMax : Bool) :
    Except Error (World S) := do
  revertIf (user = 0) .ZeroAddress
  revertIf (amount = 0) .AmountZero
  revertIf (amount < MIN_LOCK_AMOUNT) .MinLockAmountNotMet
  revertIf (duration < MIN_LOCK_DURATION ∨ duration > MAX_LOCK_DURATION) .InvalidDuration
  revertIf (autoMax ∧ duration ≠ MAX_LOCK_DURATION) .InvalidDuration
  revertIf (w.ve.balances user ≥ MAX_VE_NFTS_PER_USER) .TooManyVeNFTs
  let nowTs := call.timestamp
  let lockEnd ← uint256 (nowTs + if autoMax then MAX_LOCK_DURATION else duration)
  let w ← beginMutation port call w user
  let t := w.ve.global.globalLastTs
  revertIf (t ≠ nowTs) .CheckpointStale
  let l : Lock :=
    { amount := amount, lockStart := nowTs, lockEnd := lockEnd, autoMax := autoMax
      listed := false }
  let s := { w.ve with global := ← w.ve.global.createContribution l t }
  let totalLockedClaim ← uint256 (s.totalLockedClaim + amount)
  let tokenId := s.nextTokenId
  let nextTokenId ← uint256 (tokenId + 1)
  let s := { s with totalLockedClaim := totalLockedClaim, nextTokenId := nextTokenId }
  let s ← s.mint user tokenId
  let s := s.setLock tokenId l
  let s := s.emit (.LockCreated user tokenId amount lockEnd autoMax)
  let claim ← w.claim.transferFrom s.self payer s.self amount
  return pinShareholderObservedMin call port { w with ve := s, claim := claim } user

/-- `createLockFor`. -/
def createLockFor (user : Address) (amount duration : ℕ) (autoMax : Bool) :
    Except Error (World S) := do
  requireCanonicalFurnaceCaller call w.ve
  createLock port call w call.sender user amount duration autoMax

/-- `_addToLock`, called by `payer`. -/
def addToLock (payer user : Address) (tokenId amount : ℕ) : Except Error (World S) := do
  revertIf (user = 0) .ZeroAddress
  revertIf (amount = 0) .AmountZero
  revertIf (amount < MIN_TOPUP_AMOUNT) .MinLockAmountNotMet
  revertIf (w.ve.owners tokenId ≠ user) .NotAuthorized
  VeState.requireMutable call.timestamp (w.ve.locks tokenId)
  let w ← beginMutation port call w user
  let t := w.ve.global.globalLastTs
  revertIf (t ≠ call.timestamp) .CheckpointStale
  let l := w.ve.locks tokenId
  let newAmt ← uint256 (l.amount + amount)
  let lockEnd ← refreshedEnd call.timestamp l.lockEnd l.autoMax
  let s := { w.ve with global := ← w.ve.global.topUpContribution l amount newAmt t }
  let totalLockedClaim ← uint256 (s.totalLockedClaim + amount)
  let s := { s with totalLockedClaim := totalLockedClaim }
  let l' : Lock :=
    { l with amount := newAmt, lockStart := call.timestamp, lockEnd := lockEnd }
  let s := s.setLock tokenId l'
  let s := (s.emit (.LockAmountIncreased user tokenId amount)).emit (.MetadataUpdate tokenId)
  let claim ← w.claim.transferFrom s.self payer s.self amount
  return pinShareholderObservedMin call port { w with ve := s, claim := claim } user

/-- `addToLockFor`. -/
def addToLockFor (user : Address) (tokenId amount : ℕ) : Except Error (World S) := do
  requireCanonicalFurnaceCaller call w.ve
  addToLock port call w call.sender user tokenId amount

/-- `_extendLockToInternal`. -/
def extendLockToInternal (user : Address) (tokenId newEnd : ℕ) :
    Except Error (World S) := do
  let oldEnd := (w.ve.locks tokenId).lockEnd
  revertIf (newEnd ≤ oldEnd) .InvalidDuration
  let w ← beginMutation port call w user
  let t := w.ve.global.globalLastTs
  revertIf (t ≠ call.timestamp) .CheckpointStale
  let l := w.ve.locks tokenId
  let s := { w.ve with global := ← w.ve.global.extendContribution l.amount oldEnd newEnd t }
  let s := s.setLock tokenId { l with lockEnd := newEnd, lockStart := call.timestamp }
  let s := (s.emit (.LockExtended user tokenId oldEnd newEnd)).emit (.MetadataUpdate tokenId)
  return pinShareholderObservedMin call port { w with ve := s } user

/-- `extendLockToFor`; an AutoMax lock is only refreshed, without the stale
checkpoint guard. -/
def extendLockToFor (user : Address) (tokenId newEnd : ℕ) : Except Error (World S) := do
  requireCanonicalFurnaceCaller call w.ve
  revertIf (user = 0) .ZeroAddress
  revertIf (w.ve.owners tokenId ≠ user) .NotAuthorized
  let l := w.ve.locks tokenId
  VeState.requireMutable call.timestamp l
  let nowTs := call.timestamp
  let oldEnd := l.lockEnd
  if l.autoMax then
    let w ← beginMutation port call w user
    let targetEnd ← uint256 (nowTs + MAX_LOCK_DURATION)
    let s := w.ve.setLock tokenId
      { w.ve.locks tokenId with lockEnd := targetEnd, lockStart := nowTs }
    return { w with ve := s.emit (.LockExtended user tokenId oldEnd targetEnd) }
  else
    revertIf (newEnd ≤ oldEnd) .InvalidDuration
    let maxEnd ← uint256 (nowTs + MAX_LOCK_DURATION)
    revertIf (newEnd > maxEnd) .InvalidDuration
    extendLockToInternal port call w user tokenId newEnd

/-- `_mergeLocksInternal`. -/
def mergeLocksInternal (user : Address) (fromTokenId intoTokenId : ℕ) :
    Except Error (World S) := do
  revertIf (fromTokenId = intoTokenId) .NotAuthorized
  let fromL ← w.ve.requireOwnedLock fromTokenId user
  let intoL ← w.ve.requireOwnedLock intoTokenId user
  VeState.requireMutable call.timestamp fromL
  VeState.requireMutable call.timestamp intoL
  let w ← beginMutation port call w user
  let t := w.ve.global.globalLastTs
  revertIf (t ≠ call.timestamp) .CheckpointStale
  let fromL := w.ve.locks fromTokenId
  let intoL := w.ve.locks intoTokenId
  let newAmt ← uint256 (intoL.amount + fromL.amount)
  let newAutoMax := intoL.autoMax || fromL.autoMax
  let longerEnd := if intoL.lockEnd ≥ fromL.lockEnd then intoL.lockEnd else fromL.lockEnd
  let newEnd ← refreshedEnd call.timestamp longerEnd newAutoMax
  let l : Lock :=
    { intoL with
      amount := newAmt, lockEnd := newEnd, lockStart := call.timestamp
      autoMax := newAutoMax }
  let s := { w.ve with global := ← w.ve.global.mergeContribution fromL intoL l t }
  let s := s.setLock intoTokenId l
  let s ← s.burn fromTokenId
  let s := (s.emit (.LockMerged user fromTokenId intoTokenId fromL.amount)).emit
    (.MetadataUpdate intoTokenId)
  return pinShareholderObservedMin call port { w with ve := s } user

/-- `mergeLocksFor`. -/
def mergeLocksFor (user : Address) (fromTokenId intoTokenId : ℕ) :
    Except Error (World S) := do
  requireCanonicalFurnaceCaller call w.ve
  mergeLocksInternal port call w user fromTokenId intoTokenId

/-- `setAutoMax`: toggle, refresh of an enabled lock, or no-op. -/
def setAutoMax (tokenId : ℕ) (enabled : Bool) : Except Error (World S) := do
  let user := call.sender
  let l ← w.ve.requireOwnedLock tokenId user
  VeState.requireMutable call.timestamp l
  let nowTs := call.timestamp
  if l.autoMax = enabled then
    if enabled then
      let w ← beginMutation port call w user
      revertIf (w.ve.global.globalLastTs ≠ nowTs) .CheckpointStale
      let lockEnd ← uint256 (nowTs + MAX_LOCK_DURATION)
      let s := w.ve.setLock tokenId
        { w.ve.locks tokenId with lockEnd := lockEnd, lockStart := nowTs }
      return { w with ve := s.emit (.AutoMaxSet user tokenId enabled) }
    else return w
  else
    let w ← beginMutation port call w user
    let t := w.ve.global.globalLastTs
    revertIf (t ≠ nowTs) .CheckpointStale
    let l := w.ve.locks tokenId
    let newEnd ← uint256 (nowTs + MAX_LOCK_DURATION)
    let l' : Lock := { l with autoMax := enabled, lockEnd := newEnd, lockStart := nowTs }
    let s := { w.ve with global := ← w.ve.global.toggleContribution l l' t }
    let s := s.setLock tokenId l'
    let s := (s.emit (.AutoMaxSet user tokenId enabled)).emit (.MetadataUpdate tokenId)
    return pinShareholderObservedMin call port { w with ve := s } user

/-- `_unlockTo`.  A lock whose end the checkpoint has not passed yet is still
part of the totals and is taken out of them. -/
def unlockTo (tokenOwner : Address) (tokenId : ℕ) (recipient : Address) :
    Except Error (World S) := do
  revertIf (recipient = 0) .ZeroAddress
  let l ← w.ve.requireOwnedLock tokenId tokenOwner
  revertIf (l.listed) .LockListedOrFrozen
  revertIf (l.autoMax) .InvalidDuration
  revertIf (call.timestamp < l.lockEnd) .InvalidDuration
  let w ← beginMutation port call w tokenOwner
  let t := w.ve.global.globalLastTs
  let l := w.ve.locks tokenId
  let amt := l.amount
  revertIf (amt = 0) .InvalidToken
  let s := { w.ve with global := ← w.ve.global.expireContribution l t }
  let totalLockedClaim ← usub s.totalLockedClaim amt
  let s ← { s with totalLockedClaim := totalLockedClaim }.burn tokenId
  let w := pinShareholderObservedMin call port { w with ve := s } tokenOwner
  let s := w.ve.emit (.LockUnlocked tokenOwner tokenId amt)
  let claim ← w.claim.transfer s.self recipient amt
  return { w with ve := s, claim := claim }

/-- `unlock`. -/
def unlock (tokenId : ℕ) : Except Error (World S) :=
  unlockTo port call w call.sender tokenId call.sender

/-- `DelegationPermissions.P_VE_UNLOCK_EXPIRED_FOR`. -/
def P_VE_UNLOCK_EXPIRED_FOR : ℕ := 2 ^ 14

/-- `DelegationActionTypes.VE_UNLOCK_EXPIRED_FOR`. -/
def VE_UNLOCK_EXPIRED_FOR : ℕ := 32

/-- `unlockExpiredForUser`. -/
def unlockExpiredForUser (user : Address) (tokenId : ℕ) : Except Error (World S) := do
  requireDelegated call w.ve user P_VE_UNLOCK_EXPIRED_FOR
  let w ← unlockTo port call w user tokenId user
  let s := w.ve.emit (.DelegationSessionUsed user call.sender VE_UNLOCK_EXPIRED_FOR
    P_VE_UNLOCK_EXPIRED_FOR tokenId call.timestamp)
  return { w with ve := s }

/-- `furnaceBurnAndWithdraw`. -/
def furnaceBurnAndWithdraw (tokenId : ℕ) (recipient : Address) :
    Except Error (World S) := do
  requireCanonicalFurnaceCaller call w.ve
  revertIf (recipient = 0) .ZeroAddress
  revertIf (w.ve.owners tokenId ≠ w.ve.furnace) .NotAuthorized
  revertIf ((w.ve.locks tokenId).listed) .LockListedOrFrozen
  let w := { w with ve := ← w.ve.checkpointGlobalStateInternal call.timestamp }
  let w := checkpointShareholderRoyaltiesBestEffort call port w w.ve.furnace
  let t := w.ve.global.globalLastTs
  let l := w.ve.locks tokenId
  let amount := l.amount
  revertIf (amount = 0) .InvalidToken
  let s := { w.ve with global := ← w.ve.global.burnContribution l t }
  let totalLockedClaim ← usub s.totalLockedClaim amount
  let s ← { s with totalLockedClaim := totalLockedClaim }.burn tokenId
  let w := pinShareholderObservedMin call port { w with ve := s } s.furnace
  let s := w.ve.emit (.LockUnlocked w.ve.furnace tokenId amount)
  let claim ← w.claim.transfer s.self recipient amount
  return { w with ve := s, claim := claim }

/-- `setListed`. -/
def setListed (tokenId : ℕ) (listed : Bool) : Except Error (World S) := do
  requireCanonicalMineMarketCaller call w.ve
  revertIf (w.ve.owners tokenId = 0) .InvalidToken
  let l := w.ve.locks tokenId
  if listed then
    revertIf (!l.autoMax ∧ call.timestamp ≥ l.lockEnd) .LockExpired
    revertIf (l.listed) .LockListedOrFrozen
    let s := w.ve.setLock tokenId { l with listed := true }
    return { w with ve := s.emit (.MetadataUpdate tokenId) }
  else
    let s := w.ve.setLock tokenId { l with listed := false }
    return { w with ve := s.emit (.MetadataUpdate tokenId) }

/-! ## Wiring -/

/-- `setMineMarket`. -/
def setMineMarket (mineMarket : Address) : Except Error (World S) := do
  revertIf (call.sender ≠ w.ve.owner) .OwnableUnauthorizedAccount
  revertIf (w.ve.configFrozen) .ConfigFrozen
  revertIf (mineMarket = 0) .ZeroAddress
  revertIf (call.codeLength mineMarket = 0) .NotAContract
  revertIf (call.delegatedEOA mineMarket) .DelegatedEOA
  requireCanonicalSetterBundle call w.ve w.ve.furnace mineMarket
  let s := { w.ve with mineMarket := mineMarket }
  return { w with ve := s.emit (.MineMarketChanged w.ve.mineMarket mineMarket) }

/-- `setFurnace`. -/
def setFurnace (furnace : Address) : Except Error (World S) := do
  revertIf (call.sender ≠ w.ve.owner) .OwnableUnauthorizedAccount
  revertIf (w.ve.configFrozen) .ConfigFrozen
  revertIf (furnace = 0) .ZeroAddress
  revertIf (call.codeLength furnace = 0) .NotAContract
  revertIf (call.delegatedEOA furnace) .DelegatedEOA
  requireCanonicalSetterBundle call w.ve furnace w.ve.mineMarket
  let s := { w.ve with furnace := furnace }
  return { w with ve := s.emit (.FurnaceChanged w.ve.furnace furnace) }

/-- `freezeConfig`. -/
def freezeConfig : Except Error (World S) := do
  revertIf (call.sender ≠ w.ve.owner) .OwnableUnauthorizedAccount
  revertIf (w.ve.configFrozen) .ConfigFrozen
  let f := w.ve.furnace
  let mm := w.ve.mineMarket
  revertIf (f = 0) .ZeroAddress
  revertIf (mm = 0) .ZeroAddress
  requireCanonicalSetterBundle call w.ve f mm
  revertIf (call.staticcallAddress f .mineMarket ≠ mm) .WiringMismatch
  let sr ← resolveShareholderRoyaltiesFor call f mm
  if sr ≠ 0 then
    revertIf (call.staticcallAddress f .shareholderRoyalties ≠ sr) .WiringMismatch
    revertIf (call.staticcallAddress mm .royalties ≠ sr) .WiringMismatch
  return { w with ve := { w.ve with configFrozen := true }.emit .ConfigFrozen }

end ClaimRush.VeClaimNFT
