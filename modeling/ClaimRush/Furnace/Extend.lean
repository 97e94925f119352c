import ClaimRush.Furnace.Entry

/-!
# Extensions, merges and AutoMax bonuses

A lock that commits to a longer duration earns the bonus of the added weight.
Extensions and merges price it on the principal the user supplied (`bonusBasis`),
AutoMax locks accrue it day by day.  A user bonus below the minimal top-up goes
back to the reserve.
-/

open Function

namespace ClaimRush.Furnace

open Constants

variable {S : Type} (port : VeClaimNFT.IShareholderRoyalties S) (call : Call) (w : World S)

/-- Give the user bonus to the lock, or return a dust bonus to the reserve: the
delivered bonus.  The addition to the reserve is unchecked, and gives back what
the AMM has just taken. -/
def deliverOrRefund (deliver : Except Error (World S)) (userBonus : ℕ) :
    Except Error (World S × ℕ) := do
  if userBonus ≥ MIN_TOPUP_AMOUNT then
    let w ← deliver
    return (w, userBonus)
  else
    let f := { w.furnace with furnaceReserve := w.furnace.furnaceReserve + userBonus }
    return ({ w with furnace := f }, 0)

/-- The effective principal of a duration step, priced on the basis. -/
def basisPrincipalEff (principalEff basis amount : ℕ) : ℕ :=
  if basis < amount then principalEff * basis / amount else principalEff

/-- The basis of a lock; a lock without a record counts with its amount. -/
def basisOf (f : FurnaceState) (tokenId amount : ℕ) : ℕ :=
  if f.bonusBasis tokenId = 0 then amount else f.bonusBasis tokenId

/-- The AMM as the extend helper calls it back, for a positive principal. -/
def bonusFromHelper (user : Address) (principalClaim principalEff lockDurationSec : ℕ) :
    Except Error (World S × ℕ) :=
  if principalEff > 0 then do
    let (w, bonus) ← applyBonusAmm call w user principalClaim principalEff lockDurationSec
    return (w, bonus.user)
  else .ok (w, 0)

/-! ## Extension -/

/-- `resolveExtendWithBonus`: the lock amount, the new duration and the effective
principal. -/
def resolveExtendWithBonus (user : Address) (tokenId durationSeconds : ℕ) :
    Except Error (ℕ × ℕ × ℕ) := do
  let (lockAmount, lockEnd, autoMax, listed) := w.ve.getLockInfo call.timestamp tokenId
  revertIf (lockAmount = 0) .InvalidToken
  revertIf (autoMax) .InvalidDuration
  revertIf (listed) .LockListedOrFrozen
  revertIf (lockEnd ≤ call.timestamp) .LockExpired
  revertIf (w.ve.owners tokenId = 0) .InvalidToken
  revertIf (w.ve.owners tokenId ≠ user) .NotAuthorized
  let newDuration := clampDuration durationSeconds
  let oldRemaining := lockEnd - call.timestamp
  revertIf (newDuration ≤ oldRemaining) .InvalidDuration
  return (lockAmount, newDuration,
    lockAmount * weightDelta newDuration oldRemaining / WEIGHT_DENOM)

/-- `_extendBody`: the delivered bonus. -/
def extendBody (user : Address) (tokenId durationSeconds minBonusOut : ℕ) :
    Except Error (World S × ℕ) := do
  let (lockAmount, d, principalEff) ← resolveExtendWithBonus call w user tokenId durationSeconds
  let basis := basisOf w.furnace tokenId lockAmount
  -- An unrecorded basis is seeded once from the live amount.
  let f := { w.furnace with bonusBasis := update w.furnace.bonusBasis tokenId basis }
  let principalEff := basisPrincipalEff principalEff basis lockAmount
  let (w, userBonus) ← bonusFromHelper call { w with furnace := f } user lockAmount principalEff d
  let base ← VeClaimNFT.extendLockToFor port (call.byFurnace w.furnace) w.base user tokenId
    (call.timestamp + d)
  let w := { w with base := base }
  let (w, bonusClaim) ←
    deliverOrRefund w (addToLockDelegated port call w user tokenId userBonus) userBonus
  revertIf (minBonusOut > 0 ∧ bonusClaim < minBonusOut) .MinVeOutNotMet
  let w := syncFurnaceReserve call w
  return (w.emit (.FurnaceEnter user 4 0 0 bonusClaim tokenId), bonusClaim)

/-- `extendWithBonus`. -/
def extendWithBonus (tokenId durationSeconds minBonusOut : ℕ) : Except Error (World S × ℕ) := do
  whenLockingEnabled w.furnace
  extendBody port call w call.sender tokenId durationSeconds minBonusOut

/-- `DelegationPermissions.P_VE_EXTEND_LOCK_FOR`. -/
def P_VE_EXTEND_LOCK_FOR : ℕ := 2 ^ 12

/-- `DelegationActionTypes.VE_EXTEND_LOCK_FOR`. -/
def VE_EXTEND_LOCK_FOR : ℕ := 30

/-- `extendWithBonusFor`. -/
def extendWithBonusFor (user : Address) (tokenId durationSeconds minBonusOut : ℕ) :
    Except Error (World S × ℕ) := do
  whenLockingEnabled w.furnace
  revertIf (user = 0) .ZeroAddress
  requireDelegated call w user P_VE_EXTEND_LOCK_FOR
  let (w, bonusClaim) ← extendBody port call w user tokenId durationSeconds minBonusOut
  return (emitDelegationSession call w user VE_EXTEND_LOCK_FOR P_VE_EXTEND_LOCK_FOR tokenId,
    bonusClaim)

/-! ## Merge -/

/-- `_resolveLockForMerge`: the amount and the remaining duration. -/
def resolveLockForMerge (user : Address) (tokenId : ℕ) : Except Error (ℕ × ℕ) := do
  revertIf (w.ve.owners tokenId = 0) .InvalidToken
  revertIf (w.ve.owners tokenId ≠ user) .NotAuthorized
  let (amt, lockEnd, autoMax, listed) := w.ve.getLockInfo call.timestamp tokenId
  revertIf (amt = 0) .InvalidToken
  revertIf (listed) .LockListedOrFrozen
  if autoMax then return (amt, MAX_LOCK_DURATION)
  else
    revertIf (lockEnd ≤ call.timestamp) .LockExpired
    return (amt, lockEnd - call.timestamp)

structure MergeResolution where
  fromAmt : ℕ
  intoAmt : ℕ
  newRemaining : ℕ
  principalEff : ℕ
  durationDelta : ℕ
  shorterTokenId : ℕ
  shorterAmt : ℕ
  deriving DecidableEq, Repr

/-- `_resolveMergeWithBonusInternal`. -/
def resolveMergeWithBonus (user : Address) (fromTokenId intoTokenId : ℕ) :
    Except Error MergeResolution := do
  revertIf (fromTokenId = intoTokenId) .NotAuthorized
  let (fromAmt, fromRemaining) ← resolveLockForMerge call w user fromTokenId
  let (intoAmt, intoRemaining) ← resolveLockForMerge call w user intoTokenId
  let fromLonger := decide (fromRemaining > intoRemaining)
  let longerRemaining := if fromLonger then fromRemaining else intoRemaining
  let shorterRemaining := if fromLonger then intoRemaining else fromRemaining
  let shorterAmt := if fromLonger then intoAmt else fromAmt
  let durationDelta := longerRemaining - shorterRemaining
  return { fromAmt := fromAmt
           intoAmt := intoAmt
           newRemaining := longerRemaining
           principalEff :=
             if durationDelta = 0 then 0
             else shorterAmt * weightDelta longerRemaining shorterRemaining / WEIGHT_DENOM
           durationDelta := durationDelta
           shorterTokenId := if fromLonger then intoTokenId else fromTokenId
           shorterAmt := shorterAmt }

/-- `_mergeBody`: the delivered bonus. -/
def mergeBody (user : Address) (fromTokenId intoTokenId minBonusOut : ℕ) :
    Except Error (World S × ℕ) := do
  let r ← resolveMergeWithBonus call w user fromTokenId intoTokenId
  let principalEff :=
    if r.principalEff > 0 ∧ r.shorterAmt > 0 then
      basisPrincipalEff r.principalEff
        (basisOf w.furnace r.shorterTokenId r.shorterAmt) r.shorterAmt
    else r.principalEff
  let (w, userBonus) ←
    bonusFromHelper call w user (r.fromAmt + r.intoAmt) principalEff r.newRemaining
  let fromBasis := basisOf w.furnace fromTokenId r.fromAmt
  let intoBasis := basisOf w.furnace intoTokenId r.intoAmt
  let basis ← uint256 (fromBasis + intoBasis)
  let f := { w.furnace with
    bonusBasis := update (update w.furnace.bonusBasis intoTokenId basis) fromTokenId 0 }
  let base ← VeClaimNFT.mergeLocksFor port (call.byFurnace f) w.base user fromTokenId intoTokenId
  let merged := base.ve.locks intoTokenId
  let w : World S := { furnace := f, base := base }
  let (w, bonusClaim) ←
    deliverOrRefund w (addToLockDelegated port call w user intoTokenId userBonus) userBonus
  revertIf (minBonusOut > 0 ∧ bonusClaim < minBonusOut) .MinVeOutNotMet
  let w := syncFurnaceReserve call w
  return (w.emit (.FurnaceMergeWithBonus user fromTokenId intoTokenId r.fromAmt r.intoAmt
    (merged.amount + bonusClaim) merged.lockEnd merged.autoMax r.durationDelta bonusClaim),
    bonusClaim)

/-- `mergeLocksWithBonus`. -/
def mergeLocksWithBonus (fromTokenId intoTokenId minBonusOut : ℕ) :
    Except Error (World S × ℕ) := do
  whenLockingEnabled w.furnace
  mergeBody port call w call.sender fromTokenId intoTokenId minBonusOut

/-- `DelegationPermissions.P_VE_MERGE_LOCKS_FOR`. -/
def P_VE_MERGE_LOCKS_FOR : ℕ := 2 ^ 13

/-- `DelegationActionTypes.VE_MERGE_LOCKS_FOR`. -/
def VE_MERGE_LOCKS_FOR : ℕ := 31

/-- `mergeLocksWithBonusFor`. -/
def mergeLocksWithBonusFor (user : Address) (fromTokenId intoTokenId minBonusOut : ℕ) :
    Except Error (World S × ℕ) := do
  whenLockingEnabled w.furnace
  revertIf (user = 0) .ZeroAddress
  requireDelegated call w user P_VE_MERGE_LOCKS_FOR
  let (w, bonusClaim) ← mergeBody port call w user fromTokenId intoTokenId minBonusOut
  return (emitDelegationSession call w user VE_MERGE_LOCKS_FOR P_VE_MERGE_LOCKS_FOR intoTokenId,
    bonusClaim)

/-! ## AutoMax bonuses -/

/-- `_claimAutoMaxBonusCore`: the delivered bonus. -/
def claimAutoMaxBonusCore (tokenId lockAmount : ℕ) : Except Error (World S × ℕ) :=
  let recorded := w.furnace.lastAutoMaxBonusClaim tokenId
  let touched (f : FurnaceState) : FurnaceState :=
    { f with lastAutoMaxBonusClaim := update f.lastAutoMaxBonusClaim tokenId call.timestamp }
  if recorded = 0 then .ok ({ w with furnace := touched w.furnace }, 0)
  else do
    let lockStart := (w.ve.locks tokenId).lockStart
    let lastClaim := if lockStart > recorded then lockStart else recorded
    let elapsed ← usub call.timestamp lastClaim
    if elapsed < DAY then return (w, 0)
    else
      let elapsed := if elapsed > MAX_LOCK_DURATION then MAX_LOCK_DURATION else elapsed
      let principalEff :=
        incrementalPrincipalEff lockAmount MAX_LOCK_DURATION (MAX_LOCK_DURATION - elapsed)
      let lockOwner := w.ve.owners tokenId
      revertIf (lockOwner = 0) .ERC721NonexistentToken
      if principalEff = 0 then return (w, 0)
      else
        revertIf (w.furnace.furnaceQuoter = 0) .ExternalCallFailed
        let (_, quoted) ← Quoter.quoteAutoMaxBonus call w tokenId
        if quoted = 0 then return (w, 0)
        else
          let (w, bonus) ← applyBonusAmm call w lockOwner lockAmount principalEff MAX_LOCK_DURATION
          if bonus.gross = 0 then return (w, 0)
          else
            let (w, bonusClaim) ← deliverOrRefund w
              (delegatecall (addToLockDelegated port call w lockOwner tokenId bonus.user))
              bonus.user
            let w := { w with furnace := touched w.furnace }
            return (w.emit (.AutoMaxBonusClaimed lockOwner tokenId bonusClaim), bonusClaim)

/-- `claimAutoMaxBonus`. -/
def claimAutoMaxBonus (tokenId : ℕ) : Except Error (World S × ℕ) := do
  whenLockingEnabled w.furnace
  let (lockAmount, lockEnd, autoMax, listed) := w.ve.getLockInfo call.timestamp tokenId
  revertIf (lockAmount = 0) .InvalidToken
  revertIf (!autoMax) .InvalidDuration
  revertIf (listed) .LockListedOrFrozen
  revertIf (lockEnd ≤ call.timestamp) .LockExpired
  let (w, bonusClaim) ← claimAutoMaxBonusCore port call w tokenId lockAmount
  return (syncFurnaceReserve call w, bonusClaim)

/-- One turn of the loop of `claimAutoMaxBonusBatch`: ids that do not increase and
ineligible locks are skipped. -/
def claimAutoMaxBonusStep (previous : Option ℕ) (tokenId totalBonus : ℕ) :
    Except Error (World S × ℕ) :=
  let (lockAmount, lockEnd, autoMax, listed) := w.ve.getLockInfo call.timestamp tokenId
  if previous.any (tokenId ≤ ·) then .ok (w, totalBonus)
  else if lockAmount = 0 ∨ !autoMax ∨ listed ∨ lockEnd ≤ call.timestamp then .ok (w, totalBonus)
  else do
    let (w, bonusClaim) ← claimAutoMaxBonusCore port call w tokenId lockAmount
    let totalBonus ← uint256 (totalBonus + bonusClaim)
    return (w, totalBonus)

/-- The loop of `claimAutoMaxBonusBatch`. -/
def claimAutoMaxBonusLoop : World S → Option ℕ → List ℕ → ℕ → Except Error (World S × ℕ)
  | w, _, [], totalBonus => .ok (w, totalBonus)
  | w, previous, tokenId :: tokenIds, totalBonus => do
      let (w, totalBonus) ← claimAutoMaxBonusStep port call w previous tokenId totalBonus
      claimAutoMaxBonusLoop w (some tokenId) tokenIds totalBonus

/-- `claimAutoMaxBonusBatch`. -/
def claimAutoMaxBonusBatch (tokenIds : List ℕ) (maxLocks : ℕ) : Except Error (World S × ℕ) := do
  whenLockingEnabled w.furnace
  let n := min (min tokenIds.length maxLocks) MAX_AUTOMAX_BONUS_BATCH
  let (w, totalBonus) ← claimAutoMaxBonusLoop port call w none (tokenIds.take n) 0
  return (syncFurnaceReserve call w, totalBonus)

end ClaimRush.Furnace
