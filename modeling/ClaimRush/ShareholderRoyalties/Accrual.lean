import ClaimRush.ShareholderRoyalties.Checkpoints
import ClaimRush.Lib.MulDiv

/-!
# Accrual of a user

A checkpoint turns the growth of the index since the last one into a stored
balance, lock by lock, from the locks that the lock contract reports now.
-/

open Function

namespace ClaimRush.ShareholderRoyalties

open Constants VeClaimNFT

/-- `IVeClaimNFT.getShareholderLockParams`, the three arrays as one list. -/
def getShareholderLockParams (s : VeState) (user : Address) : List Lock :=
  (s.ownedTokens user).map s.locks

/-- `_scaleReward`. -/
def scaleReward (weight indexDelta : ℕ) : Except Error (ℕ × ℕ) :=
  if weight = 0 ∨ indexDelta = 0 then .ok (0, 0)
  else do
    let whole ← mulDiv weight indexDelta SHAREHOLDER_ACC
    return (whole, weight * indexDelta % SHAREHOLDER_ACC)

/-- `_slopeScaled`. -/
def slopeScaled (amount : ℕ) : Except Error ℕ :=
  mulDiv amount SHAREHOLDER_WEIGHT_SCALE MAX_LOCK_DURATION

structure AccrualCtx where
  paid : ℕ
  startRewardTs : ℕ
  startPaidTimeWeighted : ℕ
  deltaSumAll : ℕ

/-- The observed minimum after one more lock, as tracked by
`_computePendingAccrual`. -/
def observeLockEnd (l : Lock) (minEnd : ℕ) : ℕ :=
  if !l.autoMax ∧ l.amount ≠ 0 ∧ l.lockEnd ≤ UINT40_MAX ∧ l.lockEnd < minEnd then l.lockEnd
  else minEnd

/-- `_computeUserObservedMin`, which also skips a zero end. -/
def computeUserObservedMin (s : VeState) (user : Address) : ℕ :=
  (getShareholderLockParams s user).foldl
    (fun m l ↦ if l.lockEnd ≠ 0 then observeLockEnd l m else m) UINT40_MAX

/-- Whole units move from the remainder to the accrual. -/
def carryRemainder (whole remainder : ℕ) : Except Error (ℕ × ℕ) :=
  if remainder ≥ SHAREHOLDER_ACC then do
    let whole ← uint256 (whole + remainder / SHAREHOLDER_ACC)
    return (whole, remainder % SHAREHOLDER_ACC)
  else .ok (whole, remainder)

namespace RoyaltiesState

variable (r : RoyaltiesState)

/-- `_computeLockAccrual`; `none` is a lock that accrues nothing. -/
def computeLockAccrual (l : Lock) (ctx : AccrualCtx) : Except Error (Option (ℕ × ℕ)) :=
  if l.amount = 0 then .ok none
  else if l.autoMax then do
    let weight ← uint256 (l.amount * SHAREHOLDER_WEIGHT_SCALE)
    return some (← scaleReward weight ctx.deltaSumAll)
  else if l.lockEnd ≤ ctx.startRewardTs then .ok none
  else
    let (endPaid, endTimeWeightedPaid) := r.getRewardPrefixBefore l.lockEnd
    if endPaid ≤ ctx.paid then .ok none
    else do
      let deltaSum ← usub endPaid ctx.paid
      let timeWeightedDelta := wrapping (endTimeWeightedPaid - ctx.startPaidTimeWeighted)
      let weightedDelta :=
        wrapping (wrapping (l.lockEnd * deltaSum) - timeWeightedDelta)
      let bound ← uint256 (l.lockEnd * ctx.deltaSumAll)
      revertIf (weightedDelta > bound) .InvariantViolation
      let slope ← slopeScaled l.amount
      return some (← scaleReward slope weightedDelta)

/-- The loop of `_computePendingAccrual` over the locks of the user. -/
def accrualLoop (ctx : AccrualCtx) : List Lock → ℕ → ℕ → ℕ → Except Error (ℕ × ℕ × ℕ)
  | [], whole, remainder, minEnd => .ok (whole, remainder, minEnd)
  | l :: ls, whole, remainder, minEnd => do
      let accrual ← r.computeLockAccrual l ctx
      let minEnd := observeLockEnd l minEnd
      match accrual with
      | none => accrualLoop ctx ls whole remainder minEnd
      | some (lockWhole, rem) =>
          let whole ← uint256 (whole + lockWhole)
          let remainder ← uint256 (remainder + rem)
          let (whole, remainder) ← carryRemainder whole remainder
          accrualLoop ctx ls whole remainder minEnd

/-- `_computePendingAccrual`. -/
def computePendingAccrual (s : VeState) (user : Address)
    (paid startPaidTimeWeighted startRewardTs remainder : ℕ) : Except Error (ℕ × ℕ × ℕ) :=
  let locks := getShareholderLockParams s user
  if locks.length = 0 then .ok (0, remainder, UINT40_MAX)
  else if r.ethPerVe = paid then .ok (0, remainder, UINT40_MAX)
  else do
    let ctx : AccrualCtx :=
      { paid := paid
        startRewardTs := startRewardTs
        startPaidTimeWeighted := startPaidTimeWeighted
        deltaSumAll := ← usub r.ethPerVe paid }
    r.accrualLoop ctx locks 0 remainder UINT40_MAX

/-- `_updateUserObservedMin`. -/
def updateUserObservedMin (s : VeState) (user : Address) : RoyaltiesState :=
  let m := computeUserObservedMin s user
  let r := { r with
    userObservedMinNonAutoMaxLockEnd := update r.userObservedMinNonAutoMaxLockEnd user m }
  if m ≠ 0 ∧ m ≠ UINT40_MAX ∧ m < r.oldestObservedNonAutoMaxLockEnd then
    { r with oldestObservedNonAutoMaxLockEnd := m }
  else r

/-- The observed minimum recorded by a checkpoint that accrued. -/
def recordObservedMin (user : Address) (m : ℕ) : RoyaltiesState :=
  { r with
    userObservedMinNonAutoMaxLockEnd := update r.userObservedMinNonAutoMaxLockEnd user m
    oldestObservedNonAutoMaxLockEnd :=
      if m < r.oldestObservedNonAutoMaxLockEnd then m else r.oldestObservedNonAutoMaxLockEnd }

/-- The paid markers of `user` move to the current indices. -/
def markPaid (user : Address) : RoyaltiesState :=
  { r with
    userEthPerVePaid := update r.userEthPerVePaid user r.ethPerVe
    userTimeWeightedEthPerVePaid :=
      update r.userTimeWeightedEthPerVePaid user r.ethPerVeTimeWeighted
    userLastRewardTs := update r.userLastRewardTs user r.latestRewardTimestamp }

/-- The clamped credit at the end of `checkpointUser`. -/
def creditAccrual (user : Address) (wholeAccrued : ℕ) : Except Error RoyaltiesState :=
  let credited := if wholeAccrued > r.indexedEthOwed then r.indexedEthOwed else wholeAccrued
  let r := { r with
    ghost := { r.ghost with
      clampedAccrual := r.ghost.clampedAccrual + (wholeAccrued - credited) } }
  if credited = 0 then .ok r
  else do
    let stored ← uint256 (r.claimableEthStored user + credited)
    let owed ← usub r.indexedEthOwed credited
    let crystallised ← uint256 (r.totalCrystallisedStored + credited)
    return { r with
      claimableEthStored := update r.claimableEthStored user stored
      indexedEthOwed := owed
      totalCrystallisedStored := crystallised }.emit (.UserCheckpointed user credited)

/-- The part of `checkpointUser` that runs when the index has moved. -/
def crystallise (s : VeState) (user : Address) : Except Error RoyaltiesState := do
  let marked := r.markPaid user
  let (wholeAccrued, remainder, minEnd) ← marked.computePendingAccrual s user
    (r.userEthPerVePaid user) (r.userTimeWeightedEthPerVePaid user) (r.userLastRewardTs user)
    (r.userRewardRemainder user)
  let credited ← (marked.recordObservedMin user minEnd).creditAccrual user wholeAccrued
  return { credited with
    userRewardRemainder := update credited.userRewardRemainder user remainder }

/-- The zero-delta branch of `checkpointUser`: pin the user on first sight. -/
def pinFirstObservation (s : VeState) (user : Address) : RoyaltiesState :=
  let stored := r.userObservedMinNonAutoMaxLockEnd user
  if stored = 0 ∨ stored = UINT40_MAX then r.updateUserObservedMin s user else r

end RoyaltiesState

section External

variable (call : Call) (s : VeState) (r : RoyaltiesState)

/-- The wiring check of `checkpointUser`, which a batch has already made. -/
def requireWiringOutsideBatch : Except Error Unit :=
  if r.batchWiringVerified then .ok () else requireCanonicalBaronRuntimeBundle call s r

/-- `checkpointUser`. -/
def checkpointUser (user : Address) : Except Error RoyaltiesState :=
  if user = 0 then .ok r
  else do
    requireWiringOutsideBatch call s r
    if r.ethPerVe = r.userEthPerVePaid user then return r.pinFirstObservation s user
    else r.crystallise s user

/-- `checkpointUserBatch`: a failing user is skipped. -/
def checkpointUserBatch (users : List Address) (maxUsers : ℕ) : RoyaltiesState :=
  (users.take maxUsers).foldl
    (fun r user ↦ ((checkpointUser call s r user).toOption).getD r) r

/-- `checkpointTransfer`. -/
def checkpointTransfer (src dst : Address) : Except Error RoyaltiesState := do
  revertIf (call.sender ≠ r.mineMarket) .OnlyMineMarket
  if src = dst then return r
  else
    let r ← checkpointUser call s r src
    checkpointUser call s r dst

/-- `pinUserObservedMin`. -/
def pinUserObservedMin (user : Address) : RoyaltiesState :=
  if user = 0 then r else r.updateUserObservedMin s user

end External

end ClaimRush.ShareholderRoyalties
