import ClaimRush.LpStakingVault.State
import ClaimRush.Errors
import ClaimRush.Lib.MulDiv
import Mathlib.Logic.Function.Basic

/-!
# Reward accounting

CLAIM that has reached the vault is recognised by comparing balances, indexed
per staked token with the rounding remainder carried on, and credited to a user
when the account of the user is updated.
-/

open Function

namespace ClaimRush.LpStakingVault

open Constants

namespace VaultState

variable (s : VaultState)

/-- CLAIM arrives by a token transfer, which the vault does not notice. -/
def receiveClaim (amount : ℕ) : Except Error VaultState := do
  let balance ← uint256 (s.claimBalance + amount)
  return { s with
    claimBalance := balance
    ghost := { s.ghost with received := s.ghost.received + amount } }

/-- `queuedRewards += amount`. -/
def queue (amount : ℕ) : Except Error VaultState := do
  return { s with queuedRewards := ← uint256 (s.queuedRewards + amount) }

/-- `queuedRewards = 0`. -/
def emptyQueue : VaultState := { s with queuedRewards := 0 }

/-- `_indexRewardsWithCarry`. -/
def indexRewardsWithCarry (amount : ℕ) : Except Error VaultState :=
  if amount = 0 then .ok s
  else if s.totalStaked = 0 then s.queue amount
  else do
    let rptIncrement ← mulDiv amount ACC s.totalStaked
    if rptIncrement = 0 then s.queue amount
    else
      let indexedAmount ← mulDiv rptIncrement s.totalStaked ACC
      if indexedAmount = 0 then s.queue amount
      else
        let rewardPerToken ← uint256 (s.rewardPerTokenStored + rptIncrement)
        revertIf (rewardPerToken ≥ 2 ^ 128) .RewardIndexOverflow
        let indexedClaimOwed ← uint256 (s.indexedClaimOwed + indexedAmount)
        let remainder ← usub amount indexedAmount
        { s with
          rewardPerTokenStored := rewardPerToken
          indexedClaimOwed := indexedClaimOwed
          ghost := { s.ghost with
            indexUpdates := s.ghost.indexUpdates + 1
            indexed := s.ghost.indexed + indexedAmount
            allotted := fun u ↦ s.ghost.allotted u + s.stakedBalance u * rptIncrement } }.queue
          remainder

/-- The balance delta becomes part of `accountedRewardBalance` and of the funding
counters. -/
def accountDelta (delta : ℕ) (countAsFurnace countAsVaultFees : Bool) :
    Except Error VaultState := do
  let s := { s with accountedRewardBalance := s.claimBalance }
  if countAsFurnace then
    let funded ← uint256 (s.totalClaimRewardsFundedFromFurnace + delta)
    return { s with totalClaimRewardsFundedFromFurnace := funded }
  else if countAsVaultFees then
    let funded ← uint256 (s.totalClaimRewardsFundedFromVaultFees + delta)
    return { s with totalClaimRewardsFundedFromVaultFees := funded }
  else return s

/-- What a checkpoint has recognised is indexed together with the queue, or
queued while nobody stakes. -/
def distribute (delta : ℕ) : Except Error VaultState :=
  if s.totalStaked = 0 then s.queue delta
  else do
    let toDistribute ← uint256 (delta + s.queuedRewards)
    s.emptyQueue.indexRewardsWithCarry toDistribute

/-- `_checkpointRewardsFromBalanceDelta`. -/
def checkpointRewardsFromBalanceDelta (countAsFurnace countAsVaultFees : Bool) :
    Except Error VaultState := do
  let delta := s.claimBalance - s.accountedRewardBalance
  let s ← if delta ≠ 0 then s.accountDelta delta countAsFurnace countAsVaultFees else pure s
  if delta = 0 ∧ s.queuedRewards = 0 then return s
  else
    let s ← s.distribute delta
    return if delta > 0 then s.emit (.LpRewardsNotified delta) else s

/-- `_checkpointPendingRewardsBeforeStakeChange` and
`_checkpointPendingRewardsBeforeRewardConsumption`. -/
def checkpointPendingRewards : Except Error VaultState :=
  s.checkpointRewardsFromBalanceDelta false false

/-- Index growth that the user has been staked for, before the clamp. -/
def unclampedAccrual (user : Address) : ℕ :=
  s.stakedBalance user * (s.rewardPerTokenStored - s.userRewardPerTokenPaid user) / ACC

/-- `_earned`, with the accrual clamped to the unallocated part of the index. -/
def earned (user : Address) : Except Error ℕ :=
  if s.rewardPerTokenStored > s.userRewardPerTokenPaid user ∧ s.stakedBalance user ≠ 0 then do
    let accrued ← mulDiv (s.stakedBalance user)
      (s.rewardPerTokenStored - s.userRewardPerTokenPaid user) ACC
    let unallocated := wrapping (s.indexedClaimOwed - s.totalRewardsCredited)
    let accrued := if accrued > unallocated then unallocated else accrued
    uint256 (s.rewards user + accrued)
  else .ok (s.rewards user)

/-- `_updateReward`. -/
def updateReward (user : Address) : Except Error VaultState := do
  let oldRewards := s.rewards user
  let newRewards ← s.earned user
  let s :=
    if newRewards ≠ oldRewards then
      { s with
        totalRewardsCredited :=
          wrapping (s.totalRewardsCredited + wrapping (newRewards - oldRewards))
        rewards := update s.rewards user newRewards
        ghost := { s.ghost with
          credited :=
            update s.ghost.credited user (s.ghost.credited user + (newRewards - oldRewards)) } }
    else s
  return { s with
    userRewardPerTokenPaid := update s.userRewardPerTokenPaid user s.rewardPerTokenStored }

/-- `_decreaseAccountedRewardBalance`. -/
def decreaseAccountedRewardBalance (amount : ℕ) : VaultState :=
  if amount > s.accountedRewardBalance then
    { s.emit (.AccountedRewardBalanceClamped amount s.accountedRewardBalance) with
      accountedRewardBalance := 0 }
  else { s with accountedRewardBalance := s.accountedRewardBalance - amount }

/-- The stored rewards of the user leave both debt totals, unchecked. -/
def clearRewards (user : Address) (reward : ℕ) : VaultState :=
  { s with
    rewards := update s.rewards user 0
    totalRewardsCredited := wrapping (s.totalRewardsCredited - reward)
    indexedClaimOwed := wrapping (s.indexedClaimOwed - reward) }

end VaultState

/-- The preamble of every function that consumes rewards or changes stakes. -/
def checkpoint (s : VaultState) (user : Address) : Except Error VaultState := do
  let s ← s.checkpointPendingRewards
  s.updateReward user

end ClaimRush.LpStakingVault
