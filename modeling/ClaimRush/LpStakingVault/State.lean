import ClaimRush.VeClaimNFT.State

/-!
# Storage of LpStakingVault7D

LP tokens are staked, CLAIM rewards are indexed per staked token, and CLAIM that
cannot be indexed yet waits in `queuedRewards`.
-/

namespace ClaimRush.LpStakingVault

open Constants

structure AutoCompoundConfig where
  enabled : Bool := false
  paused : Bool := false
  tokenId : ℕ := 0
  durationSeconds : ℕ := 0
  maxSlippageBps : ℕ := 0
  minRewardToCompound : ℕ := 0
  deriving DecidableEq, Repr, Inhabited

structure Unbond where
  id : ℕ := 0
  amount : ℕ := 0
  unlockTime : ℕ := 0
  deriving DecidableEq, Repr, Inhabited

inductive PauseReason
  | notOwner | listed | expired | invalidTokenId | furnaceRevert
  deriving DecidableEq, Repr

inductive Event
  | LpStaked (user : Address) (amount : ℕ)
  | LpUnbondStarted (user : Address) (id amount unlockTime : ℕ)
  | LpUnbondWithdrawn (user : Address) (id amount : ℕ)
  | LpRewardsClaimed (user : Address) (reward : ℕ)
  | LpRewardsLocked (user : Address) (reward principalClaim bonusClaim tokenId : ℕ)
  | LpRewardsNotified (amount : ℕ)
  | NotifyAmountDivergence (amountClaim delta : ℕ)
  | AccountedRewardBalanceClamped (amount accounted : ℕ)
  | LpFeesHarvestedToRewards (keeper : Address) (feeWeth feeClaim claimToRewards : ℕ)
  | HarvestMinClaimOutIgnored (minClaimOut : ℕ)
  | AutoCompoundUnpaused (user : Address)
  | AutoCompoundConfigured (user : Address) (cfg : AutoCompoundConfig)
  | AutoCompoundPaused (user : Address) (tokenId : ℕ) (reason : PauseReason)
  | DelegationSessionUsed (user delegate : Address) (actionType perms refId timestamp : ℕ)
  | MinHarvestClaimFloorSet (old new : ℕ)
  | MinCompoundRewardSet (old new : ℕ)
  | HarvestKeeperSet (keeper : Address) (allowed : Bool)
  deriving DecidableEq, Repr

/-- Bookkeeping for the statements about runs.  No function of the contract
reads it. -/
structure Ghost where
  /-- CLAIM balance at construction. -/
  constructionBalance : ℕ := 0
  /-- CLAIM that has reached the vault since. -/
  received : ℕ := 0
  /-- Number of index updates. -/
  indexUpdates : ℕ := 0
  /-- CLAIM that index updates have moved into the index. -/
  indexed : ℕ := 0
  /-- Sum over the index updates of the balance of the user times the increment. -/
  allotted : Address → ℕ := fun _ ↦ 0
  /-- Rewards ever credited to the user. -/
  credited : Address → ℕ := fun _ ↦ 0

/-- Contract storage, with the CLAIM balance of the vault and the log of emitted
events. -/
structure VaultState where
  self : Address
  owner : Address
  claim : Address
  ve : Address
  furnace : Address
  claimBalance : ℕ
  totalStaked : ℕ
  stakedBalance : Address → ℕ
  rewardPerTokenStored : ℕ
  userRewardPerTokenPaid : Address → ℕ
  rewards : Address → ℕ
  accountedRewardBalance : ℕ
  queuedRewards : ℕ
  indexedClaimOwed : ℕ
  totalRewardsCredited : ℕ
  totalClaimRewardsFundedFromFurnace : ℕ
  totalClaimRewardsFundedFromVaultFees : ℕ
  totalClaimRewardsClaimed : ℕ
  totalClaimRewardsLockedViaFurnace : ℕ
  lastFeeHarvestTs : ℕ
  minHarvestClaimFloor : ℕ
  autoCompound : Address → AutoCompoundConfig
  minCompoundReward : ℕ
  isHarvestKeeper : Address → Bool
  unbonds : Address → List Unbond
  nextUnbondId : Address → ℕ
  lastCompoundTs : Address → ℕ
  lastUserLockTs : Address → ℕ
  events : List Event
  ghost : Ghost

def VaultState.emit (s : VaultState) (e : Event) : VaultState :=
  { s with events := s.events ++ [e] }

/-- Storage after the constructor, with the CLAIM that the address already holds. -/
def initial (self owner claim ve furnace : Address) (balance : ℕ) : VaultState where
  self := self
  owner := owner
  claim := claim
  ve := ve
  furnace := furnace
  claimBalance := balance
  totalStaked := 0
  stakedBalance := fun _ ↦ 0
  rewardPerTokenStored := 0
  userRewardPerTokenPaid := fun _ ↦ 0
  rewards := fun _ ↦ 0
  accountedRewardBalance := balance
  queuedRewards := 0
  indexedClaimOwed := 0
  totalRewardsCredited := 0
  totalClaimRewardsFundedFromFurnace := 0
  totalClaimRewardsFundedFromVaultFees := 0
  totalClaimRewardsClaimed := 0
  totalClaimRewardsLockedViaFurnace := 0
  lastFeeHarvestTs := 0
  minHarvestClaimFloor := 0
  autoCompound := fun _ ↦ {}
  minCompoundReward := 10 ^ 18
  isHarvestKeeper := fun _ ↦ false
  unbonds := fun _ ↦ []
  nextUnbondId := fun _ ↦ 0
  lastCompoundTs := fun _ ↦ 0
  lastUserLockTs := fun _ ↦ 0
  events := []
  ghost := { constructionBalance := balance }

end ClaimRush.LpStakingVault
