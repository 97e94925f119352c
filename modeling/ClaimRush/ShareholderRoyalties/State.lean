import ClaimRush.VeClaimNFT.State

/-!
# Storage of ShareholderRoyalties

ETH received for shareholders waits in `pendingShareholderETH`, moves to
`indexedEthOwed` when a flush advances the index, and to the stored balance of
a user when a checkpoint crystallises the accrual of that user.
-/

namespace ClaimRush.ShareholderRoyalties

open Constants VeClaimNFT

structure RewardCheckpoint where
  timestamp : ℕ := 0
  cumulativeEthPerVe : ℕ := 0
  cumulativeTimeWeightedEthPerVe : ℕ := 0
  deriving DecidableEq, Repr, Inhabited

structure AutoCompoundConfig where
  enabled : Bool := false
  paused : Bool := false
  minCadenceSeconds : ℕ := 0
  maxSlippageBps : ℕ := 0
  lastCompoundTs : ℕ := 0
  tokenId : ℕ := 0
  durationSeconds : ℕ := 0
  minEthToCompound : ℕ := 0
  deriving DecidableEq, Repr, Inhabited

inductive Mode
  | eth | lockFurnace | invalid
  deriving DecidableEq, Repr

inductive PauseReason
  | notOwner | listed | expired | invalidTokenId | furnaceRevert | checkpointFailed
  deriving DecidableEq, Repr

inductive Event
  | ShareholderTakeoverAllocation (reignId amountEth : ℕ)
  | ShareholderFlush (amountEth deltaEthPerVe : ℕ)
  | UserCheckpointed (user : Address) (accrued : ℕ)
  | RewardCheckpointCapReached (length : ℕ)
  | OverflowCheckpointCapReached (length : ℕ)
  | DustSwept (dst : Address) (amount : ℕ)
  | ShareholderClaim (user : Address) (mode : Mode) (amountEth : ℕ)
  | ShareholderClaimed (user dst : Address) (amount : ℕ) (mode : Mode)
  | ShareholderAutoCompoundConfigured (user : Address) (cfg : AutoCompoundConfig)
  | ShareholderAutoCompoundPaused (user : Address) (tokenId : ℕ) (reason : PauseReason)
  | ShareholderAutoCompoundFailed (user : Address) (amountEth tokenId : ℕ)
  | ShareholderAutoCompoundExecuted (user executor : Address)
      (amountEth tokenId effectiveDuration : ℕ)
  | ShareholderBatchTerminatedEarly (processedUpTo batchSize : ℕ)
  | ShareholderWiringSet (mineCore mineMarket furnace : Address)
  | ClaimAllHelperChanged (old new : Address)
  | ShareholderAutoCompoundKeeperSet (keeper : Address) (allowed : Bool)
  | MinAutoCompoundEthSet (old new : ℕ)
  | OldestObservedNonAutoMaxLockEndSet (old new : ℕ)
  | DelegationSessionUsed (user delegate : Address)
      (actionType perms refId timestamp : ℕ)
  | ConfigFrozen
  deriving DecidableEq, Repr

/-- Bookkeeping for the statements about runs.  No function of the contract
reads it. -/
structure Ghost where
  /-- Accrual that checkpoints have dropped because of the clamp. -/
  clampedAccrual : ℕ := 0
  /-- ETH received outside the accounting paths and not swept since. -/
  unaccountedEth : ℕ := 0

/-- Contract storage, with the ETH balance and the log of emitted events. -/
structure RoyaltiesState where
  self : Address
  owner : Address
  balance : ℕ
  configFrozen : Bool
  furnace : Address
  mineCore : Address
  mineMarket : Address
  claimAllHelper : Address
  ethPerVe : ℕ
  pendingShareholderETH : ℕ
  indexedEthOwed : ℕ
  totalCrystallisedStored : ℕ
  batchWiringVerified : Bool
  rewardCheckpoints : List RewardCheckpoint
  ethPerVeTimeWeighted : ℕ
  overflowCheckpoints : List RewardCheckpoint
  overflowRingHead : ℕ
  userEthPerVePaid : Address → ℕ
  claimableEthStored : Address → ℕ
  userTimeWeightedEthPerVePaid : Address → ℕ
  userLastRewardTs : Address → ℕ
  userRewardRemainder : Address → ℕ
  autoCompoundConfig : Address → AutoCompoundConfig
  isAutoCompoundKeeper : Address → Bool
  minAutoCompoundEth : ℕ
  oldestObservedNonAutoMaxLockEnd : ℕ
  userObservedMinNonAutoMaxLockEnd : Address → ℕ
  events : List Event
  ghost : Ghost

namespace RoyaltiesState

variable (r : RoyaltiesState)

def emit (e : Event) : RoyaltiesState := { r with events := r.events ++ [e] }

/-- Number of flushes that advanced the index. -/
def flushCount : ℕ := r.events.countP fun
  | .ShareholderFlush _ _ => true
  | _ => false

end RoyaltiesState

/-- Storage after the constructor and the initializer.  `balance` is ETH that
the address held before. -/
def initial (self owner : Address) (balance : ℕ) : RoyaltiesState where
  self := self
  owner := owner
  balance := balance
  configFrozen := false
  furnace := 0
  mineCore := 0
  mineMarket := 0
  claimAllHelper := 0
  ethPerVe := 0
  pendingShareholderETH := 0
  indexedEthOwed := 0
  totalCrystallisedStored := 0
  batchWiringVerified := false
  rewardCheckpoints := []
  ethPerVeTimeWeighted := 0
  overflowCheckpoints := []
  overflowRingHead := 0
  userEthPerVePaid := fun _ ↦ 0
  claimableEthStored := fun _ ↦ 0
  userTimeWeightedEthPerVePaid := fun _ ↦ 0
  userLastRewardTs := fun _ ↦ 0
  userRewardRemainder := fun _ ↦ 0
  autoCompoundConfig := fun _ ↦ {}
  isAutoCompoundKeeper := fun _ ↦ false
  minAutoCompoundEth := 10 ^ 14
  oldestObservedNonAutoMaxLockEnd := UINT40_MAX
  userObservedMinNonAutoMaxLockEnd := fun _ ↦ 0
  events := []
  ghost := { unaccountedEth := balance }

end ClaimRush.ShareholderRoyalties
