import ClaimRush.ShareholderRoyalties.Wiring
import ClaimRush.Lib.LowerBound

/-!
# Reward checkpoints

Each flush stores the index and the time-weighted index at its time.  The main
array is frozen when full; later entries go to an overflow array, which turns
into a ring buffer when it is full as well.
-/

namespace ClaimRush.ShareholderRoyalties

open Constants

namespace RoyaltiesState

variable (r : RoyaltiesState)

/-- `_overflowLastWrittenIndex`. -/
def overflowLastWrittenIndex : ℕ :=
  if r.overflowRingHead = 0 then r.overflowCheckpoints.length - 1 else r.overflowRingHead - 1

def overflowLast : RewardCheckpoint :=
  r.overflowCheckpoints.getD r.overflowLastWrittenIndex {}

def overflowHead : RewardCheckpoint :=
  r.overflowCheckpoints.getD r.overflowRingHead {}

def mainLast : RewardCheckpoint :=
  r.rewardCheckpoints.getD (r.rewardCheckpoints.length - 1) {}

/-- The entry that records the current indices at `rewardTs`. -/
def snapshotAt (rewardTs : ℕ) : RewardCheckpoint where
  timestamp := rewardTs
  cumulativeEthPerVe := r.ethPerVe
  cumulativeTimeWeightedEthPerVe := r.ethPerVeTimeWeighted

/-- `_canStoreRewardCheckpoint`. -/
def canStoreRewardCheckpoint (rewardTs : ℕ) : Bool :=
  if r.rewardCheckpoints.length < MAX_REWARD_CHECKPOINTS then true
  else if r.overflowCheckpoints.length = 0 then true
  else if r.overflowLast.timestamp = rewardTs then true
  else if r.overflowCheckpoints.length < MAX_OVERFLOW_CHECKPOINTS then true
  else if r.overflowHead.timestamp ≥ r.oldestObservedNonAutoMaxLockEnd then false
  else r.overflowHead.timestamp + MAX_LOCK_DURATION < rewardTs

/-- `_storeOverflowCheckpoint`. -/
def storeOverflowCheckpoint (rewardTs : ℕ) : Except Error RoyaltiesState :=
  let entries := r.overflowCheckpoints
  if entries ≠ [] ∧ r.overflowLast.timestamp = rewardTs then
    .ok { r with
      overflowCheckpoints := entries.set r.overflowLastWrittenIndex (r.snapshotAt rewardTs) }
  else if entries.length < MAX_OVERFLOW_CHECKPOINTS then
    let r := if entries = [] then r.emit (.RewardCheckpointCapReached r.rewardCheckpoints.length)
      else r
    .ok { r with overflowCheckpoints := entries ++ [r.snapshotAt rewardTs] }
  else
    let r := r.emit (.OverflowCheckpointCapReached entries.length)
    let head := r.overflowRingHead
    -- The oldest entry may go once no lock can still end before it.
    if r.overflowHead.timestamp + MAX_LOCK_DURATION < rewardTs ∧
        r.overflowHead.timestamp < r.oldestObservedNonAutoMaxLockEnd then
      .ok { r with
        overflowCheckpoints := entries.set head (r.snapshotAt rewardTs)
        overflowRingHead := (head + 1) % entries.length }
    else .error .InvariantViolation

/-- `_storeRewardCheckpoint`. -/
def storeRewardCheckpoint (rewardTs : ℕ) : Except Error RoyaltiesState :=
  let entries := r.rewardCheckpoints
  if entries.length ≥ MAX_REWARD_CHECKPOINTS then r.storeOverflowCheckpoint rewardTs
  else if entries ≠ [] ∧ r.mainLast.timestamp = rewardTs then
    .ok { r with rewardCheckpoints := entries.set (entries.length - 1) (r.snapshotAt rewardTs) }
  else .ok { r with rewardCheckpoints := entries ++ [r.snapshotAt rewardTs] }

/-- `_latestRewardTimestamp`. -/
def latestRewardTimestamp : ℕ :=
  if r.overflowCheckpoints.length ≠ 0 then r.overflowLast.timestamp
  else if r.rewardCheckpoints.length ≠ 0 then r.mainLast.timestamp
  else 0

/-- The overflow half of `_getRewardPrefixBefore`; logical position `i` of the
ring is stored at `(i + head) % length`. -/
def overflowPrefixBefore (ts : ℕ) : Option RewardCheckpoint :=
  let ovLen := r.overflowCheckpoints.length
  let entry (i : ℕ) := r.overflowCheckpoints.getD ((i + r.overflowRingHead) % ovLen) {}
  if ovLen = 0 then none
  else if r.overflowLast.timestamp < ts then some r.overflowLast
  else
    let lo := lowerBound (fun mid ↦ (entry mid).timestamp < ts) ovLen 0 ovLen
    if lo ≠ 0 then some (entry (lo - 1)) else none

/-- The main half of `_getRewardPrefixBefore`. -/
def mainPrefixBefore (ts : ℕ) : RewardCheckpoint :=
  let len := r.rewardCheckpoints.length
  let entry (i : ℕ) := r.rewardCheckpoints.getD i {}
  if len = 0 then {}
  else if r.mainLast.timestamp < ts then r.mainLast
  else
    let lo := lowerBound (fun mid ↦ (entry mid).timestamp < ts) len 0 len
    if lo = 0 then {} else entry (lo - 1)

/-- `_getRewardPrefixBefore`: the indices of the last entry older than `ts`. -/
def getRewardPrefixBefore (ts : ℕ) : ℕ × ℕ :=
  let c := (r.overflowPrefixBefore ts).getD (r.mainPrefixBefore ts)
  (c.cumulativeEthPerVe, c.cumulativeTimeWeightedEthPerVe)

end RoyaltiesState

end ClaimRush.ShareholderRoyalties
