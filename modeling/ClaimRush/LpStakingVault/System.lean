import ClaimRush.LpStakingVault.Staking
import ClaimRush.LpStakingVault.Harvest
import ClaimRush.Lib.Driven

/-!
# Runs of the vault

The vault driven by any sequence of calls, with CLAIM transferred into it at any
time.
-/

namespace ClaimRush.LpStakingVault

open VeClaimNFT

inductive Op
  | stake (amount : ℕ) (transferred : Bool)
  | beginUnbond (amount : ℕ)
  | withdrawMatured (transferred : Bool)
  | claimRewards
  | claimRewardsAndLock (targetTokenId durationSeconds : ℕ) (createAutoMax : Bool) (minVeOut : ℕ)
      (quote : Option EnterQuote) (entry : Option FurnaceEntry)
  | compoundFor (user : Address) (replies : CompoundReplies)
  | compoundForMany (users : List (Address × CompoundReplies)) (maxUsers : ℕ)
  | notifyRewards (amountClaim : ℕ)
  | harvestFeesToRewards (deadline minClaimOut : ℕ) (replies : HarvestReplies)
  | transferClaim (amount : ℕ)
  | setAutoCompoundConfig (cfg : AutoCompoundConfig) (owner : Option Address)
      (lock : Option LockInfo)
  | setAutoCompoundConfigForUser (user : Address) (cfg : AutoCompoundConfig)
      (owner : Option Address) (lock : Option LockInfo)
  | setMinHarvestClaimFloor (floor : ℕ)
  | setMinCompoundReward (floor : ℕ)
  | setHarvestKeeper (keeper : Address) (allowed : Bool)

/-- Execute one call. -/
def exec (call : Call) (s : VaultState) : Op → Except Error VaultState
  | .stake amount transferred => stake call s amount transferred
  | .beginUnbond amount => beginUnbond call s amount
  | .withdrawMatured transferred => withdrawMatured call s transferred
  | .claimRewards => claimRewards call s
  | .claimRewardsAndLock targetTokenId durationSeconds createAutoMax minVeOut quote entry =>
      claimRewardsAndLock call s targetTokenId durationSeconds createAutoMax minVeOut quote entry
  | .compoundFor user replies => compoundFor call s user replies
  | .compoundForMany users maxUsers => compoundForMany call s users maxUsers
  | .notifyRewards amountClaim => notifyRewards call s amountClaim
  | .harvestFeesToRewards deadline minClaimOut replies =>
      harvestFeesToRewards call s deadline minClaimOut replies
  | .transferClaim amount => s.receiveClaim amount
  | .setAutoCompoundConfig cfg owner lock =>
      setAutoCompoundConfigInternal call s call.sender cfg owner lock
  | .setAutoCompoundConfigForUser user cfg owner lock =>
      setAutoCompoundConfigForUser call s user cfg owner lock
  | .setMinHarvestClaimFloor floor => setMinHarvestClaimFloor call s floor
  | .setMinCompoundReward floor => setMinCompoundReward call s floor
  | .setHarvestKeeper keeper allowed => setHarvestKeeper call s keeper allowed

/-- The vault from its deployment on; its address may already hold CLAIM. -/
def system : TransitionSystem (Timed VaultState) :=
  driven
    (fun s ↦ ∃ self owner claim ve furnace balance, balance < uint256Bound ∧
      s = initial self owner claim ve furnace balance)
    (fun c : Call × Op ↦ c.1.timestamp) (fun c s ↦ exec c.1 s c.2)

end ClaimRush.LpStakingVault
