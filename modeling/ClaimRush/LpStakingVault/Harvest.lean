import ClaimRush.LpStakingVault.Payouts

/-!
# Notifications, harvests and configuration

The Furnace notifies the vault of CLAIM it has sent; keepers turn the LP fees of
the pool into CLAIM rewards.
-/

open Function

namespace ClaimRush.LpStakingVault

open Constants VeClaimNFT

/-- What the pool and the router do in one harvest; `none` is a revert. -/
structure HarvestReplies where
  /-- CLAIM fees paid by `claimFees`, whose revert is caught. -/
  claimFees : Option ℕ
  /-- WETH balance of the vault after `claimFees`. -/
  feeWeth : ℕ
  amountsOut : Option (List ℕ)
  /-- CLAIM paid by the swap. -/
  swapped : Option ℕ

variable (call : Call) (s : VaultState)

/-- `notifyRewards`. -/
def notifyRewards (amountClaim : ℕ) : Except Error VaultState := do
  revertIf (call.sender ≠ s.furnace ∧ call.sender ≠ s.self) .NotRewardNotifier
  let delta := s.claimBalance - s.accountedRewardBalance
  let diff := if delta > amountClaim then delta - amountClaim else amountClaim - delta
  let s :=
    if delta > 0 ∧ amountClaim > 0 then
      if diff > amountClaim / 100 then s.emit (.NotifyAmountDivergence amountClaim delta) else s
    else if delta > 0 ∧ amountClaim = 0 then s.emit (.NotifyAmountDivergence amountClaim delta)
    else s
  s.checkpointRewardsFromBalanceDelta (call.sender = s.furnace) (call.sender = s.self)

/-- `_effectiveMinClaimOutForHarvest`. -/
def effectiveMinClaimOutForHarvest (wethToSwap callerMinClaimOut : ℕ)
    (amountsOut : Option (List ℕ)) : Except Error ℕ :=
  if wethToSwap = 0 then .ok 0
  else do
    revertIf (amountsOut = none) .HarvestQuoteFailed
    let quotedOut := (amountsOut.bind List.getLast?).getD 0
    revertIf (quotedOut = 0) .HarvestQuoteFailed
    let product ← uint256 (quotedOut * (BPS_DENOM - HARVEST_MAX_SLIPPAGE_BPS))
    let floor := product / BPS_DENOM
    if callerMinClaimOut > 0 ∧ floor > 0 then
      let least ← mulDiv floor CALLER_QUOTE_MIN_FLOOR_PCT 100
      revertIf (callerMinClaimOut < least) .CallerQuoteDivergence
    let result := if callerMinClaimOut > floor then callerMinClaimOut else floor
    revertIf (s.minHarvestClaimFloor ≠ 0 ∧ result < s.minHarvestClaimFloor) .MinClaimFloorNotMet
    return result

/-- `_swapWethToClaim`: the state after the swap, and the CLAIM bought. -/
def swapWethToClaim (wethToSwap : ℕ) (swapped : Option ℕ) : Except Error (VaultState × ℕ) :=
  if wethToSwap = 0 then .ok (s, 0)
  else do
    let bought ← externalCall swapped
    let s ← s.receiveClaim bought
    return (s, bought)

/-- The `try` around `claimFees`. -/
def collectFees : Option ℕ → Except Error VaultState
  | some fees => s.receiveClaim fees
  | none => .ok s

/-- `harvestFeesToRewards`. -/
def harvestFeesToRewards (deadline minClaimOut : ℕ) (replies : HarvestReplies) :
    Except Error VaultState := do
  requireHarvestKeeper call s
  revertIf (deadline < call.timestamp ∨ deadline > call.timestamp + MAX_HARVEST_DEADLINE)
    .DeadlineTooFar
  let s ← s.checkpointPendingRewards
  let s ← collectFees s replies.claimFees
  let feeClaim := s.claimBalance - s.accountedRewardBalance
  revertIf (replies.feeWeth = 0 ∧ feeClaim = 0) .NoFeesToHarvest
  let s := if replies.feeWeth = 0 ∧ minClaimOut > 0 then
    s.emit (.HarvestMinClaimOutIgnored minClaimOut) else s
  revertIf (replies.feeWeth > 0 ∧ minClaimOut = 0) .MinClaimOutRequired
  revertIf (replies.feeWeth > 0 ∧ s.minHarvestClaimFloor ≠ 0 ∧
    minClaimOut < s.minHarvestClaimFloor) .MinClaimFloorNotMet
  let _ ← effectiveMinClaimOutForHarvest s replies.feeWeth minClaimOut replies.amountsOut
  let (s, claimBought) ← swapWethToClaim s replies.feeWeth replies.swapped
  let claimToRewards ← uint256 (feeClaim + claimBought)
  let s ←
    if claimToRewards > 0 then s.checkpointRewardsFromBalanceDelta false true
    else pure s
  return { s with lastFeeHarvestTs := call.timestamp }.emit
    (.LpFeesHarvestedToRewards call.sender replies.feeWeth feeClaim claimToRewards)

/-! ## Configuration -/

/-- `_checkOwner`. -/
def requireOwner : Except Error Unit := do
  revertIf (call.sender ≠ s.owner) .OwnableUnauthorizedAccount
  revertIf (call.delegatedEOA call.sender) .DelegatedEOA

/-- `setMinHarvestClaimFloor`. -/
def setMinHarvestClaimFloor (floor : ℕ) : Except Error VaultState := do
  requireOwner call s
  revertIf (floor > MAX_MIN_HARVEST_CLAIM_FLOOR) .AmountTooLarge
  return { s with minHarvestClaimFloor := floor }.emit
    (.MinHarvestClaimFloorSet s.minHarvestClaimFloor floor)

/-- `setMinCompoundReward`. -/
def setMinCompoundReward (floor : ℕ) : Except Error VaultState := do
  requireOwner call s
  revertIf (floor > MAX_MIN_COMPOUND_REWARD) .AmountTooLarge
  return { s with minCompoundReward := floor }.emit
    (.MinCompoundRewardSet s.minCompoundReward floor)

/-- `setHarvestKeeper`. -/
def setHarvestKeeper (keeper : Address) (allowed : Bool) : Except Error VaultState := do
  requireOwner call s
  revertIf (keeper = 0) .ZeroAddress
  revertIf (allowed ∧ call.delegatedEOA keeper) .DelegatedEOA
  return { s with isHarvestKeeper := update s.isHarvestKeeper keeper allowed }.emit
    (.HarvestKeeperSet keeper allowed)

/-- The eligibility checks of `_setAutoCompoundConfig` for an enabled config; the
replies are those of the lock contract. -/
def checkAutoCompoundConfig (user : Address) (cfg : AutoCompoundConfig) (owner : Option Address)
    (lock : Option LockInfo) : Except Error Unit := do
  revertIf (cfg.maxSlippageBps > 1000) .SlippageTooHigh
  revertIf (cfg.durationSeconds < MIN_LOCK_DURATION ∨ cfg.durationSeconds > MAX_LOCK_DURATION)
    .InvalidDuration
  revertIf (cfg.tokenId = 0) .InvalidToken
  let owner ← externalCall owner
  revertIf (owner ≠ user) .NotAuthorized
  let l ← externalCall lock
  revertIf (l.listed) .LockListedOrFrozen
  revertIf (l.lockEnd ≤ call.timestamp) .LockExpired
  revertIf (l.autoMax ∧ cfg.durationSeconds ≠ MAX_LOCK_DURATION) .InvalidDuration

/-- `_setAutoCompoundConfig`; a disabled config is cleared. -/
def setAutoCompoundConfigInternal (user : Address) (cfg : AutoCompoundConfig)
    (owner : Option Address) (lock : Option LockInfo) : Except Error VaultState := do
  let cfg := if cfg.enabled then { cfg with paused := false } else {}
  if cfg.enabled then checkAutoCompoundConfig call user cfg owner lock
  let s := if (s.autoCompound user).paused then s.emit (.AutoCompoundUnpaused user) else s
  return { s with autoCompound := update s.autoCompound user cfg }.emit
    (.AutoCompoundConfigured user cfg)

/-- `_resolveCanonicalDelegationHub`. -/
def resolveCanonicalDelegationHub : Except Error Address := do
  let f := s.furnace
  revertIf (f = 0 ∨ call.codeLength f = 0) .WiringMismatch
  revertIf (call.staticcallAddress f .claim ≠ s.claim ∨ call.staticcallAddress f .ve ≠ s.ve)
    .WiringMismatch
  let core := call.staticcallAddress f .mineCore
  revertIf (core = 0 ∨ call.codeLength core = 0) .WiringMismatch
  revertIf (call.staticcallAddress core .claim ≠ s.claim ∨ call.staticcallAddress core .ve ≠ s.ve ∨
    call.staticcallAddress core .furnace ≠ f) .WiringMismatch
  let hub := call.staticcallAddress f .delegationHub
  revertIf (hub = 0 ∨ call.codeLength hub = 0) .WiringMismatch
  revertIf (call.staticcallAddress core .delegationHub ≠ hub) .WiringMismatch
  return hub

def P_SET_LP_AUTOCOMPOUND_CONFIG_FOR : ℕ := 2 ^ 17

/-- `setAutoCompoundConfigForUser`. -/
def setAutoCompoundConfigForUser (user : Address) (cfg : AutoCompoundConfig)
    (owner : Option Address) (lock : Option LockInfo) : Except Error VaultState := do
  revertIf (user = 0) .ZeroAddress
  let hub ← resolveCanonicalDelegationHub call s
  revertIf (!call.isAuthorized hub user call.sender P_SET_LP_AUTOCOMPOUND_CONFIG_FOR) .NotAuthorized
  let s ← setAutoCompoundConfigInternal call s user cfg owner lock
  return s.emit (.DelegationSessionUsed user call.sender 42 P_SET_LP_AUTOCOMPOUND_CONFIG_FOR
    (s.autoCompound user).tokenId call.timestamp)

end ClaimRush.LpStakingVault
