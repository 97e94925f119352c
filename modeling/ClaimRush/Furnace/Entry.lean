import ClaimRush.Furnace.BonusAmm
import ClaimRush.Furnace.Wiring

/-!
# Entries

CLAIM enters as principal, earns a bonus from the AMM for the duration it
commits to, and principal and bonus are locked for the user.  ETH and tokens are
swapped to CLAIM first; the swap is a parameter, of which the Furnace trusts only
the CLAIM that it finds delivered.
-/

namespace ClaimRush.Furnace

open Constants

variable {S : Type} (port : VeClaimNFT.IShareholderRoyalties S) (call : Call) (w : World S)

/-! ## Destinations -/

/-- `resolveEntryDurationAndWeight`. -/
def resolveEntryDurationAndWeight (user : Address) (targetTokenId durationSeconds : ℕ)
    (createAutoMax : Bool) : Except Error (ℕ × ℕ) :=
  let d := clampDuration durationSeconds
  if targetTokenId = 0 then do
    revertIf (createAutoMax ∧ d ≠ MAX_LOCK_DURATION) .InvalidDuration
    return (d, durationWeight d)
  else do
    revertIf (w.ve.owners targetTokenId = 0) .InvalidToken
    revertIf (w.ve.owners targetTokenId ≠ user) .NotAuthorized
    let (_, lockEnd, autoMaxExisting, listed) := w.ve.getLockInfo call.timestamp targetTokenId
    revertIf (listed) .LockListedOrFrozen
    revertIf (lockEnd ≤ call.timestamp) .LockExpired
    if autoMaxExisting then
      revertIf (d ≠ MAX_LOCK_DURATION) .InvalidDuration
      return (MAX_LOCK_DURATION, durationWeight MAX_LOCK_DURATION)
    else
      let effectiveDuration := lockEnd - call.timestamp
      revertIf (effectiveDuration < MIN_LOCK_DURATION) .InvalidDuration
      return (effectiveDuration, durationWeight effectiveDuration)

/-- `validateNewLock`: the ve output of a new lock. -/
def validateNewLock (amountLocked durationSeconds : ℕ) (createAutoMax : Bool) : Except Error ℕ := do
  revertIf (createAutoMax ∧ durationSeconds ≠ MAX_LOCK_DURATION) .InvalidDuration
  revertIf (amountLocked < MIN_LOCK_AMOUNT) .MinLockAmountNotMet
  return amountLocked * durationSeconds / MAX_LOCK_DURATION

/-- `resolveExistingLockDestination`: the ve output of a top-up. -/
def resolveExistingLockDestination (user : Address)
    (targetTokenId amountLocked durationSeconds : ℕ) : Except Error ℕ := do
  revertIf (w.ve.owners targetTokenId = 0) .InvalidToken
  revertIf (w.ve.owners targetTokenId ≠ user) .NotAuthorized
  let (_, lockEnd, autoMaxExisting, listed) := w.ve.getLockInfo call.timestamp targetTokenId
  revertIf (listed) .LockListedOrFrozen
  revertIf (lockEnd ≤ call.timestamp) .LockExpired
  let oldRemaining := lockEnd - call.timestamp
  if autoMaxExisting then
    revertIf (durationSeconds ≠ MAX_LOCK_DURATION) .InvalidDuration
    return amountLocked * MAX_LOCK_DURATION / MAX_LOCK_DURATION
  else
    revertIf (oldRemaining < MIN_LOCK_DURATION) .InvalidDuration
    return amountLocked * oldRemaining / MAX_LOCK_DURATION

/-- `createLockDelegated`: the new token id. -/
def createLockDelegated (user : Address) (amount duration : ℕ) (autoMax : Bool) :
    Except Error (World S × ℕ) := do
  let self := w.furnace.self
  let base := { w.base with claim := w.claim.approve self w.ve.self amount }
  let tokenId := base.ve.nextTokenId
  let base ←
    VeClaimNFT.createLockFor port (call.byFurnace w.furnace) base user amount duration autoMax
  let base := { base with claim := base.claim.approve self w.ve.self 0 }
  return ({ w with base := base }, tokenId)

/-- `addToLockDelegated`. -/
def addToLockDelegated (user : Address) (tokenId amount : ℕ) : Except Error (World S) := do
  let self := w.furnace.self
  let base := { w.base with claim := w.claim.approve self w.ve.self amount }
  let base ← VeClaimNFT.addToLockFor port (call.byFurnace w.furnace) base user tokenId amount
  let base := { base with claim := base.claim.approve self w.ve.self 0 }
  return { w with base := base }

/-- `_lockToDestination`: the guarded ve output and the token used. -/
def lockToDestination (user : Address) (amountLocked targetTokenId durationSeconds : ℕ)
    (createAutoMax : Bool) : Except Error (World S × ℕ × ℕ) :=
  if targetTokenId = 0 then do
    let veOut ← validateNewLock amountLocked durationSeconds createAutoMax
    let (w, tokenId) ← delegatecall
      (createLockDelegated port call w user amountLocked durationSeconds createAutoMax)
    return (w, veOut, tokenId)
  else do
    let veOut ← resolveExistingLockDestination call w user targetTokenId amountLocked
      durationSeconds
    let w ← delegatecall (addToLockDelegated port call w user targetTokenId amountLocked)
    return (w, veOut, targetTokenId)

/-! ## The entry body -/

/-- What an entry returns: the token used, the bonus and the ve output. -/
structure Entered where
  tokenIdUsed : ℕ
  bonusClaim : ℕ
  veOut : ℕ
  deriving DecidableEq, Repr

/-- `_enterAfterPrincipal`. -/
def enterAfterPrincipal (user : Address) (mode ethIn principalClaim targetTokenId
    durationSeconds : ℕ) (createAutoMax : Bool) (minVeOut : ℕ) :
    Except Error (World S × Entered) := do
  revertIf (principalClaim = 0) .AmountZero
  revertIf (w.furnace.furnaceQuoter = 0) .ZeroAddress
  revertIf (minVeOut = 0) .MinVeOutRequired
  let (d, weight) ←
    resolveEntryDurationAndWeight call w user targetTokenId durationSeconds createAutoMax
  let product ← uint256 (principalClaim * weight)
  let principalEff := product / WEIGHT_DENOM
  let (w, bonus) ← applyBonusAmm call w user principalClaim principalEff d
  let amountLocked := principalClaim + bonus.user
  let (w, veOut, tokenIdUsed) ←
    lockToDestination port call w user amountLocked targetTokenId d createAutoMax
  let basis ← uint256 (w.furnace.bonusBasis tokenIdUsed + principalClaim)
  let f := { w.furnace with bonusBasis := Function.update w.furnace.bonusBasis tokenIdUsed basis }
  revertIf (veOut < minVeOut) .MinVeOutNotMet
  let marginBps := (veOut - minVeOut) * BPS_DENOM / veOut
  let f :=
    if marginBps ≤ 200 then
      f.emit (.NearSlippageLimitEntry user tokenIdUsed minVeOut veOut marginBps)
    else f
  let w := syncFurnaceReserve call { w with furnace := f }
  return (w.emit (.FurnaceEnter user mode ethIn principalClaim bonus.user tokenIdUsed),
    ⟨tokenIdUsed, bonus.user, veOut⟩)

/-! ## Entry points -/

def MODE_ENTER_WITH_ETH : ℕ := 0
def MODE_ENTER_WITH_CLAIM : ℕ := 1
def MODE_LOCK_FURNACE : ℕ := 2
def MODE_ENTER_WITH_TOKEN : ℕ := 3

/-- `_pullClaimFromSender`. -/
def pullClaimFromSender (amount : ℕ) : Except Error (World S) := do
  let claim ← w.claim.transferFrom w.furnace.self call.sender w.furnace.self amount
  return w.withClaim claim

/-- A swap through the helper and the router, whatever else it changes. -/
abbrev Swap (S : Type) := VeClaimNFT.World S → Option (VeClaimNFT.World S)

/-- The swap of `_swapEthToClaim` and `_swapTokenToClaim`: the CLAIM found
delivered is the principal. -/
def swapToClaim (swap : Swap S) : Except Error (World S × ℕ) := do
  let _ ← Quoter.requireRegistryAndRouterConfig call w
  let balBefore := w.claimBalance
  let base ← externalCall (swap w.base)
  let w := { w with base := base }
  let principalClaim ← usub w.claimBalance balBefore
  revertIf (principalClaim = 0) .AmountZero
  return (w, principalClaim)

/-- Where an entry goes: the target lock, or a new lock. -/
structure Destination where
  targetTokenId : ℕ
  durationSeconds : ℕ
  createAutoMax : Bool
  minVeOut : ℕ
  deriving DecidableEq, Repr

/-- The entry of already validated CLAIM of the caller. -/
def enterClaim (user : Address) (claimAmount : ℕ) (dst : Destination) :
    Except Error (World S × Entered) := do
  let _ ← Quoter.requireRegistryAndRouterConfig call w
  let w ← pullClaimFromSender call w claimAmount
  enterAfterPrincipal port call w user MODE_ENTER_WITH_CLAIM 0 claimAmount dst.targetTokenId
    dst.durationSeconds dst.createAutoMax dst.minVeOut

/-- The entry of swapped ETH or tokens. -/
def enterSwapped (user : Address) (mode ethIn : ℕ) (swap : Swap S) (dst : Destination) :
    Except Error (World S × Entered) := do
  let (w, principalClaim) ← swapToClaim call w swap
  enterAfterPrincipal port call w user mode ethIn principalClaim dst.targetTokenId
    dst.durationSeconds dst.createAutoMax dst.minVeOut

/-- `enterWithEth`. -/
def enterWithEth (swap : Swap S) (dst : Destination) : Except Error (World S × Entered) := do
  whenLockingEnabled w.furnace
  revertIf (call.value = 0) .AmountZero
  enterSwapped port call w call.sender MODE_ENTER_WITH_ETH call.value swap dst

/-- `enterWithClaim`. -/
def enterWithClaim (claimAmount : ℕ) (dst : Destination) : Except Error (World S × Entered) := do
  whenLockingEnabled w.furnace
  revertIf (claimAmount = 0) .AmountZero
  enterClaim port call w call.sender claimAmount dst

/-- `enterWithClaimFor`. -/
def enterWithClaimFor (user : Address) (claimAmount : ℕ) (dst : Destination) :
    Except Error (World S × Entered) := do
  whenLockingEnabled w.furnace
  revertIf (user = 0) .ZeroAddress
  revertIf (claimAmount = 0) .AmountZero
  let vault := w.furnace.lpRewardsVault
  if call.sender = w.furnace.mineMarket then requireCanonicalMineMarketEntryCaller call w
  else if call.sender = vault then requireLpRewardsVaultCompatible call w vault false
  else if call.sender = w.furnace.mineCore then requireCanonicalMineCoreEntryCaller call w
  else throw .NotAuthorized
  enterClaim port call w user claimAmount dst

/-- `enterWithToken`. -/
def enterWithToken (tokenIn : Address) (amountIn : ℕ) (swap : Swap S) (dst : Destination) :
    Except Error (World S × Entered) := do
  whenLockingEnabled w.furnace
  revertIf (tokenIn = 0) .ZeroAddress
  revertIf (amountIn = 0) .AmountZero
  revertIf (tokenIn = w.claim.self) .InvalidToken
  enterSwapped port call w call.sender MODE_ENTER_WITH_TOKEN 0 swap dst

/-! ## Delegated entry points -/

/-- `DelegationPermissions.P_FURNACE_ENTER_ETH_FOR`. -/
def P_FURNACE_ENTER_ETH_FOR : ℕ := 2 ^ 9

/-- `DelegationPermissions.P_FURNACE_ENTER_CLAIM_FOR`. -/
def P_FURNACE_ENTER_CLAIM_FOR : ℕ := 2 ^ 10

/-- `DelegationPermissions.P_FURNACE_ENTER_TOKEN_FOR`. -/
def P_FURNACE_ENTER_TOKEN_FOR : ℕ := 2 ^ 11

/-- `DelegationActionTypes.FURNACE_ENTER_WITH_ETH_FOR`. -/
def FURNACE_ENTER_WITH_ETH_FOR : ℕ := 20

/-- `DelegationActionTypes.FURNACE_ENTER_WITH_CLAIM_FOR`. -/
def FURNACE_ENTER_WITH_CLAIM_FOR : ℕ := 21

/-- `DelegationActionTypes.FURNACE_ENTER_WITH_TOKEN_FOR`. -/
def FURNACE_ENTER_WITH_TOKEN_FOR : ℕ := 22

/-- `_emitDelegationSession`. -/
def emitDelegationSession (user : Address) (actionType perms tokenId : ℕ) : World S :=
  w.emit (.DelegationSessionUsed user call.sender actionType perms tokenId call.timestamp)

/-- `enterWithEthFor`. -/
def enterWithEthFor (user : Address) (swap : Swap S) (dst : Destination) :
    Except Error (World S × Entered) := do
  whenLockingEnabled w.furnace
  revertIf (user = 0) .ZeroAddress
  requireDelegated call w user P_FURNACE_ENTER_ETH_FOR
  revertIf (call.value = 0) .AmountZero
  let (w, entered) ← enterSwapped port call w user MODE_ENTER_WITH_ETH call.value swap dst
  return (emitDelegationSession call w user FURNACE_ENTER_WITH_ETH_FOR P_FURNACE_ENTER_ETH_FOR
    entered.tokenIdUsed, entered)

/-- `enterWithClaimFromCallerFor`. -/
def enterWithClaimFromCallerFor (user : Address) (claimAmount : ℕ) (dst : Destination) :
    Except Error (World S × Entered) := do
  whenLockingEnabled w.furnace
  revertIf (user = 0) .ZeroAddress
  revertIf (claimAmount = 0) .AmountZero
  requireDelegated call w user P_FURNACE_ENTER_CLAIM_FOR
  let (w, entered) ← enterClaim port call w user claimAmount dst
  return (emitDelegationSession call w user FURNACE_ENTER_WITH_CLAIM_FOR
    P_FURNACE_ENTER_CLAIM_FOR entered.tokenIdUsed, entered)

/-- `enterWithTokenFromCallerFor`. -/
def enterWithTokenFromCallerFor (user tokenIn : Address) (amountIn : ℕ) (swap : Swap S)
    (dst : Destination) : Except Error (World S × Entered) := do
  whenLockingEnabled w.furnace
  revertIf (user = 0) .ZeroAddress
  revertIf (tokenIn = 0) .ZeroAddress
  revertIf (amountIn = 0) .AmountZero
  revertIf (tokenIn = w.claim.self) .InvalidToken
  requireDelegated call w user P_FURNACE_ENTER_TOKEN_FOR
  let (w, entered) ← enterSwapped port call w user MODE_ENTER_WITH_TOKEN 0 swap dst
  return (emitDelegationSession call w user FURNACE_ENTER_WITH_TOKEN_FOR
    P_FURNACE_ENTER_TOKEN_FOR entered.tokenIdUsed, entered)

/-- `lockEthReward`. -/
def lockEthReward (user : Address) (ethAmount : ℕ) (swap : Swap S) (dst : Destination) :
    Except Error (World S × Entered) := do
  requireOnlyShareholderRoyalties call w
  whenLockingEnabled w.furnace
  revertIf (user = 0) .ZeroAddress
  revertIf (ethAmount = 0) .AmountZero
  revertIf (call.value ≠ ethAmount) .EthValueMismatch
  enterSwapped port call w user MODE_LOCK_FURNACE ethAmount swap dst

end ClaimRush.Furnace
