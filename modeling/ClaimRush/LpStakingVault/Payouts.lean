import ClaimRush.LpStakingVault.Rewards

/-!
# Payouts

Rewards are paid in liquid CLAIM, or pulled by the Furnace into a lock on the
request of the user or of a keeper.  A Furnace call may itself send CLAIM to the
vault; it cannot re-enter the guarded functions.
-/

open Function

namespace ClaimRush.LpStakingVault

open Constants VeClaimNFT

/-- What a successful `Furnace.enterWithClaimFor` does besides pulling the reward
through the allowance: it may stream CLAIM to the vault, whose notification fails. -/
structure FurnaceEntry where
  streamed : ℕ
  tokenIdUsed : ℕ

/-- `IFurnaceQuoter.quoteEnterWithClaim`. -/
structure EnterQuote where
  principalClaim : ℕ
  bonusClaim : ℕ
  veOut : ℕ
  routeTokenId : ℕ

/-- `IVeClaimNFT.getLockInfo`, as far as it is read. -/
structure LockInfo where
  lockEnd : ℕ
  autoMax : Bool
  listed : Bool

/-- What the other contracts answer to one auto-compound; `none` is a revert,
which is caught. -/
structure CompoundReplies where
  ownerOf : Option Address
  getLockInfo : Option LockInfo
  quote : Option EnterQuote
  enter : Option FurnaceEntry

/-- The CLAIM movements of a Furnace call for `reward`; `none` is a revert, which
undoes them. -/
def furnaceEnter (s : VaultState) (reward : ℕ) (entry : Option FurnaceEntry) : Option VaultState :=
  entry.bind fun e ↦
    if reward ≤ s.claimBalance ∧ s.claimBalance + e.streamed < uint256Bound then
      some { s with
        claimBalance := s.claimBalance + e.streamed - reward
        ghost := { s.ghost with received := s.ghost.received + e.streamed } }
    else none

section Calls

variable (call : Call) (s : VaultState)

/-- `claimRewards`. -/
def claimRewards : Except Error VaultState := do
  let user := call.sender
  let s ← checkpoint s user
  let reward := s.rewards user
  if reward = 0 then return s
  else
    let s := s.clearRewards user reward
    revertIf (s.claimBalance < reward) .ERC20InsufficientBalance
    let s := { s with claimBalance := s.claimBalance - reward }
    let claimed ← uint256 (s.totalClaimRewardsClaimed + reward)
    let s := { s with totalClaimRewardsClaimed := claimed }
    return (s.decreaseAccountedRewardBalance reward).emit (.LpRewardsClaimed user reward)

/-- `claimRewardsAndLock`; `quote` and `entry` are the replies of the quoter and
the Furnace. -/
def claimRewardsAndLock (targetTokenId durationSeconds : ℕ) (createAutoMax : Bool) (minVeOut : ℕ)
    (quote : Option EnterQuote) (entry : Option FurnaceEntry) : Except Error VaultState := do
  let user := call.sender
  let s ← checkpoint s user
  let reward := s.rewards user
  if reward = 0 then return s
  else
    revertIf (minVeOut = 0) .MinVeOutRequired
    revertIf (durationSeconds < MIN_LOCK_DURATION ∨ durationSeconds > MAX_LOCK_DURATION)
      .InvalidDuration
    revertIf (createAutoMax ∧ targetTokenId ≠ 0) .AutoMaxMismatch
    revertIf (createAutoMax ∧ durationSeconds ≠ MAX_LOCK_DURATION) .InvalidDuration
    let cooldownEnd ← uint256 (s.lastUserLockTs user + MIN_COMPOUND_INTERVAL)
    revertIf (call.timestamp < cooldownEnd) .LockCooldown
    let s := { s with lastUserLockTs := update s.lastUserLockTs user call.timestamp }
    let q ← externalCall quote
    let s := s.clearRewards user reward
    let e ← externalCall entry
    let s ← externalCall (furnaceEnter s reward (some e))
    let locked ← uint256 (s.totalClaimRewardsLockedViaFurnace + reward)
    let s := { s with totalClaimRewardsLockedViaFurnace := locked }
    return (s.decreaseAccountedRewardBalance reward).emit
      (.LpRewardsLocked user reward q.principalClaim q.bonusClaim e.tokenIdUsed)

end Calls

/-! ## Auto-compound -/

namespace VaultState

variable (s : VaultState)

/-- `cfg.paused = true`, with the event. -/
def pause (user : Address) (tokenId : ℕ) (reason : PauseReason) : VaultState :=
  { s with autoCompound :=
      update s.autoCompound user { s.autoCompound user with paused := true } }.emit
    (.AutoCompoundPaused user tokenId reason)

/-- `minVeOut` of `_computeMinVeOutForCompound`, for a quote of `veOut`. -/
def minVeOutForCompound (user : Address) (veOut : ℕ) : Except Error ℕ := do
  let configured := (s.autoCompound user).maxSlippageBps
  let slippageBps := if configured = 0 then DEFAULT_LP_AUTOCOMPOUND_MAX_SLIPPAGE_BPS else configured
  let slippageBps := if slippageBps > BPS_DENOM then BPS_DENOM else slippageBps
  let product ← uint256 (veOut * (BPS_DENOM - slippageBps))
  return if product / BPS_DENOM = 0 then 1 else product / BPS_DENOM

/-- The outcome of the eligibility checks of `_compoundFor`: leave the user
alone, pause the user, or go on with the lock. -/
inductive Eligibility
  | skip
  | pause (tokenId : ℕ) (reason : PauseReason)
  | go (tokenId lockEnd : ℕ) (autoMax : Bool)

/-- The checks of `_compoundFor` before it looks at the rewards. -/
def compoundEligibility (nowTs : ℕ) (user : Address) (replies : CompoundReplies) :
    Except Error Eligibility :=
  let cfg := s.autoCompound user
  if user = 0 then .ok .skip
  else if !cfg.enabled ∨ cfg.paused then .ok .skip
  else do
    let cadenceEnd ← uint256 (s.lastCompoundTs user + MIN_COMPOUND_INTERVAL)
    if nowTs < cadenceEnd then return .skip
    else if cfg.tokenId = 0 then return .pause 0 .invalidTokenId
    else
      match replies.ownerOf, replies.getLockInfo with
      | none, _ => return .pause cfg.tokenId .invalidTokenId
      | some owner, lock =>
          if owner ≠ user then return .pause cfg.tokenId .notOwner
          else
            match lock with
            | none => return .pause cfg.tokenId .invalidTokenId
            | some l =>
                if l.listed then return .pause cfg.tokenId .listed
                else if l.lockEnd ≤ nowTs then return .pause cfg.tokenId .expired
                else return .go cfg.tokenId l.lockEnd l.autoMax

/-- The duration to which `_compoundFor` extends the lock. -/
def effectiveDuration (configured remaining : ℕ) (autoMax : Bool) : ℕ :=
  let d := if remaining > configured then remaining else configured
  let d := if autoMax then MAX_LOCK_DURATION else d
  if d > MAX_LOCK_DURATION then MAX_LOCK_DURATION else d

/-- The Furnace call of `_compoundFor` with the provisional debit around it. -/
def compoundReward (nowTs : ℕ) (user : Address) (reward tokenId : ℕ) (q : EnterQuote)
    (entry : Option FurnaceEntry) : Except Error VaultState :=
  let debited := { s with
    rewards := update s.rewards user 0
    totalRewardsCredited := wrapping (s.totalRewardsCredited - reward) }
  match entry, furnaceEnter debited reward entry with
  | some e, some s => do
      let s := { s with
        indexedClaimOwed := wrapping (s.indexedClaimOwed - reward)
        lastCompoundTs := update s.lastCompoundTs user nowTs }
      let s := s.decreaseAccountedRewardBalance reward
      let locked ← uint256 (s.totalClaimRewardsLockedViaFurnace + reward)
      return { s with totalClaimRewardsLockedViaFurnace := locked }.emit
        (.LpRewardsLocked user reward q.principalClaim q.bonusClaim e.tokenIdUsed)
  | _, _ =>
      .ok ({ debited with
        rewards := update debited.rewards user reward
        totalRewardsCredited :=
          wrapping (debited.totalRewardsCredited + reward) }.pause user tokenId
        .furnaceRevert)

end VaultState

open VaultState in
/-- `_compoundFor`. -/
def compoundForInternal (call : Call) (s : VaultState) (user : Address)
    (replies : CompoundReplies) : Except Error VaultState := do
  match ← s.compoundEligibility call.timestamp user replies with
  | .skip => return s
  | .pause tokenId reason => return s.pause user tokenId reason
  | .go tokenId lockEnd autoMax =>
      let s ← checkpoint s user
      let reward := s.rewards user
      let cfg := s.autoCompound user
      let effectiveMin := if cfg.minRewardToCompound < s.minCompoundReward then s.minCompoundReward
        else cfg.minRewardToCompound
      if reward < effectiveMin then return s
      else
        let duration := effectiveDuration cfg.durationSeconds (lockEnd - call.timestamp) autoMax
        if duration < MIN_LOCK_DURATION then return s.pause user tokenId .expired
        else
          match replies.quote with
          | none => return s
          | some q =>
              if q.veOut = 0 then return s
              else
                let _ ← s.minVeOutForCompound user q.veOut
                s.compoundReward call.timestamp user reward tokenId q replies.enter

/-- The `onlyHarvestKeeper` modifier. -/
def requireHarvestKeeper (call : Call) (s : VaultState) : Except Error Unit := do
  revertIf (call.sender ≠ s.owner ∧ !s.isHarvestKeeper call.sender) .NotAuthorized
  revertIf (call.delegatedEOA call.sender) .DelegatedEOA

/-- `compoundFor`. -/
def compoundFor (call : Call) (s : VaultState) (user : Address) (replies : CompoundReplies) :
    Except Error VaultState := do
  requireHarvestKeeper call s
  compoundForInternal call s user replies

/-- The loop of `compoundForMany`, with the replies to each user. -/
def compoundLoop (call : Call) : List (Address × CompoundReplies) → VaultState →
    Except Error VaultState
  | [], s => .ok s
  | (user, replies) :: rest, s => do
      let s ← compoundForInternal call s user replies
      compoundLoop call rest s

/-- `compoundForMany`. -/
def compoundForMany (call : Call) (s : VaultState) (users : List (Address × CompoundReplies))
    (maxUsers : ℕ) : Except Error VaultState := do
  requireHarvestKeeper call s
  compoundLoop call (users.take (min maxUsers MAX_LP_COMPOUND_USERS_PER_CALL)) s

end ClaimRush.LpStakingVault
