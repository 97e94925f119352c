import ClaimRush.ShareholderRoyalties.Callee

/-!
# Claims, compounding and sweeping

Every payout checkpoints the user, takes the stored balance off the books and
then calls out.  A lone claim reverts when the call fails; a batch restores the
books of the user and goes on.
-/

open Function

namespace ClaimRush.ShareholderRoyalties

open Constants VeClaimNFT

variable (call : Call) (w : Worlds)

/-- `checkpointUser` on the storage of the system. -/
def checkpoint (user : Address) : Except Error Worlds := do
  return { w with royalties := ← checkpointUser call w.ve w.royalties user }

/-- `_consumeReservedEth`. -/
def consumeReservedEth (amount : ℕ) (r : RoyaltiesState) : Except Error RoyaltiesState :=
  if amount = 0 then .ok r
  else do
    revertIf (amount > r.totalCrystallisedStored) .InvariantViolation
    return { r with totalCrystallisedStored := r.totalCrystallisedStored - amount }

/-- The stored balance of `user` is cleared and consumed. -/
def takeStored (user : Address) (amount : ℕ) (r : RoyaltiesState) : Except Error RoyaltiesState :=
  consumeReservedEth amount
    { r with claimableEthStored := update r.claimableEthStored user 0 }

/-- An ETH push that must not fail. -/
def pushEth (callee : Callee) (amount : ℕ) : Except Error Worlds :=
  match callee.run call w amount with
  | some w => .ok w
  | none => .error .EthTransferFailed

/-- `lockEthReward` on the checked Furnace, with `amount` attached. -/
def lockEthReward (callee : Callee) (amount : ℕ) : Except Error Worlds := do
  revertIf (!isReciprocallyWiredFurnace call w.ve w.royalties w.royalties.furnace) .WiringMismatch
  externalCall (callee.run call w amount)

/-- `_claimShareholder`. -/
def claimShareholderOf (user : Address) (mode : Mode) (callee : Callee) :
    Except Error Worlds := do
  revertIf (user = 0) .ZeroAddress
  let w ← checkpoint call w user
  let amount := w.royalties.claimableEthStored user
  if amount = 0 then return w
  else
    let royalties ← takeStored user amount w.royalties
    let w := { w with royalties := royalties }
    let w ← match mode with
      | .eth => pushEth call w callee amount
      | .lockFurnace => lockEthReward call w callee amount
      | .invalid => .error .InvalidMode
    return { w with royalties := w.royalties.emit (.ShareholderClaim user mode amount) }

/-- `claimShareholder`. -/
def claimShareholder (mode : Mode) (callee : Callee) : Except Error Worlds :=
  claimShareholderOf call w call.sender mode callee

/-- `claimShareholderFor`. -/
def claimShareholderFor (user : Address) (mode : Mode) (callee : Callee) :
    Except Error Worlds := do
  requireCanonicalClaimAllHelperCaller call w.royalties
  claimShareholderOf call w user mode callee

/-- The two events of a payout to `dst`. -/
def emitClaimed (user dst : Address) (amount : ℕ) (mode : Mode) (r : RoyaltiesState) :
    RoyaltiesState :=
  (r.emit (.ShareholderClaim user mode amount)).emit (.ShareholderClaimed user dst amount mode)

/-- `claimShareholderForTo`. -/
def claimShareholderForTo (user dst : Address) (callee : Callee) : Except Error Worlds := do
  requireCanonicalClaimAllHelperCaller call w.royalties
  revertIf (dst = 0) .ZeroAddress
  let w ← checkpoint call w user
  let amount := w.royalties.claimableEthStored user
  if amount = 0 then return w
  else
    let royalties ← takeStored user amount w.royalties
    let w ← pushEth call { w with royalties := royalties } callee amount
    return { w with royalties := emitClaimed user dst amount .eth w.royalties }

/-- `claimShareholderTo`; a lock is created for the caller only. -/
def claimShareholderTo (dst : Address) (mode : Mode) (callee : Callee) :
    Except Error Worlds := do
  revertIf (dst = 0) .ZeroAddress
  let user := call.sender
  let w ← checkpoint call w user
  let amount := w.royalties.claimableEthStored user
  if amount = 0 then return w
  else
    let royalties ← takeStored user amount w.royalties
    let w := { w with royalties := royalties }
    let w ← match mode with
      | .eth => pushEth call w callee amount
      | .lockFurnace => do
          revertIf (dst ≠ user) .NotAuthorized
          lockEthReward call w callee amount
      | .invalid => .error .InvalidMode
    return { w with royalties := emitClaimed user dst amount mode w.royalties }

/-- `sweepDust`. -/
def sweepDust (dst : Address) (callee : Callee) : Except Error Worlds := do
  let r := w.royalties
  requireOwner call w
  requireCanonicalBaronRuntimeBundle call w.ve r
  revertIf (dst = 0) .ZeroAddress
  let reserved ← uint256 (r.pendingShareholderETH + r.indexedEthOwed)
  let reserved ← uint256 (reserved + r.totalCrystallisedStored)
  revertIf (r.balance < reserved) .InvariantViolation
  let dust := r.balance - reserved
  revertIf (dust = 0) .AmountZero
  revertIf (dust > 10 ^ 18) .AmountTooLarge
  let r := { r with ghost := { r.ghost with
    unaccountedEth := r.ghost.unaccountedEth - dust } }
  let w ← pushEth call { w with royalties := r } callee dust
  return { w with royalties := w.royalties.emit (.DustSwept dst dust) }

/-! ## Auto-compounding -/

/-- One attempt: the quoted ve (`none` when there is no quote), whether the gas
left allows the Furnace call, and what the Furnace does. -/
structure CompoundAttempt where
  quote : Option ℕ
  gasSuffices : Bool
  callee : Callee

/-- `_computeMinVeOutForCompound`; `none` is a failed quote. -/
def computeMinVeOutForCompound (quote : Option ℕ) (slippageBpsOverride : ℕ) :
    Except Error (Option ℕ) :=
  match quote with
  | none => .ok none
  | some veOut =>
      if veOut = 0 then .ok none
      else do
        let slippageBps :=
          if slippageBpsOverride = 0 then DEFAULT_AUTOCOMPOUND_MAX_SLIPPAGE_BPS
          else slippageBpsOverride
        revertIf (slippageBps ≥ BPS_DENOM) .SlippageTooHigh
        let scaled ← uint256 (veOut * (BPS_DENOM - slippageBps))
        let minVeOut := scaled / BPS_DENOM
        return some (if minVeOut = 0 then 1 else minVeOut)

/-- `_validateAutoCompoundDestination`: the effective duration, or why the
configuration is paused. -/
def validateAutoCompoundDestination (s : VeState) (nowTs : ℕ) (user : Address)
    (cfg : AutoCompoundConfig) : Except PauseReason ℕ :=
  let l := s.locks cfg.tokenId
  let lockEnd := effectiveLockEnd nowTs l
  let remaining := if lockEnd > nowTs then lockEnd - nowTs else 0
  if cfg.tokenId = 0 ∨ s.owners cfg.tokenId = 0 then .error .invalidTokenId
  else if s.owners cfg.tokenId ≠ user then .error .notOwner
  else if l.listed then .error .listed
  else if lockEnd ≤ nowTs then .error .expired
  else if !l.autoMax ∧ remaining < MIN_LOCK_DURATION then .error .expired
  else .ok (if l.autoMax then MAX_LOCK_DURATION else max cfg.durationSeconds remaining)

/-- The cadence has not elapsed since the last compound. -/
def tooSoon (nowTs : ℕ) (cfg : AutoCompoundConfig) : Bool :=
  cfg.lastCompoundTs ≠ 0 ∧ nowTs < cfg.lastCompoundTs + cfg.minCadenceSeconds

def belowMinimum (r : RoyaltiesState) (cfg : AutoCompoundConfig) (amount : ℕ) : Bool :=
  amount = 0 ∨ amount < max cfg.minEthToCompound r.minAutoCompoundEth

/-- The write of one user's configuration. -/
def setConfig (user : Address) (cfg : AutoCompoundConfig) (r : RoyaltiesState) : RoyaltiesState :=
  { r with autoCompoundConfig := update r.autoCompoundConfig user cfg }

/-- `cfg.paused = true`, with its event. -/
def pause (user : Address) (reason : PauseReason) (r : RoyaltiesState) : RoyaltiesState :=
  let cfg := r.autoCompoundConfig user
  (setConfig user { cfg with paused := true } r).emit
    (.ShareholderAutoCompoundPaused user cfg.tokenId reason)

/-- `ShareholderAutoCompoundFailed` for an amount below the minimum. -/
def reportBelowMinimum (user : Address) (amount : ℕ) (r : RoyaltiesState) : RoyaltiesState :=
  if amount ≠ 0 then
    r.emit (.ShareholderAutoCompoundFailed user amount (r.autoCompoundConfig user).tokenId)
  else r

/-- The stored balance is taken and the compound time stamped. -/
def beginCompound (user : Address) (amount : ℕ) (r : RoyaltiesState) :
    Except Error RoyaltiesState := do
  let taken ← takeStored user amount r
  return setConfig user
    { taken.autoCompoundConfig user with lastCompoundTs := call.timestamp % (UINT40_MAX + 1) } taken

def emitExecuted (executor user : Address) (amount tokenId duration : ℕ) (r : RoyaltiesState) :
    RoyaltiesState :=
  (r.emit (.ShareholderAutoCompoundExecuted user executor amount tokenId duration)).emit
    (.ShareholderClaim user .lockFurnace amount)

/-- `compoundFor` after the checkpoint. -/
def compoundStored (user : Address) (attempt : CompoundAttempt) : Except Error Worlds :=
  let r := w.royalties
  let cfg := r.autoCompoundConfig user
  let amount := r.claimableEthStored user
  if belowMinimum r cfg amount then
    .ok { w with royalties := reportBelowMinimum user amount r }
  else
    match validateAutoCompoundDestination w.ve call.timestamp user cfg with
    | .error reason => .ok { w with royalties := pause user reason r }
    | .ok duration => do
        let minVeOut ← computeMinVeOutForCompound attempt.quote cfg.maxSlippageBps
        revertIf (minVeOut = none) .CompoundQuoteFailed
        revertIf (!isReciprocallyWiredFurnace call w.ve r r.furnace) .WiringMismatch
        let royalties ← beginCompound call user amount r
        let w ← externalCall (attempt.callee.run call { w with royalties := royalties } amount)
        let royalties := emitExecuted call.sender user amount cfg.tokenId duration w.royalties
        return { w with royalties := royalties }

/-- `compoundFor`. -/
def compoundFor (user : Address) (attempt : CompoundAttempt) : Except Error Worlds := do
  requireAutoCompoundKeeper call w.royalties
  revertIf (user = 0) .ZeroAddress
  let cfg := w.royalties.autoCompoundConfig user
  revertIf (!cfg.enabled) .AutoCompoundNotEnabled
  revertIf (cfg.paused) .AutoCompoundPaused
  revertIf (tooSoon call.timestamp cfg) .CadenceNotMet
  let w ← checkpoint call w user
  compoundStored call w user attempt

inductive LockEthRewardAttemptResult
  | NotAttempted | Success | Failed
  deriving DecidableEq, Repr

/-- `_lockEthRewardBestEffort`. -/
def lockEthRewardBestEffort (attempt : CompoundAttempt) (amount : ℕ) :
    Worlds × LockEthRewardAttemptResult :=
  let r := w.royalties
  if !attempt.gasSuffices then (w, .NotAttempted)
  else if !r.batchWiringVerified ∧ !isReciprocallyWiredFurnace call w.ve r r.furnace then
    (w, .NotAttempted)
  else
    match attempt.callee.run call w amount with
    | some w => (w, .Success)
    | none => (w, .Failed)

/-- The restore of `_attemptLockWithRestore`; the consumed amounts of the other
two buckets are always zero. -/
def restoreStored (user : Address) (amount oldLast : ℕ) (r : RoyaltiesState) :
    Except Error RoyaltiesState := do
  let crystallised ← uint256 (r.totalCrystallisedStored + amount)
  let r := { r with
    claimableEthStored := update r.claimableEthStored user amount
    totalCrystallisedStored := crystallised }
  return setConfig user { r.autoCompoundConfig user with lastCompoundTs := oldLast } r

/-- `_attemptLockWithRestore`. -/
def attemptLockWithRestore (user : Address) (amount : ℕ) (attempt : CompoundAttempt) :
    Except Error (Worlds × LockEthRewardAttemptResult) := do
  let oldLast := (w.royalties.autoCompoundConfig user).lastCompoundTs
  let royalties ← beginCompound call user amount w.royalties
  let (w, result) := lockEthRewardBestEffort call { w with royalties := royalties } attempt amount
  if result = .Success then return (w, result)
  else
    let restored ← restoreStored user amount oldLast w.royalties
    return ({ w with royalties := restored }, result)

/-- `_compoundForUserInBatch` after the checkpoint; the flag says whether the
batch goes on. -/
def compoundStoredInBatch (executor user : Address) (attempt : CompoundAttempt) :
    Except Error (Worlds × Bool) :=
  let r := w.royalties
  let cfg := r.autoCompoundConfig user
  let amount := r.claimableEthStored user
  if belowMinimum r cfg amount then
    .ok ({ w with royalties := reportBelowMinimum user amount r }, true)
  else
    match validateAutoCompoundDestination w.ve call.timestamp user cfg with
    | .error reason => .ok ({ w with royalties := pause user reason r }, true)
    | .ok duration => do
        let minVeOut ← computeMinVeOutForCompound attempt.quote cfg.maxSlippageBps
        let failed := Event.ShareholderAutoCompoundFailed user amount cfg.tokenId
        if minVeOut = none then return ({ w with royalties := r.emit failed }, true)
        else
          let (w, result) ← attemptLockWithRestore call w user amount attempt
          match result with
          | .Success =>
              let royalties := emitExecuted executor user amount cfg.tokenId duration w.royalties
              return ({ w with royalties := royalties }, true)
          | .NotAttempted => return (w, false)
          | .Failed =>
              let royalties := (pause user .furnaceRevert w.royalties).emit failed
              return ({ w with royalties := royalties }, true)

/-- `_compoundForUserInBatch`. -/
def compoundForUserInBatch (executor user : Address) (attempt : CompoundAttempt) :
    Except Error (Worlds × Bool) :=
  let cfg := w.royalties.autoCompoundConfig user
  if user = 0 then .ok (w, true)
  else if !cfg.enabled ∨ cfg.paused then .ok (w, true)
  else if tooSoon call.timestamp cfg then .ok (w, true)
  else
    match checkpoint call w user with
    | .error _ => .ok ({ w with royalties := pause user .checkpointFailed w.royalties }, true)
    | .ok w => compoundStoredInBatch call w executor user attempt

/-- The loop of `compoundForMany` from position `i` of a batch of `n`. -/
def compoundLoop (attempts : ℕ → CompoundAttempt) (n : ℕ) :
    ℕ → List Address → Worlds → Except Error Worlds
  | _, [], w => .ok w
  | i, user :: users, w => do
      let (w, shouldContinue) ← compoundForUserInBatch call w call.sender user (attempts i)
      if shouldContinue then compoundLoop attempts n (i + 1) users w
      else return { w with royalties := w.royalties.emit (.ShareholderBatchTerminatedEarly i n) }

/-- `compoundForMany`. -/
def compoundForMany (users : List Address) (maxUsers : ℕ) (attempts : ℕ → CompoundAttempt) :
    Except Error Worlds := do
  requireAutoCompoundKeeper call w.royalties
  requireCanonicalBaronRuntimeBundle call w.ve w.royalties
  let n := min (min users.length maxUsers) MAX_SHAREHOLDER_COMPOUND_USERS_PER_CALL
  let w := { w with royalties := { w.royalties with batchWiringVerified := true } }
  let w ← compoundLoop call attempts n 0 (users.take n) w
  return { w with royalties := { w.royalties with batchWiringVerified := false } }

end ClaimRush.ShareholderRoyalties
