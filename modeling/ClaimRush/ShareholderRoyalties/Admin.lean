import ClaimRush.ShareholderRoyalties.Flush

/-!
# Configuration

Owner functions and auto-compound settings.  None of them is guarded against
re-entry, so an external callee may run them in the middle of a payout.
-/

open Function

namespace ClaimRush.ShareholderRoyalties

open Constants VeClaimNFT

variable (call : Call) (w : Worlds)

def requireOwner : Except Error Unit :=
  revertIf (call.sender ≠ w.royalties.owner) .OwnableUnauthorizedAccount

/-- The storage writes of `setWiring`. -/
def writeWiring (mineCore mineMarket furnace : Address) (r : RoyaltiesState) : RoyaltiesState :=
  { r with mineCore := mineCore, mineMarket := mineMarket, furnace := furnace }.emit
    (.ShareholderWiringSet mineCore mineMarket furnace)

/-- Pending ETH is flushed under the old wiring, if that is still canonical. -/
def flushBeforeRewiring (gasLoops : ℕ) : Except Error Worlds :=
  if w.royalties.pendingShareholderETH > 0 ∧
      isReciprocallyWiredFurnace call w.ve w.royalties w.royalties.furnace then
    flushPending call w true gasLoops
  else .ok w

/-- `setWiring`. -/
def setWiring (mineCore mineMarket furnace : Address) (gasLoops : ℕ) : Except Error Worlds := do
  requireOwner call w
  revertIf (w.royalties.configFrozen) .ConfigFrozen
  revertIf (mineCore = 0 ∨ mineMarket = 0 ∨ furnace = 0) .ZeroAddress
  revertIf (call.codeLength mineCore = 0 ∨ call.codeLength mineMarket = 0 ∨
    call.codeLength furnace = 0) .NotAContract
  revertIf (call.delegatedEOA mineCore ∨ call.delegatedEOA mineMarket ∨
    call.delegatedEOA furnace) .DelegatedEOA
  let w ← flushBeforeRewiring call w gasLoops
  revertIf (w.royalties.pendingShareholderETH > 0) .PendingEthNotDrained
  let furnaceSR := call.staticcallAddress furnace .shareholderRoyalties
  revertIf (furnaceSR ≠ 0 ∧ furnaceSR ≠ w.royalties.self) .WiringMismatch
  return { w with royalties := writeWiring mineCore mineMarket furnace w.royalties }

/-- `freezeConfig`. -/
def freezeConfig : Except Error Worlds := do
  let r := w.royalties
  requireOwner call w
  revertIf (r.configFrozen) .ConfigFrozen
  revertIf (r.mineCore = 0 ∨ r.mineMarket = 0 ∨ r.furnace = 0 ∨ r.claimAllHelper = 0) .ZeroAddress
  revertIf (call.codeLength r.claimAllHelper = 0) .NotAContract
  revertIf (call.staticcallAddress r.claimAllHelper .royalties ≠ r.self ∨
    call.staticcallAddress r.claimAllHelper .mineCore ≠ r.mineCore ∨
    call.staticcallAddress r.mineCore .claimAllHelper ≠ r.claimAllHelper) .WiringMismatch
  requireCanonicalBaronRuntimeBundle call w.ve r
  return { w with royalties := { r with configFrozen := true }.emit .ConfigFrozen }

/-- `setClaimAllHelper`. -/
def setClaimAllHelper (helper : Address) : Except Error Worlds := do
  let r := w.royalties
  requireOwner call w
  revertIf (r.configFrozen) .ConfigFrozen
  revertIf (helper = 0) .ZeroAddress
  revertIf (call.codeLength helper = 0) .NotAContract
  revertIf (call.delegatedEOA helper) .DelegatedEOA
  let r := { r with claimAllHelper := helper }.emit (.ClaimAllHelperChanged r.claimAllHelper helper)
  return { w with royalties := r }

/-- `setAutoCompoundKeeper`. -/
def setAutoCompoundKeeper (keeper : Address) (allowed : Bool) : Except Error Worlds := do
  let r := w.royalties
  requireOwner call w
  revertIf (keeper = 0) .ZeroAddress
  revertIf (allowed ∧ call.delegatedEOA keeper) .DelegatedEOA
  let r := { r with isAutoCompoundKeeper := update r.isAutoCompoundKeeper keeper allowed }
  return { w with royalties := r.emit (.ShareholderAutoCompoundKeeperSet keeper allowed) }

/-- `setMinAutoCompoundEth`. -/
def setMinAutoCompoundEth (floor : ℕ) : Except Error Worlds := do
  let r := w.royalties
  requireOwner call w
  let old := r.minAutoCompoundEth
  let r := { r with minAutoCompoundEth := floor }
  return { w with royalties := r.emit (.MinAutoCompoundEthSet old floor) }

/-! ## Watermark of the overflow ring -/

/-- A write of the watermark with its event. -/
def setWatermark (newValue : ℕ) (r : RoyaltiesState) : RoyaltiesState :=
  { r with oldestObservedNonAutoMaxLockEnd := newValue }.emit
    (.OldestObservedNonAutoMaxLockEndSet r.oldestObservedNonAutoMaxLockEnd newValue)

/-- `forceSetOldestObservedNonAutoMaxLockEnd`. -/
def forceSetOldestObservedNonAutoMaxLockEnd (newValue : ℕ) : Except Error Worlds := do
  requireOwner call w
  revertIf (newValue = 0) .AmountZero
  let old := w.royalties.oldestObservedNonAutoMaxLockEnd
  revertIf (newValue < old) .InvariantViolation
  if newValue = old then return w
  else return { w with royalties := setWatermark newValue w.royalties }

/-- `seedWatermarkOnUpgrade`. -/
def seedWatermarkOnUpgrade : Except Error Worlds := do
  requireOwner call w
  if w.royalties.oldestObservedNonAutoMaxLockEnd ≠ 0 then return w
  else return { w with royalties := setWatermark UINT40_MAX w.royalties }

/-- `_refreshUserObservedMin`. -/
def refreshUserObservedMin (s : VeState) (user : Address) (r : RoyaltiesState) : RoyaltiesState :=
  { r with userObservedMinNonAutoMaxLockEnd :=
      update r.userObservedMinNonAutoMaxLockEnd user (computeUserObservedMin s user) }

/-- The loop of `_recomputeGlobalWatermark`: the refreshed storage, the smallest
concrete observation, and whether there was one. -/
def refreshCandidates (s : VeState) :
    List Address → RoyaltiesState → ℕ → Bool → RoyaltiesState × ℕ × Bool
  | [], r, minObserved, anyConcrete => (r, minObserved, anyConcrete)
  | u :: us, r, minObserved, anyConcrete =>
      if u = 0 then refreshCandidates s us r minObserved anyConcrete
      else
        let r := refreshUserObservedMin s u r
        let v := r.userObservedMinNonAutoMaxLockEnd u
        if v ≠ 0 ∧ v ≠ UINT40_MAX then
          refreshCandidates s us r (if v < minObserved then v else minObserved) true
        else refreshCandidates s us r minObserved anyConcrete

/-- `recomputeGlobalWatermark(candidates, exhaustive)`. -/
def recomputeGlobalWatermark (candidates : List Address) (exhaustive : Bool) :
    Except Error Worlds := do
  requireOwner call w
  revertIf (candidates.length > MAX_WATERMARK_RECOMPUTE_CANDIDATES) .AmountTooLarge
  let (r, minObserved, anyConcrete) :=
    refreshCandidates w.ve candidates w.royalties UINT40_MAX false
  let current := r.oldestObservedNonAutoMaxLockEnd
  if !anyConcrete then
    return { w with royalties :=
      if exhaustive ∧ current ≠ UINT40_MAX then setWatermark UINT40_MAX r else r }
  else
    return { w with royalties := if minObserved > current then setWatermark minObserved r else r }

/-! ## Auto-compound settings -/

/-- The end that `getLockInfo` reports. -/
def effectiveLockEnd (nowTs : ℕ) (l : Lock) : ℕ :=
  if l.autoMax ∧ l.amount ≠ 0 then nowTs + MAX_LOCK_DURATION else l.lockEnd

/-- `_setAutoCompoundConfig`. -/
def setAutoCompoundConfigOf (user : Address) (cfg : AutoCompoundConfig) : Except Error Worlds := do
  let r := w.royalties
  if !cfg.enabled then
    let r := { r with autoCompoundConfig := update r.autoCompoundConfig user {} }
    return { w with royalties := r.emit (.ShareholderAutoCompoundConfigured user {}) }
  else
    revertIf (cfg.tokenId = 0) .InvalidToken
    revertIf (cfg.durationSeconds < MIN_LOCK_DURATION ∨ cfg.durationSeconds > MAX_LOCK_DURATION)
      .InvalidDuration
    revertIf (w.ve.owners cfg.tokenId = 0) .InvalidToken
    revertIf (w.ve.owners cfg.tokenId ≠ user) .NotAuthorized
    let l := w.ve.locks cfg.tokenId
    revertIf (l.listed) .LockListedOrFrozen
    revertIf (effectiveLockEnd call.timestamp l ≤ call.timestamp) .LockExpired
    revertIf (l.autoMax ∧ cfg.durationSeconds ≠ MAX_LOCK_DURATION) .InvalidDuration
    revertIf (cfg.maxSlippageBps > MAX_AUTOCOMPOUND_SLIPPAGE_BPS) .SlippageTooHigh
    revertIf (cfg.maxSlippageBps ≥ BPS_DENOM) .SlippageTooHigh
    let cfg := { cfg with
      paused := false, lastCompoundTs := (r.autoCompoundConfig user).lastCompoundTs }
    let r := { r with autoCompoundConfig := update r.autoCompoundConfig user cfg }
    return { w with royalties := r.emit (.ShareholderAutoCompoundConfigured user cfg) }

/-- `setAutoCompoundConfig`. -/
def setAutoCompoundConfig (cfg : AutoCompoundConfig) : Except Error Worlds :=
  setAutoCompoundConfigOf call w call.sender cfg

/-- `DelegationPermissions.P_SET_SHAREHOLDER_AUTOCOMPOUND_CONFIG_FOR`. -/
def P_SET_SHAREHOLDER_AUTOCOMPOUND_CONFIG_FOR : ℕ := 2 ^ 16

/-- `DelegationActionTypes.SHAREHOLDER_SET_AUTOCOMPOUND_CONFIG_FOR`. -/
def SHAREHOLDER_SET_AUTOCOMPOUND_CONFIG_FOR : ℕ := 41

/-- `setAutoCompoundConfigForUser`. -/
def setAutoCompoundConfigForUser (user : Address) (cfg : AutoCompoundConfig) :
    Except Error Worlds := do
  revertIf (user = 0) .ZeroAddress
  requireDelegated call w.ve w.royalties user P_SET_SHAREHOLDER_AUTOCOMPOUND_CONFIG_FOR
  let w ← setAutoCompoundConfigOf call w user cfg
  let refId := if cfg.enabled then cfg.tokenId else 0
  let r := w.royalties.emit (.DelegationSessionUsed user call.sender
    SHAREHOLDER_SET_AUTOCOMPOUND_CONFIG_FOR P_SET_SHAREHOLDER_AUTOCOMPOUND_CONFIG_FOR refId
    call.timestamp)
  return { w with royalties := r }

end ClaimRush.ShareholderRoyalties
