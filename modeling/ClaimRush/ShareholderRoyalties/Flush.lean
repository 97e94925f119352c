import ClaimRush.ShareholderRoyalties.Accrual
import ClaimRush.VeClaimNFT.Locks

/-!
# Receipts and flushes

A flush brings the lock contract up to the block time and divides the pending
ETH by the total bias.  What the division cannot distribute stays pending.
-/

namespace ClaimRush.ShareholderRoyalties

open Constants VeClaimNFT

/-- The lock contract, the royalties contract and the CLAIM token. -/
abbrev Worlds := World RoyaltiesState

namespace RoyaltiesState

variable (r : RoyaltiesState)

/-- The writes of a flush that advances the index by `delta`. -/
def advanceIndex (rewardTs totalWeight delta : ℕ) : Except Error RoyaltiesState := do
  let ethPerVe ← uint256 (r.ethPerVe + delta)
  let product ← uint256 (delta * rewardTs)
  let ethPerVeTimeWeighted ← uint256 (r.ethPerVeTimeWeighted + product)
  let r ← { r with
    ethPerVe := ethPerVe
    ethPerVeTimeWeighted := ethPerVeTimeWeighted }.storeRewardCheckpoint rewardTs
  let distributed ← mulDiv delta totalWeight SHAREHOLDER_ACC
  let pending ← usub r.pendingShareholderETH distributed
  let owed ← uint256 (r.indexedEthOwed + distributed)
  return { r with
    pendingShareholderETH := pending
    indexedEthOwed := owed }.emit (.ShareholderFlush distributed delta)

/-- `_flushPendingShareholderETH` after the checkpoints of the lock contract. -/
def indexPending (s : VeState) (nowTs : ℕ) (bypassMinVeFlush : Bool) :
    Except Error RoyaltiesState :=
  let rewardTs := s.global.globalLastTs
  let totalWeight := s.global.globalBiasScaled
  if rewardTs ≠ nowTs then .ok r
  else if totalWeight = 0 then .ok r
  else if !bypassMinVeFlush ∧ ceilDiv totalWeight SHAREHOLDER_WEIGHT_SCALE < MIN_VE_FLUSH then
    .ok r
  else do
    revertIf (rewardTs > UINT40_MAX) .InvariantViolation
    if !r.canStoreRewardCheckpoint rewardTs then return r
    else
      let delta ← mulDiv r.pendingShareholderETH SHAREHOLDER_ACC totalWeight
      let headroom := uint256Bound - 1 - r.ethPerVe
      let delta := if delta > headroom then headroom else delta
      if delta = 0 then return r
      else r.advanceIndex rewardTs totalWeight delta

end RoyaltiesState

section Flush

variable (call : Call) (w : Worlds)

/-- The bounded loop over `ve.checkpointTotalVe()`. -/
def checkpointLoops (nowTs : ℕ) : ℕ → VeState → Except Error VeState
  | 0, s => .ok s
  | loops + 1, s =>
      if s.global.globalLastTs = nowTs then .ok s
      else do
        let s ← s.checkpointGlobalStateInternal nowTs
        checkpointLoops nowTs loops s

/-- `_flushPendingShareholderETH`; the gas allows `gasLoops` checkpoints. -/
def flushPending (bypassMinVeFlush : Bool) (gasLoops : ℕ) : Except Error Worlds :=
  if w.royalties.pendingShareholderETH = 0 then .ok w
  else do
    let ve ← checkpointLoops call.timestamp (min gasLoops 10) w.ve
    let royalties ← w.royalties.indexPending ve call.timestamp bypassMinVeFlush
    return { w with ve := ve, royalties := royalties }

/-- ETH of an accounted receipt arrives and waits. -/
def receivePending (reignId value : ℕ) (r : RoyaltiesState) : Except Error RoyaltiesState := do
  let pending ← uint256 (r.pendingShareholderETH + value)
  return { r with
    balance := r.balance + value
    pendingShareholderETH := pending }.emit (.ShareholderTakeoverAllocation reignId value)

/-- `onTakeover`, with `value` the ETH sent along. -/
def onTakeover (reignId value gasLoops : ℕ) : Except Error Worlds := do
  revertIf (call.sender ≠ w.royalties.mineCore) .OnlyMineCore
  if value = 0 then
    return { w with royalties := w.royalties.emit (.ShareholderTakeoverAllocation reignId 0) }
  else
    requireCanonicalBaronRuntimeBundle call w.ve w.royalties
    let royalties ← receivePending reignId value w.royalties
    flushPending call { w with royalties := royalties } true gasLoops

/-- `addPendingShareholderETH`: the same receipt, for MineCore's retry. -/
def addPendingShareholderETH (reignId value gasLoops : ℕ) : Except Error Worlds :=
  onTakeover call w reignId value gasLoops

/-- `flushPendingShareholderETH`. -/
def flushPendingShareholderETH (gasLoops : ℕ) : Except Error Worlds :=
  if w.royalties.pendingShareholderETH = 0 then .ok w
  else do
    requireCanonicalBaronRuntimeBundle call w.ve w.royalties
    flushPending call w false gasLoops

end Flush

end ClaimRush.ShareholderRoyalties
