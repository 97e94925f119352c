import ClaimRush.VeClaimNFT.State
import ClaimRush.Lib.MulDiv

/-!
# Global checkpoints and deltas

The internal functions that move the accumulators: the capped checkpoint, the
decay of the bias, and the signed deltas of a lock mutation.
-/

open Function

namespace ClaimRush.VeClaimNFT

open Constants

/-- Slope on add paths, rounded up. -/
def slopeScaledAdd (amount : ℕ) : Except Error ℕ :=
  mulDivCeil amount SLOPE_SCALE MAX_LOCK_DURATION

/-- Slope on remove paths, rounded down. -/
def slopeScaledRemove (amount : ℕ) : Except Error ℕ :=
  mulDiv amount SLOPE_SCALE MAX_LOCK_DURATION

def remainingAt (lockEnd t : ℕ) : ℕ := if lockEnd > t then lockEnd - t else 0

namespace GlobalState

variable (g : GlobalState)

def heapMin : ℕ := g.slopeTimes.min?.getD 0

def heapInsert (t : ℕ) : Except Error GlobalState := do
  revertIf (t = 0) .InvariantViolation
  return { g with slopeTimes := g.slopeTimes.insert t }

def heapRemove (t : ℕ) : GlobalState := { g with slopeTimes := g.slopeTimes.remove t }

def heapPopMin : GlobalState :=
  match g.slopeTimes.min? with
  | none => g
  | some minTime => g.heapRemove minTime

def syncTotalVeCached : GlobalState :=
  { g with totalVeCached := ceilDiv g.globalBiasScaled SLOPE_SCALE }

/-- Overflow-safe decay of the bias by `dt` seconds of the current slope. -/
def applyDecayToBias (dt : ℕ) : GlobalState :=
  let slope := g.globalSlopeScaled
  let bias := g.globalBiasScaled
  if slope = 0 then g
  else if dt ≥ ceilDiv bias slope then { g with globalBiasScaled := 0 }
  else if dt > (uint256Bound - 1) / slope then { g with globalBiasScaled := 0 }
  else
    let decay := slope * dt
    { g with globalBiasScaled := if decay ≥ bias then 0 else bias - decay }

/-- Remove the slope scheduled at `time`, clamping the total at zero. -/
def applyScheduledChange (time : ℕ) : GlobalState × List Event :=
  let sc := g.slopeChanges time
  if sc = 0 then (g, [])
  else
    let cleared := update g.slopeChanges time 0
    if sc ≥ g.globalSlopeScaled then
      ({ g with globalSlopeScaled := 0, slopeChanges := cleared },
        [.SlopeDriftClamped time sc g.globalSlopeScaled])
    else
      ({ g with
          globalSlopeScaled := g.globalSlopeScaled - sc
          slopeChanges := cleared }, [])

/-- The `while` loop of `_checkpointGlobalStateInternal`; `budget` is what is
left of the per-call cap and `t` the last processed time. -/
def checkpointLoop (nowTs : ℕ) :
    ℕ → GlobalState → ℕ → List Event → Except Error (GlobalState × ℕ × List Event)
  | 0, g, t, log => .ok (g, t, log)
  | budget + 1, g, t, log =>
      let nextTime := g.heapMin
      if nextTime = 0 ∨ nextTime > nowTs then .ok (g, t, log)
      else do
        let dt ← usub nextTime t
        let g := if dt > 0 then g.applyDecayToBias dt else g
        let (g, clamped) := g.applyScheduledChange nextTime
        checkpointLoop nowTs budget g.heapPopMin nextTime (log ++ clamped)

/-- `_checkpointGlobalStateInternal` at block time `nowTs`. -/
def checkpointGlobalStateInternal (nowTs : ℕ) : Except Error (GlobalState × List Event) := do
  let t := if g.globalLastTs = 0 then nowTs else g.globalLastTs
  let (g, t, log) ← checkpointLoop nowTs MAX_SLOPE_CHANGES_PER_CALL g t []
  let head := g.heapMin
  if head = 0 ∨ head > nowTs then
    let dt2 ← usub nowTs t
    let g := if dt2 > 0 then g.applyDecayToBias dt2 else g
    return ({ g with globalLastTs := nowTs }.syncTotalVeCached, log)
  else
    return ({ g with globalLastTs := t }.syncTotalVeCached, log)

/-- A signed delta on an unsigned accumulator; a zero delta leaves it alone, and
underflow is an invariant violation. -/
def addSigned (cur : ℕ) (delta : ℤ) : Except Error ℕ :=
  if 0 < delta then uint256 (cur + delta.toNat)
  else do
    revertIf (delta = -(int256Bound : ℤ)) .InvariantViolation
    revertIf ((-delta).toNat > cur) .InvariantViolation
    return cur - (-delta).toNat

def applyGlobalDelta (dSlope dBias : ℤ) : Except Error GlobalState := do
  let slope ← addSigned g.globalSlopeScaled dSlope
  let g := { g with globalSlopeScaled := slope }
  if dBias = 0 then return g
  else
    let bias ← addSigned g.globalBiasScaled dBias
    return { g with globalBiasScaled := bias }.syncTotalVeCached

def applySlopeChangeDelta (time : ℕ) (deltaSlope : ℤ) : Except Error GlobalState :=
  if deltaSlope = 0 then .ok g
  else do
    let next ← addSigned (g.slopeChanges time) deltaSlope
    let g := { g with slopeChanges := update g.slopeChanges time next }
    if next = 0 then
      return if g.slopeTimes.index time ≠ 0 then g.heapRemove time else g
    else if g.slopeTimes.index time = 0 then g.heapInsert time
    else return g

end GlobalState

namespace VeState

variable (s : VeState)

/-- Run the checkpoint on the contract storage. -/
def checkpointGlobalStateInternal (nowTs : ℕ) : Except Error VeState := do
  let (g, log) ← s.global.checkpointGlobalStateInternal nowTs
  return { s with global := g, events := s.events ++ log }

def applyGlobalDelta (dSlope dBias : ℤ) : Except Error VeState := do
  return { s with global := ← s.global.applyGlobalDelta dSlope dBias }

def applySlopeChangeDelta (time : ℕ) (deltaSlope : ℤ) : Except Error VeState := do
  return { s with global := ← s.global.applySlopeChangeDelta time deltaSlope }

end VeState

end ClaimRush.VeClaimNFT
