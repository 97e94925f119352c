import ClaimRush.Furnace.Stream
import ClaimRush.Furnace.Quoter

/-!
# The bonus AMM

A deposit of effective principal `P` takes `R * P / (V + P)` out of the reserve
`R`, where the virtual depth `V` is at least the target set by the spot rate and
grows by `P`.  The LP share of the bonus goes into the stream.
-/

namespace ClaimRush.Furnace

open Constants

variable {S : Type} (call : Call) (w : World S)

/-- What the AMM reads at a reserve `reserveBefore`: the spot rate, the LP rate,
the gross rate and the effective depth. -/
def bonusRates (reserveBefore : ℕ) : ℕ × BonusAmmRates :=
  let f := w.furnace
  let lockedSupply := w.ve.totalLockedClaim
  let elapsed := timeSinceLaunch call f.mineCore f.deploymentTime
  let totalSupply := w.claim.totalSupply
  let userSpotBps := Quoter.userSpotBonusBps lockedSupply totalSupply reserveBefore elapsed
  let lpScaleBps := Quoter.lpScaleBps lockedSupply totalSupply reserveBefore elapsed
  (userSpotBps,
    computeBonusAmmRates (f.lpRewardsVault ≠ 0) reserveBefore f.bonusVirtualDepth f.lastBonusUpdate
      userSpotBps lpScaleBps call.timestamp)

/-- `_bonusAmmComputeAndUpdate`. -/
def bonusAmmComputeAndUpdate (user : Address) (principalClaim principalEff lockDurationSec : ℕ) :
    Except Error (World S × BonusAmmFrame) := do
  revertIf (w.furnace.furnaceQuoter = 0) .ZeroAddress
  let reserveBefore := w.furnace.furnaceReserve
  let frame : BonusAmmFrame :=
    { user := user, principalClaim := principalClaim, principalEff := principalEff
      lockDurationSec := lockDurationSec, reserveBefore := reserveBefore }
  if reserveBefore = 0 then return (w, frame)
  else
    let (userSpotBps, r) := bonusRates call w reserveBefore
    let p := computeBonusAmmPayout reserveBefore principalEff userSpotBps r
    let frame := { frame with
      userSpotBps := userSpotBps, lpRateBps := r.lpRateBps, grossSpotBps := r.grossSpotBps
      virtualDepthBefore := r.virtualDepth, grossBonus := p.grossBonus
      quoteUserBps := p.quoteUserBps, quoteLpBps := p.quoteLpBps }
    if r.grossSpotBps = 0 then return (w, frame)
    else
      revertIf (reserveBefore < p.grossBonus) .InvariantViolation
      let f := { w.furnace with
        lastBonusUpdate := call.timestamp
        furnaceReserve := reserveBefore - p.grossBonus
        bonusVirtualDepth := r.virtualDepth + principalEff }
      return ({ w with furnace := f }, frame)

/-- `_bonusAmmSplitAndRoute`. -/
def bonusAmmSplitAndRoute (f : FurnaceState) (frame : BonusAmmFrame) :
    Except Error (FurnaceState × BonusAmmFrame) := do
  let (userBonus, lpBonus) := splitBonusAmm frame.grossBonus frame.lpRateBps
  let f ← if lpBonus ≠ 0 then fundLpStreamInternal call f lpBonus else pure f
  return (f, { frame with userBonus := userBonus, lpBonus := lpBonus })

/-- `_bonusAmmEmit`. -/
def bonusAmmEmit (f : FurnaceState) (frame : BonusAmmFrame) : FurnaceState :=
  if frame.grossBonus = 0 then f
  else f.emit (.BonusPaid frame f.furnaceReserve f.bonusVirtualDepth)

/-- The gross, user and LP bonus of one call. -/
structure Bonus where
  gross : ℕ
  user : ℕ
  lp : ℕ
  deriving DecidableEq, Repr

/-- `_applyBonusAmm` after the drip has accrued. -/
def bonusAmm (user : Address) (principalClaim principalEff lockDurationSec : ℕ) :
    Except Error (World S × Bonus) :=
  if principalEff = 0 then .ok (w, ⟨0, 0, 0⟩)
  else do
    let (w, frame) ←
      bonusAmmComputeAndUpdate call w user principalClaim principalEff lockDurationSec
    if frame.grossSpotBps = 0 then return (w, ⟨0, 0, 0⟩)
    else
      let (f, frame) ← bonusAmmSplitAndRoute call w.furnace frame
      return ({ w with furnace := bonusAmmEmit f frame },
        ⟨frame.grossBonus, frame.userBonus, frame.lpBonus⟩)

/-- `_applyBonusAmm`. -/
def applyBonusAmm (user : Address) (principalClaim principalEff lockDurationSec : ℕ) :
    Except Error (World S × Bonus) := do
  let (w, _) ← accrueLpOverflowDrip call w
  bonusAmm call w user principalClaim principalEff lockDurationSec

end ClaimRush.Furnace
