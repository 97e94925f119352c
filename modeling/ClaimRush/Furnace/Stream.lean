import ClaimRush.Furnace.GuardHelper

/-!
# The LP stream and the reserve

Accrual, funding and settlement of the stream of LP rewards, the overflow drip
that feeds it from an excess reserve, and the synchronisation of the reserve
with the CLAIM the Furnace holds.
-/

namespace ClaimRush.Furnace

open Constants

variable {S : Type} (call : Call) (w : World S)

/-- `_notifyLpRewardsVaultBestEffort`: only the log shows the outcome here. -/
def notifyLpRewardsVaultBestEffort (f : FurnaceState) (vault : Address) (amount : ℕ) :
    FurnaceState :=
  if call.notifyRewards vault amount then f else f.emit (.LpRewardsNotifyFailed vault amount)

/-- `_settleMaturedLpCarry`: best-effort payment of the carry of a stream without
a schedule. -/
def settleMaturedLpCarry (vault : Address) : World S :=
  let carry := w.furnace.stream.carry
  if vault = 0 ∨ carry = 0 then w
  else if w.furnace.stream.rate ≠ 0 ∨ w.furnace.stream.finish ≠ 0 then w
  else
    match w.claim.transfer w.furnace.self vault carry with
    | .ok claim =>
        let f := { w.furnace with
          stream := { w.furnace.stream with carry := 0 }
          ghost := { w.furnace.ghost with streamed := w.furnace.ghost.streamed + carry } }
        { w.withClaim claim with furnace := notifyLpRewardsVaultBestEffort call f vault carry }
    | .error _ => w.emit (.CarrySettlementFailed vault carry)

/-- `_accrueLpStream`: pay the vault what the stream owes it. -/
def accrueLpStream : Except Error (World S × ℕ) :=
  let vault := w.furnace.lpRewardsVault
  let s := w.furnace.stream
  if vault = 0 then .ok (w, 0)
  else if s.rate = 0 ∨ s.finish = 0 then
    .ok ({ w with furnace := { w.furnace with stream := { s with last := call.timestamp } } }, 0)
  else if call.timestamp ≤ s.last then .ok (w, 0)
  else
    let t := if call.timestamp < s.finish then call.timestamp else s.finish
    if t ≤ s.last then .ok (w, 0)
    else do
      let streamed ← uint256 ((t - s.last) * s.rate)
      let f := { w.furnace with
        stream := { s with last := t }
        ghost := { w.furnace.ghost with streamed := w.furnace.ghost.streamed + streamed } }
      let claim ← w.claim.transfer f.self vault streamed
      let f := notifyLpRewardsVaultBestEffort call f vault streamed
      let f := if t ≥ s.finish then { f with stream := { f.stream with rate := 0, finish := 0 } }
        else f
      return ({ w.withClaim claim with furnace := f }, streamed)

/-- `computeStreamSchedule`. -/
def computeStreamSchedule (amount : ℕ) (s : LinearStream) (nowTs : ℕ) :
    Except Error LinearStream := do
  let remaining := if s.finish > nowTs ∧ s.rate ≠ 0 then (s.finish - nowTs) * s.rate else 0
  let total ← uint256 (remaining + amount + s.carry)
  return { rate := total / LP_STREAM_WINDOW
           finish := nowTs + LP_STREAM_WINDOW
           last := nowTs
           carry := total % LP_STREAM_WINDOW }

/-- `_fundLpStreamInternal(amount, false)`: every caller has accrued before. -/
def fundLpStreamInternal (f : FurnaceState) (amount : ℕ) : Except Error FurnaceState :=
  if amount = 0 ∧ f.stream.carry = 0 then .ok f
  else if f.lpRewardsVault = 0 then .ok f
  else do
    let s ← computeStreamSchedule amount f.stream call.timestamp
    let f := { f with
      stream := s
      ghost := { f.ghost with
        funded := f.ghost.funded + amount
        fundedAt := call.timestamp } }
    return f.emit (.LpStreamFunded amount s.rate s.finish)

/-- The part of `_accrueLpOverflowDrip` after the stream has accrued.  The event
is emitted by a delegatecall that is not payable. -/
def overflowDrip (f : FurnaceState) : Except Error FurnaceState :=
  let last := f.lastLpOverflowDripUpdate
  if call.timestamp ≤ last then .ok f
  else
    let f := { f with lastLpOverflowDripUpdate := call.timestamp }
    let reserveBefore := f.furnaceReserve
    if f.lpRewardsVault = 0 then .ok f
    else if reserveBefore ≤ RESERVE_TARGET_FINAL then .ok f
    else do
      let p ← previewOverflowDrip call f.mineCore f.deploymentTime reserveBefore
      if p.perDay = 0 then return f
      else
        let accrued ← uint256 (p.perDay * (call.timestamp - last))
        if accrued / DAY = 0 then return f
        else
          let maxSpend := reserveBefore - RESERVE_TARGET_FINAL
          let dripped := if accrued / DAY > maxSpend then maxSpend else accrued / DAY
          let f ← fundLpStreamInternal call { f with furnaceReserve := reserveBefore - dripped }
            dripped
          revertIf (call.value ≠ 0) .InvariantViolation
          return f.emit (.LpOverflowDripPaid dripped reserveBefore (reserveBefore - dripped)
            p.alphaBps p.gateBps p.capInflowPerDay LP_OVERFLOW_DRIP_FIXED_CAP_PER_DAY
            RESERVE_TARGET_FINAL maxSpend)

/-- `_accrueLpOverflowDrip`. -/
def accrueLpOverflowDrip : Except Error (World S × ℕ) := do
  let (w, streamed) ← accrueLpStream call w
  let f ← overflowDrip call w.furnace
  return ({ w with furnace := f }, streamed)

/-- `_syncFurnaceReserve`: clamp the reserve to the CLAIM that is not owed to the
stream. -/
def syncFurnaceReserve : World S :=
  let liability := w.furnace.stream.liability
  let bal := w.claimBalance
  let cap := if bal > liability then bal - liability else 0
  let old := w.furnace.furnaceReserve
  if old > cap then
    let f := { w.furnace with furnaceReserve := cap }
    { w with furnace := f.emit (.ReserveClamped call.sender old cap bal liability) }
  else w

/-- `tick`. -/
def tick : Except Error (World S) := do
  let (w, _) ← accrueLpOverflowDrip call w
  let f := w.furnace
  let f ←
    if f.stream.carry > 0 ∧ f.stream.rate = 0 ∧ f.lpRewardsVault ≠ 0 then
      fundLpStreamInternal call f 0
    else pure f
  return syncFurnaceReserve call { w with furnace := f }

/-- `creditReserve`. -/
def creditReserve (amount : ℕ) : Except Error (World S) := do
  revertIf (call.sender ≠ w.furnace.mineCore) .OnlyMineCore
  let (w, _) ← accrueLpOverflowDrip call w
  if amount = 0 then return w
  else
    let reserve ← uint256 (w.furnace.furnaceReserve + amount)
    let f := { w.furnace with furnaceReserve := reserve }
    let w := syncFurnaceReserve call { w with furnace := f }
    return w.emit (.ReserveCredited amount w.furnace.furnaceReserve)

end ClaimRush.Furnace
