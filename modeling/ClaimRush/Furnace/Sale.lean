import ClaimRush.Furnace.Entry

/-!
# Sales to the Furnace

The market moves a lock into the custody of the Furnace, which burns it, pays
the quoted part of the principal to the seller, and splits the rest between the
LP stream and the reserve.
-/

open Function

namespace ClaimRush.Furnace

open Constants

variable {S : Type} (port : VeClaimNFT.IShareholderRoyalties S) (call : Call) (w : World S)

/-- `onERC721Received`, called by `sender` for a transfer by `operator`: the
observed seller is recorded. -/
def onERC721Received (sender operator src : Address) (tokenId : ℕ) : Except Error (World S) := do
  revertIf w.furnace.lockingPaused .LockingPaused
  revertIf (sender ≠ w.ve.self) .NotAuthorized
  revertIf (operator ≠ w.furnace.mineMarket) .NotAuthorized
  requireCanonicalMineMarket call w
  revertIf (src = 0) .NotAuthorized
  revertIf (src = w.furnace.self) .NotAuthorized
  let (_, lockEnd, _, _) := w.ve.getLockInfo call.timestamp tokenId
  revertIf (lockEnd ≤ call.timestamp) .LockExpired
  let f := { w.furnace with pendingSellSeller := update w.furnace.pendingSellSeller tokenId src }
  return { w with furnace := f }

structure SellExecutionData where
  claimOut : ℕ
  spreadBps : ℕ
  lpSaleShareBps : ℕ
  lpReward : ℕ
  reserveAdd : ℕ
  bonusBpsUsed : ℕ
  deriving DecidableEq, Repr

/-- `_quoteSellLockForExecution`: a failed quote is reported as such. -/
def quoteSellLockForExecution (lockAmount lockEnd : ℕ) (autoMax : Bool) :
    Except Error Quoter.SellExecutionQuote :=
  if w.furnace.furnaceQuoter = 0 then .error .ZeroAddress
  else
    match Quoter.quoteSellLockForExecution call w lockAmount lockEnd autoMax with
    | .ok q => .ok q
    | .error _ => .error .QuoteCallFailed

/-- `normalizeSellExecutionQuote`: the figures of the sale and the cut. -/
def normalizeSellExecutionQuote (lockAmount lockEnd : ℕ) (autoMax : Bool)
    (minClaimOut reserveNow : ℕ) : Except Error (SellExecutionData × ℕ) := do
  let raw ← quoteSellLockForExecution call w lockAmount lockEnd autoMax
  let claimOut := raw.claimOut
  revertIf (claimOut = 0) .AmountZero
  revertIf (claimOut < minClaimOut) .SlippageTooHigh
  revertIf (claimOut > lockAmount) .InvariantViolation
  let sum ← uint256 (raw.claimOut + raw.lpReward + raw.reserveAdd)
  revertIf (sum > lockAmount) .InvariantViolation
  let cut := lockAmount - claimOut
  revertIf (raw.reserveBefore ≠ reserveNow) .InvariantViolation
  let rest ← usub cut (raw.lpReward + raw.reserveAdd)
  let reserveAdd := raw.reserveAdd + rest
  let f := w.furnace
  let capRemaining ←
    lpSaleRewardCapRemaining call f.mineCore f.lpSaleFundedDay f.lpSaleFundedToday
  let overCap := raw.lpReward - capRemaining
  let lpReward := min raw.lpReward capRemaining
  return ({ claimOut := claimOut
            spreadBps := raw.spreadBps
            lpSaleShareBps := if cut > 0 ∧ lpReward > 0 then lpReward * BPS_DENOM / cut else 0
            lpReward := lpReward
            reserveAdd := reserveAdd + overCap
            bonusBpsUsed := raw.bonusBpsUsed }, cut)

/-- `_accrueSellImpactVolume`. -/
def accrueSellImpactVolume (f : FurnaceState) (addAmount : ℕ) : Except Error FurnaceState := do
  let volAfter ←
    uint256 (decayedSellImpactVolume call f.sellImpactVolume f.lastSellImpactUpdate + addAmount)
  return { f with sellImpactVolume := volAfter, lastSellImpactUpdate := call.timestamp }

/-- `_trackLpSaleRewardFunding`. -/
def trackLpSaleRewardFunding (f : FurnaceState) (amount : ℕ) : Except Error FurnaceState :=
  if amount = 0 then .ok f
  else do
    let day := call.timestamp / DAY
    let f :=
      if f.lpSaleFundedDay ≠ day then { f with lpSaleFundedDay := day, lpSaleFundedToday := 0 }
      else f
    let funded ← uint256 (f.lpSaleFundedToday + amount)
    return { f with lpSaleFundedToday := funded }

/-- The sale after the checks: burn, credit, stream and payout. -/
def settleSale (seller : Address) (tokenId lockAmount : ℕ) (q : SellExecutionData) (cut : ℕ) :
    Except Error (World S) := do
  let f ← accrueSellImpactVolume call w.furnace lockAmount
  let f ← trackLpSaleRewardFunding call f q.lpReward
  let f := f.emit (.LockSoldToFurnace seller tokenId lockAmount q.claimOut q.spreadBps cut
    q.lpSaleShareBps q.lpReward q.reserveAdd q.bonusBpsUsed)
  let base ← VeClaimNFT.furnaceBurnAndWithdraw port (call.byFurnace f) w.base tokenId f.self
  let reserve ← uint256 (f.furnaceReserve + q.reserveAdd)
  let f := { f with
    furnaceReserve := reserve
    lastAutoMaxBonusClaim := update f.lastAutoMaxBonusClaim tokenId 0
    bonusBasis := update f.bonusBasis tokenId 0 }
  let f ← if q.lpReward ≠ 0 then fundLpStreamInternal call f q.lpReward else pure f
  let claim ← base.claim.transfer f.self seller q.claimOut
  return syncFurnaceReserve call { furnace := f, base := { base with claim := claim } }

/-- `sellLockToFurnaceFromMarket`: the CLAIM paid to the seller.  The lock
contract returns the amount of the burned lock, which is `lockAmount`. -/
def sellLockToFurnaceFromMarket (seller : Address) (tokenId minClaimOut : ℕ) :
    Except Error (World S × ℕ) := do
  whenLockingEnabled w.furnace
  requireCanonicalMineMarketEntryCaller call w
  revertIf (seller = 0) .ZeroAddress
  revertIf (w.furnace.furnaceQuoter = 0) .ZeroAddress
  let (w, _) ← accrueLpOverflowDrip call w
  revertIf (w.ve.owners tokenId = 0) .ERC721NonexistentToken
  revertIf (w.ve.owners tokenId ≠ w.furnace.self) .NotAuthorized
  let observedSeller := w.furnace.pendingSellSeller tokenId
  revertIf (observedSeller = 0 ∨ observedSeller ≠ seller) .NotAuthorized
  let f := { w.furnace with pendingSellSeller := update w.furnace.pendingSellSeller tokenId 0 }
  let w := { w with furnace := f }
  let (lockAmount, lockEnd, autoMax, listed) := w.ve.getLockInfo call.timestamp tokenId
  revertIf (lockAmount = 0) .InvalidToken
  revertIf (listed) .LockListedOrFrozen
  revertIf (lockEnd ≤ call.timestamp) .LockExpired
  let (q, cut) ← normalizeSellExecutionQuote call w lockAmount lockEnd autoMax minClaimOut
    w.furnace.furnaceReserve
  let w ← settleSale port call w seller tokenId lockAmount q cut
  return (w, q.claimOut)

end ClaimRush.Furnace
