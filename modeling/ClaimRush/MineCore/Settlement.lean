import ClaimRush.MineCore.State

/-!
# Settlement of king CLAIM

The CLAIM mined in a reign is split by the share of its king in the recent
takeovers: a liquid slice, and a slice that is locked through the Furnace or
credited for a later lock.
-/

open Function

namespace ClaimRush.MineCore

open Constants

/-! ## The takeover window -/

namespace TakeoverWindow

variable (t : TakeoverWindow)

/-- `_recordTakeover`. -/
def recordTakeover (newKing : Address) : TakeoverWindow :=
  let cursor := t.takeoverWindowCursor
  let evicted := t.takeoverWindow cursor
  let c := t.takeoverWindowTakeovers evicted
  let counts :=
    if evicted ≠ 0 ∧ c ≠ 0 then update t.takeoverWindowTakeovers evicted (c - 1)
    else t.takeoverWindowTakeovers
  { takeoverWindow := update t.takeoverWindow cursor newKing
    takeoverWindowTakeovers := update counts newKing (counts newKing + 1)
    takeoverWindowCursor := (cursor + 1) % TAKEOVER_WINDOW_LEN }

/-- `_kingLiquidBps`. -/
def kingLiquidBps (king : Address) : ℕ :=
  let cnt := t.takeoverWindowTakeovers king
  if cnt = 0 then 0
  else
    let bps := cnt * 10000 / TAKEOVER_WINDOW_LEN
    if bps > KING_LIQUID_SHARE_MAX_BPS then KING_LIQUID_SHARE_MAX_BPS else bps

end TakeoverWindow

variable {S : Type} (port : VeClaimNFT.IShareholderRoyalties S) (call : Call) (w : World S)

/-! ## Minting -/

/-- `claim.mint(to, amount)` of the king stream. -/
def mintKingClaim (dst : Address) (amount : ℕ) : Except Error (World S) := do
  let claim ← w.claim.mint w.core.wiring.self dst amount
  let core := { w.core with
    ghost := { w.core.ghost with kingMinted := w.core.ghost.kingMinted + amount } }
  return { w.withClaim claim with core := core }

/-- Credit CLAIM that the contract holds. -/
def creditKingClaim (recipient : Address) (amount : ℕ) : Except Error (World S) := do
  let kings := w.core.kings
  let pending ← uint256 (kings.pendingKingClaim recipient + amount)
  let total ← uint256 (kings.totalPendingKingClaim + amount)
  let kings := { kings with
    pendingKingClaim := update kings.pendingKingClaim recipient pending
    totalPendingKingClaim := total }
  return { w with core := { w.core with kings := kings } }.emit
    (.KingClaimCredited recipient amount)

/-- `_creditPendingKingClaim`. -/
def creditPendingKingClaim (recipient : Address) (amount : ℕ) : Except Error (World S) := do
  let w ← mintKingClaim w w.core.wiring.self amount
  creditKingClaim w recipient amount

/-! ## Routing into a lock -/

/-- What the gas of a call allows. -/
structure RouteGas where
  /-- `gasleft()` exceeds `SETTLE_CLAIM_ENTER_RESERVE_GAS`. -/
  forEnter : Bool
  /-- The call of the Furnace does not run out of gas. -/
  forFurnace : Bool
  deriving DecidableEq, Repr

/-- The outcome of a routing attempt; `none` is a failure without an error. -/
inductive Routed
  | locked (tokenId : ℕ)
  | failed (reason : Option Error)
  deriving DecidableEq, Repr

/-- The destination of a settlement: the selected lock, else the pinned lock, else
a new perpetual lock; with whether a stale pin is cleared. -/
def chooseDestination (recipient : Address) : AutoLockDestination × Bool :=
  let cfg := w.core.kings.kingAutoLockConfig recipient
  let fresh : AutoLockDestination := ⟨0, MAX_LOCK_DURATION, true⟩
  let preResolvedTokenId := if cfg.targetTokenId ≠ 0 then cfg.targetTokenId else cfg.pinnedTokenId
  if preResolvedTokenId ≠ 0 then
    match resolveKingAutoLockDestination call.timestamp w.ve recipient
      preResolvedTokenId 0 false with
    | .ok destination => (destination, false)
    | .error _ => (fresh, cfg.targetTokenId = 0 ∧ cfg.pinnedTokenId ≠ 0)
  else (fresh, false)

/-- `kingAutoLockConfig[recipient].pinnedTokenId = tokenId`. -/
def pin (recipient : Address) (tokenId : ℕ) : World S :=
  let kings := w.core.kings
  let cfg := { kings.kingAutoLockConfig recipient with pinnedTokenId := tokenId }
  { w with
    core := { w.core with
      kings := { kings with
        kingAutoLockConfig := update kings.kingAutoLockConfig recipient cfg } } }

/-- The `try` around the call of the Furnace. -/
def RouteGas.tryEnter (gas : RouteGas)
    (entry : Except Error (Furnace.World S × Furnace.Entered)) :
    Except (Option Error) (Furnace.World S × Furnace.Entered) :=
  match entry with
  | .ok entered => if gas.forFurnace then .ok entered else .error none
  | .error e => .error (if gas.forFurnace then some e else none)

/-- `_bestEffortResetApproval`. -/
def resetApproval : World S :=
  w.withClaim (w.claim.approve w.core.wiring.self w.core.wiring.furnace 0)

/-- After a successful entry: the first lock that was created is pinned. -/
def entryLocked (recipient : Address) (amount : ℕ) (destination : AutoLockDestination)
    (f : Furnace.World S) (tokenId : ℕ) : World S :=
  let core := { w.core with
    ghost := { w.core.ghost with locked := w.core.ghost.locked ++ [(recipient, amount)] } }
  let w := resetApproval { core := core, balance := w.balance, furnace := f }
  let pinnedTokenId := (w.core.kings.kingAutoLockConfig recipient).pinnedTokenId
  if destination.tokenId = 0 ∧ pinnedTokenId = 0 then pin w recipient tokenId else w

/-- After a failed entry: a pin that is not in use is cleared. -/
def entryFailed (recipient : Address) (destination : AutoLockDestination) : World S :=
  let cfg := w.core.kings.kingAutoLockConfig recipient
  resetApproval (if destination.tokenId = 0 ∧ cfg.targetTokenId = 0 then pin w recipient 0 else w)

/-- The approved entry into the Furnace, for at least `minVeOut`. -/
def enterFurnace (recipient : Address) (amount minVeOut : ℕ) (destination : AutoLockDestination) :
    Except Error (Furnace.World S × Furnace.Entered) :=
  let approved := w.withClaim (w.claim.approve w.core.wiring.self w.core.wiring.furnace amount)
  Furnace.enterWithClaimFor port (call.byCore w.core) approved.furnace recipient amount
    ⟨destination.tokenId, destination.duration, destination.createAutoMax,
      if minVeOut = 0 then 1 else minVeOut⟩

/-- `_routeClaimToLock`: a failure leaves the CLAIM in the contract. -/
def routeClaimToLock (gas : RouteGas) (recipient : Address) (amount : ℕ) : World S × Routed :=
  let furnace := w.core.wiring.furnace
  let cfg := w.core.kings.kingAutoLockConfig recipient
  if furnace = 0 then (w, .failed (some .ZeroAddress))
  else if !w.isReciprocallyWiredFurnace call furnace then (w, .failed (some .WiringMismatch))
  else
    let (destination, stalePin) := chooseDestination call w recipient
    let w := if stalePin then pin w recipient 0 else w
    if !gas.forEnter then (w, .failed (some .InvariantViolation))
    else
      match gas.tryEnter (enterFurnace port call w recipient amount cfg.minVeOut destination) with
      | .ok (f, entered) =>
          (entryLocked w recipient amount destination f entered.tokenIdUsed,
            .locked entered.tokenIdUsed)
      | .error reason => (entryFailed w recipient destination, .failed reason)

/-! ## Settlement -/

/-- The reason code of a settlement that is skipped for gas. -/
def SETTLE_SKIPPED_FOR_GAS : ℕ := 0xFF

/-- What the gas of a takeover allows at its settlement. -/
structure SettleGas extends RouteGas where
  /-- `gasleft()` is at least `SETTLE_CLAIM_MIN_GAS`. -/
  forSettle : Bool
  deriving DecidableEq, Repr

/-- The slice that is not liquid: minted to the contract, and locked or credited. -/
def settleLockedSlice (gas : SettleGas) (reignId : ℕ) (recipient : Address) (lockAmount : ℕ) :
    Except Error (World S) :=
  if !gas.forSettle then do
    let w ← creditPendingKingClaim w recipient lockAmount
    return w.emit (.KingAutoLockSkipped reignId recipient lockAmount SETTLE_SKIPPED_FOR_GAS)
  else do
    let w ← mintKingClaim w w.core.wiring.self lockAmount
    let (w, routed) := routeClaimToLock port call w gas.toRouteGas recipient lockAmount
    match routed with
    | .locked tokenId => return w.emit (.KingAutoLockExecuted reignId recipient lockAmount tokenId)
    | .failed reason =>
        let w ← creditKingClaim w recipient lockAmount
        return w.emit (.KingAutoLockFailed reignId recipient lockAmount reason)

/-- The liquid slice: minted straight to the recipient. -/
def payLiquidSlice (reignId : ℕ) (recipient : Address) (liquidAmount liquidBps : ℕ) :
    Except Error (World S) :=
  if liquidAmount ≠ 0 then do
    let w ← mintKingClaim w recipient liquidAmount
    return w.emit (.KingClaimLiquidPaid reignId recipient liquidAmount liquidBps)
  else .ok w

/-- `_settlePrevKingClaim`. -/
def settlePrevKingClaim (gas : SettleGas) (reignId : ℕ) (king recipient : Address)
    (claimAmount : ℕ) : Except Error (World S) :=
  if claimAmount = 0 then .ok w
  else do
    let liquidBps := w.core.window.kingLiquidBps king
    let product ← uint256 (claimAmount * liquidBps)
    let liquidAmount := product / 10000
    let lockAmount := claimAmount - liquidAmount
    let w ← payLiquidSlice w reignId recipient liquidAmount liquidBps
    if lockAmount = 0 then return w
    else settleLockedSlice port call w gas reignId recipient lockAmount

end ClaimRush.MineCore
