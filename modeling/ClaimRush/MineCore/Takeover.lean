import ClaimRush.MineCore.Settlement

/-!
# Takeovers

A takeover finalizes the previous reign and starts a new one.  Every transfer of
ETH that fails is credited to a bucket, and a royalties call that fails keeps the
share of the shareholders in the contract.
-/

open Function

namespace ClaimRush.MineCore

open Constants

variable {S : Type} (port : VeClaimNFT.IShareholderRoyalties S) (call : Call) (w : World S)

/-! ## ETH transfers -/

/-- `_callWithValueNoReturndata`; the contract itself accepts no ETH of its own. -/
def sendEth (dst : Address) (value : ℕ) (accepted : Bool) : World S × Bool :=
  if value = 0 then (w, true)
  else if accepted = true ∧ value ≤ w.balance ∧ dst ≠ w.core.wiring.self then
    let core := { w.core with
      ghost := { w.core.ghost with ethSent := w.core.ghost.ethSent ++ [(dst, value)] } }
    ({ w with core := core, balance := w.balance - value }, true)
  else (w, false)

/-- The payout to the dethroned king, or the credit of `kingEthBalance`. -/
def payKing (recipient : Address) (kingShare : ℕ) (accepted : Bool) : Except Error (World S) :=
  match sendEth w recipient kingShare accepted with
  | (w, true) => .ok (w.emit (.KingEthPaid recipient kingShare))
  | (w, false) => do
      let b := w.core.buckets
      let owed ← uint256 (b.kingEthBalance recipient + kingShare)
      let total ← uint256 (b.totalKingEthOwed + kingShare)
      let b := { b with
        kingEthBalance := update b.kingEthBalance recipient owed, totalKingEthOwed := total }
      return { w with core := { w.core with buckets := b } }.emit
        (.KingEthCredited recipient kingShare)

/-- What the royalties contract does with a payment. -/
structure RoyaltiesReply where
  /-- The call that carries the ETH succeeds. -/
  accepted : Bool
  /-- `flushPendingShareholderETH()` succeeds. -/
  flushed : Bool
  deriving DecidableEq, Repr

/-- `_tryRoyaltiesTakeover`. -/
def tryRoyaltiesTakeover (reply : RoyaltiesReply) (reignId amountEth : ℕ) :
    Except Error (World S) :=
  if amountEth = 0 then .ok w
  else
    match sendEth w w.core.wiring.royalties amountEth reply.accepted with
    | (w, true) =>
        .ok (if reply.flushed then w else w.emit .ShareholderRoyaltiesFlushFailed)
    | (w, false) => do
        let b := w.core.buckets
        let pending ← uint256 (b.shareholderEthPending + amountEth)
        let b := { b with shareholderEthPending := pending }
        return { w with core := { w.core with buckets := b } }.emit
          (.ShareholderRoyaltiesTakeoverFailed reignId amountEth)

/-- `_hybridRefund`: credited first, and cleared when the transfer succeeds. -/
def hybridRefund (dst : Address) (amount : ℕ) (accepted : Bool) : Except Error (World S) :=
  if amount = 0 then .ok w
  else do
    let b := w.core.buckets
    let owed ← uint256 (b.refundEthBalance dst + amount)
    let total ← uint256 (b.totalRefundEthOwed + amount)
    let credited := { b with
      refundEthBalance := update b.refundEthBalance dst owed, totalRefundEthOwed := total }
    match sendEth { w with core := { w.core with buckets := credited } } dst amount accepted with
    | (w, true) =>
        let b := w.core.buckets
        let cleared := { b with
          refundEthBalance := update b.refundEthBalance dst (b.refundEthBalance dst - amount)
          totalRefundEthOwed := b.totalRefundEthOwed - amount }
        return { w with core := { w.core with buckets := cleared } }
    | (w, false) => return w.emit (.RefundCredited dst amount)

/-! ## The lock checkpoint -/

/-- The lock contract after a public checkpoint. -/
def checkpointVe : Except Error (World S) := do
  let base ← VeClaimNFT.checkpointGlobalState (call.byCore w.core).toCall w.furnace.base
  return { w with furnace := { w.furnace with base := base } }

/-- The loop of `_checkpointVeForTakeover`, which ends when the lock contract is
current or makes no progress, or when the gas for `rounds` checkpoints is used. -/
def checkpointVeLoop : ℕ → World S → Except Error (World S)
  | 0, w => .ok w
  | rounds + 1, w => do
      let last := w.ve.global.globalLastTs
      if last = call.timestamp then return w
      else
        let w ← checkpointVe call w
        let after := w.ve.global.globalLastTs
        if after ≤ last ∨ after > call.timestamp then return w else checkpointVeLoop rounds w

/-- `_requireFreshVeCheckpoint`. -/
def requireFreshVeCheckpoint : Except Error Unit :=
  revertIf (w.ve.global.globalLastTs ≠ call.timestamp) .VeCheckpointStale

/-! ## The takeover sequence -/

/-- How the external calls of a takeover end. -/
structure TakeoverReplies where
  /-- Lock checkpoints that the gas guard allows. -/
  checkpointRounds : ℕ
  kingPaid : Bool
  royalties : RoyaltiesReply
  gas : SettleGas
  refunded : Bool
  deriving DecidableEq, Repr

/-- `_rejectProtocolAddressAsRecipient`. -/
def rejectProtocolAddressAsRecipient (account : Address) : Except Error Unit :=
  let c := w.core.wiring
  revertIf (account = c.self ∨ account = w.claim.self ∨ account = w.ve.self ∨
    account = c.royalties ∨ account = c.furnace ∨ account = c.helper ∨ account = c.claimAllHelper ∨
    account = c.delegationHub) .NotAuthorized

/-- The CLAIM of the Furnace for `furnaceMined`, credited to its reserve. -/
def mintFurnaceClaim (furnaceMined : ℕ) : Except Error (World S) :=
  if furnaceMined ≠ 0 then do
    let claim ← w.claim.mint w.core.wiring.self w.core.wiring.furnace furnaceMined
    let core := { w.core with
      ghost := { w.core.ghost with furnaceMinted := w.core.ghost.furnaceMinted + furnaceMined } }
    let w := { w.withClaim claim with core := core }
    match Furnace.creditReserve (call.byCore w.core) w.furnace furnaceMined with
    | .ok f => return { w with furnace := f }
    | .error _ => throw .InvariantViolation
  else .ok w

/-- Step 3: emissions since the last accrual; returns the CLAIM of the king. -/
def accrueEmissions : Except Error (World S × ℕ) := do
  let furnace := w.core.wiring.furnace
  let prevKing := w.core.game.currentKing
  let accrualStart := w.core.game.currentReignLastAccrualTime
  let emissionStart := w.core.genesis.emissionStartTime
  revertIf (furnace = 0) .ZeroAddress
  revertIf (!w.isReciprocallyWiredFurnace call furnace) .WiringMismatch
  let claimMined ←
    if prevKing ≠ 0 then kingEmitted emissionStart accrualStart call.timestamp else pure 0
  let furnaceMined ← furnaceEmitted emissionStart accrualStart call.timestamp
  let w ← mintFurnaceClaim call w furnaceMined
  return (w, claimMined)

/-- The share of the dethroned king. -/
def kingShare (pricePaid : ℕ) : Except Error ℕ := do
  let product ← uint256 (pricePaid * KING_ETH_SHARE_PCT)
  return product / KING_ETH_SHARE_DENOM

/-- A recipient of a reign, which defaults to its king. -/
def orKing (recipient king : Address) : Address := if recipient = 0 then king else recipient

/-- Step 4: finalize the reign `reignId` of `king`. -/
def finalizeReign (r : TakeoverReplies) (reignId : ℕ) (king : Address)
    (pricePaid claimMined : ℕ) : Except Error (World S) := do
  let reigns := w.core.reigns
  let totalVe := update reigns.totalVeForReign reignId w.ve.global.totalVeCached
  let share ← kingShare pricePaid
  let shareholderShare ← usub pricePaid share
  let ethRecipient := orKing (reigns.reignEthRecipient reignId) king
  let claimRecipient := orKing (reigns.reignClaimRecipient reignId) king
  let info := { reigns.reignInfo reignId with
    endTime := call.timestamp, totalClaimMined := claimMined, totalEthToKing := share }
  let reigns := { reigns with
    totalVeForReign := totalVe, reignInfo := update reigns.reignInfo reignId info }
  let w := { w with core := { w.core with reigns := reigns } }
  let w ← payKing w ethRecipient share r.kingPaid
  let w ← tryRoyaltiesTakeover w r.royalties reignId shareholderShare
  let w := w.emit
    (.ReignFinalized reignId king info.startTime call.timestamp claimMined share)
  settlePrevKingClaim port call w r.gas reignId king claimRecipient claimMined

/-- The reference price of a new reign: twice the price paid, saturated. -/
def newReferencePrice (pricePaid : ℕ) : ℕ :=
  if pricePaid ≤ (uint256Bound - 1) / 2 then pricePaid * 2 else uint256Bound - 1

/-- The players of a takeover. -/
structure NewReign where
  king : Address
  ethRecipient : Address
  claimRecipient : Address
  refundTo : Address
  deriving DecidableEq, Repr

/-- `DelegationPermissions.P_TAKEOVER_FOR`. -/
def P_TAKEOVER_FOR : ℕ := 2 ^ 0

/-- `DelegationPermissions.P_ROUTE_REIGN_CLAIM_TO_CALLER`. -/
def P_ROUTE_REIGN_CLAIM_TO_CALLER : ℕ := 2 ^ 1

/-- `DelegationActionTypes.TAKEOVER_FOR`. -/
def TAKEOVER_FOR : ℕ := 1

/-- Step 5: start the new reign. -/
def startReign (n : NewReign) (pricePaid : ℕ) : Except Error (World S) := do
  let nowTs := call.timestamp
  let prevKing := w.core.game.currentKing
  let newReignId ← uint256 (w.core.game.currentReignId + 1)
  let referencePrice := newReferencePrice pricePaid
  let game := { w.core.game with
    currentReignId := newReignId
    currentKing := n.king
    currentReignStartTime := nowTs
    currentReignLastAccrualTime := nowTs
    referencePrice := referencePrice }
  let reigns := w.core.reigns
  let reigns := { reigns with
    reignEthRecipient := update reigns.reignEthRecipient newReignId n.ethRecipient
    reignClaimRecipient := update reigns.reignClaimRecipient newReignId n.claimRecipient
    reignInfo := update reigns.reignInfo newReignId
      { king := n.king, startTime := nowTs, endTime := 0, pricePaid := pricePaid
        referencePrice := referencePrice, totalClaimMined := 0, totalEthToKing := 0 }
    kingReigns := update reigns.kingReigns n.king (reigns.kingReigns n.king ++ [newReignId]) }
  let core := { w.core with
    game := game, reigns := reigns, window := w.core.window.recordTakeover n.king }
  let core := core.emit (.ReignRecipientsSet newReignId n.king n.ethRecipient n.claimRecipient)
  let core := core.emit (.Takeover newReignId prevKing n.king pricePaid referencePrice nowTs)
  let perms :=
    if n.claimRecipient = n.refundTo then P_TAKEOVER_FOR + P_ROUTE_REIGN_CLAIM_TO_CALLER
    else P_TAKEOVER_FOR
  let core :=
    if n.king ≠ n.refundTo then
      core.emit (.DelegationSessionUsed n.king n.refundTo TAKEOVER_FOR perms newReignId nowTs)
    else core
  return { w with core := core }

/-- `_executeTakeover`. -/
def executeTakeover (r : TakeoverReplies) (creditedEth pricePaid : ℕ) (n : NewReign) :
    Except Error (World S) := do
  rejectProtocolAddressAsRecipient w n.king
  rejectProtocolAddressAsRecipient w n.ethRecipient
  rejectProtocolAddressAsRecipient w n.claimRecipient
  rejectProtocolAddressAsRecipient w n.refundTo
  let prevKing := w.core.game.currentKing
  let prevReignId := w.core.game.currentReignId
  revertIf (n.king = 0 ∨ n.ethRecipient = 0 ∨ n.claimRecipient = 0) .ZeroAddress
  revertIf (n.refundTo = 0) .ZeroAddress
  revertIf (creditedEth = 0) .AmountZero
  let w ← checkpointVeLoop call r.checkpointRounds w
  requireFreshVeCheckpoint call w
  revertIf (creditedEth < pricePaid) .InsufficientEthBalance
  let (w, claimMined) ← accrueEmissions call w
  let w ←
    if prevKing ≠ 0 then finalizeReign port call w r prevReignId prevKing pricePaid claimMined
    else tryRoyaltiesTakeover w r.royalties 0 pricePaid
  let w ← startReign call w n pricePaid
  hybridRefund w n.refundTo (creditedEth - pricePaid) r.refunded

/-! ## Swaps -/

/-- `IEntryTokenRegistry.RegistryRoute`. -/
structure RegistryRoute where
  tokenIn : Address
  tokenOut : Address
  stable : Bool
  pool : Address
  deriving DecidableEq, Repr

/-- What the tokens, the registry and the router answer to a swap; `none` is a
revert. -/
structure SwapReplies where
  /-- `resolveTakeoverRoute(tokenIn)`. -/
  routes : Option (List RegistryRoute)
  /-- `poolFor` of the route. -/
  pool : Option Address
  /-- The tokens arrive, and their approval succeeds. -/
  pulled : Bool
  /-- WETH received from the router. -/
  wethReceived : Option ℕ
  /-- ETH received from the unwrap. -/
  ethReceived : Option ℕ
  deriving DecidableEq, Repr

/-- The unwrap that ends a swap: the ETH found delivered. -/
def unwrapWeth (r : SwapReplies) (minEthOut : ℕ) : Except Error (World S × ℕ) := do
  let ethOut ← externalCall r.ethReceived
  revertIf (ethOut < minEthOut) .MinEthOutNotMet
  return ({ w with balance := w.balance + ethOut }, ethOut)

/-- `_swapTokenToEth`. -/
def swapTokenToEth (r : SwapReplies) (tokenIn amountIn minEthOut : ℕ) :
    Except Error (World S × ℕ) := do
  revertIf (tokenIn = 0) .ZeroAddress
  revertIf (amountIn = 0) .AmountZero
  revertIf (minEthOut = 0) .AmountZero
  revertIf (tokenIn = w.claim.self) .InvalidToken
  let config ← getValidatedRouterConfig call w.core.wiring.entryTokenRegistry w.claim.self
  if tokenIn = config.weth then
    revertIf (!r.pulled) .TransferFailed
    unwrapWeth w r minEthOut
  else
    match ← externalCall r.routes with
    | [route] =>
        revertIf (route.tokenIn ≠ tokenIn ∨ route.tokenOut ≠ config.weth) .InvalidToken
        let pool ← externalCall r.pool
        revertIf (pool ≠ route.pool) .InvalidPool
        revertIf (!r.pulled) .TransferFailed
        let _ ← externalCall r.wethReceived
        unwrapWeth w r minEthOut
    | _ => throw .InvalidToken

/-! ## Entry points -/

/-- The ETH that comes with a call. -/
def receiveValue : World S := { w with balance := w.balance + call.value }

/-- A king may not take over from itself. -/
def requireOtherKing (newKing : Address) : Except Error Unit :=
  revertIf (newKing = w.core.game.currentKing ∧ w.core.game.currentKing ≠ 0) .NotAuthorized

/-- `getTakeoverPrice`. -/
def getTakeoverPrice (timestamp : ℕ) : ℕ :=
  let g := w.core.game
  takeoverPrice g.currentKing g.currentReignStartTime g.referencePrice timestamp

/-- The reign of a caller for itself. -/
def NewReign.self (sender : Address) : NewReign := ⟨sender, sender, sender, sender⟩

/-- `takeover`. -/
def takeover (r : TakeoverReplies) (maxPrice : ℕ) : Except Error (World S) := do
  let w := receiveValue call w
  revertIf w.core.game.takeoversPaused .TakeoversPaused
  requireOtherKing w call.sender
  let price := getTakeoverPrice w call.timestamp
  revertIf (price > maxPrice) .PriceExceeded
  executeTakeover port call w r call.value price (.self call.sender)

/-- `takeoverWithToken`, whose swap deadline is never in the past. -/
def takeoverWithToken (r : TakeoverReplies) (swap : SwapReplies)
    (tokenIn amountIn minEthOut maxPrice : ℕ) : Except Error (World S) := do
  revertIf w.core.game.takeoversPaused .TakeoversPaused
  requireOtherKing w call.sender
  let price := getTakeoverPrice w call.timestamp
  revertIf (price > maxPrice) .PriceExceeded
  let (w, ethOut) ← swapTokenToEth call w swap tokenIn amountIn minEthOut
  executeTakeover port call w r ethOut price (.self call.sender)

/-- `takeoverWithTokenAndDeadline`. -/
def takeoverWithTokenAndDeadline (r : TakeoverReplies) (swap : SwapReplies)
    (tokenIn amountIn minEthOut maxPrice deadline : ℕ) : Except Error (World S) := do
  revertIf w.core.game.takeoversPaused .TakeoversPaused
  requireOtherKing w call.sender
  revertIf (call.timestamp > deadline) .DeadlineExpired
  let price := getTakeoverPrice w call.timestamp
  revertIf (price > maxPrice) .PriceExceeded
  let (w, ethOut) ← swapTokenToEth call w swap tokenIn amountIn minEthOut
  executeTakeover port call w r ethOut price (.self call.sender)

/-- `takeoverFor`. -/
def takeoverFor (r : TakeoverReplies) (newKing : Address) (maxPrice : ℕ) :
    Except Error (World S) := do
  let w := receiveValue call w
  revertIf w.core.game.takeoversPaused .TakeoversPaused
  revertIf (newKing = 0) .ZeroAddress
  requireOtherKing w newKing
  let price := getTakeoverPrice w call.timestamp
  revertIf (price > maxPrice) .PriceExceeded
  let hub ← w.resolveCanonicalDelegationHub call
  revertIf (!call.isAuthorized hub newKing call.sender P_TAKEOVER_FOR) .NotAuthorized
  let claimRecipient :=
    if call.isAuthorized hub newKing call.sender P_ROUTE_REIGN_CLAIM_TO_CALLER then call.sender
    else newKing
  executeTakeover port call w r call.value price ⟨newKing, call.sender, claimRecipient, call.sender⟩

end ClaimRush.MineCore
