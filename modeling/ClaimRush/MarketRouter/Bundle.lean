import ClaimRush.Furnace.LockCalls
import ClaimRush.MarketRouter.System

/-!
# The router and its Furnace

The other contracts of the router with the Furnace and its quoter in their places.
The storage of the Furnace lies beside that of the royalties contract.
-/

open Function

namespace ClaimRush.MarketRouter

open VeClaimNFT (World IShareholderRoyalties)

structure Bundle (R : Type) where
  royalties : R
  furnace : Furnace.FurnaceState

/-- What the contracts outside the bundle answer during a call. -/
structure Answers where
  /-- The royalties contract. -/
  royalties : Address
  emissionStartTime : Address → Option ℕ
  furnaceEmissionRateAt : Address → ℕ → Option ℕ
  routerConfig : Address → Option Furnace.RouterConfig
  notifyRewards : Address → ℕ → Bool

variable {R : Type} (port : IShareholderRoyalties R) (answers : Answers)

/-- The royalties functions leave the Furnace alone. -/
def besideFurnace : IShareholderRoyalties (Bundle R) where
  checkpointUser sr nowTs ve user b :=
    (port.checkpointUser sr nowTs ve user b.royalties).map fun r ↦ { b with royalties := r }
  pinUserObservedMin sr nowTs ve user b :=
    (port.pinUserObservedMin sr nowTs ve user b.royalties).map fun r ↦ { b with royalties := r }

/-- The router sends no ETH to the Furnace. -/
def Answers.furnaceCall (call : VeClaimNFT.Call) : Furnace.Call where
  toCall := call
  value := 0
  emissionStartTime := answers.emissionStartTime
  furnaceEmissionRateAt := answers.furnaceEmissionRateAt
  routerConfig := answers.routerConfig
  notifyRewards := answers.notifyRewards

/-- The world as the Furnace finds it. -/
def furnaceWorld (w : World (Bundle R)) : Furnace.World (Bundle R) := ⟨w.royalties.furnace, w⟩

/-- The world as the Furnace leaves it. -/
def afterFurnace (w : Furnace.World (Bundle R)) : World (Bundle R) :=
  { w.base with royalties := { w.base.royalties with furnace := w.furnace } }

section Calls

variable (call : VeClaimNFT.Call) (w : World (Bundle R))

/-- `ShareholderRoyalties.checkpointTransfer`, called by the market. -/
def checkpointTransfer (src dst : Address) : Option (World (Bundle R)) :=
  if src = dst then some w
  else do
    let sr := answers.royalties
    let r ← (besideFurnace port).checkpointUser sr call.timestamp w.ve src w.royalties
    let r ← (besideFurnace port).checkpointUser sr call.timestamp w.ve dst r
    return { w with royalties := r }

/-- The callback of the transfer into custody, and the sale. -/
def sellReceivedLock (furnace seller : Address) (tokenId minClaimOut : ℕ) :
    Except Error (World (Bundle R) × ℕ) := do
  revertIf (furnace ≠ w.royalties.furnace.self) .ExternalCallFailed
  let ownCall := answers.furnaceCall call
  let v ← Furnace.onERC721Received ownCall (furnaceWorld w) w.ve.self call.sender seller tokenId
  let (v, claimOut) ←
    Furnace.sellLockToFurnaceFromMarket (besideFurnace port) ownCall v seller tokenId minClaimOut
  return (afterFurnace v, claimOut)

/-- The entry for the buyer of an offer. -/
def enterForBuyer (furnace buyer : Address) (claimIn tokenId durationSeconds : ℕ)
    (createAutoMax : Bool) (minVeOut : ℕ) : Except Error (World (Bundle R) × ℕ) := do
  revertIf (furnace ≠ w.royalties.furnace.self) .ExternalCallFailed
  let (v, entered) ← Furnace.enterWithClaimFor (besideFurnace port) (answers.furnaceCall call)
    (furnaceWorld w) buyer claimIn ⟨tokenId, durationSeconds, createAutoMax, minVeOut⟩
  return (afterFurnace v, entered.tokenIdUsed)

/-- The sale quote of the wired quoter. -/
def quoteSale (quoter : Address) (lockAmount lockEnd : ℕ) (autoMax : Bool) :
    Option (ℕ × ℕ × ℕ × ℕ) :=
  if quoter = w.royalties.furnace.furnaceQuoter then
    (Furnace.Quoter.quoteSellLockToFurnaceFromInfo (answers.furnaceCall call) (furnaceWorld w)
      lockAmount lockEnd autoMax).toOption.map fun m ↦
        (m.claimOut, m.spreadBps, m.lpReward, m.reserveAdd)
  else none

/-- The entry quote of the wired quoter. -/
def quoteEntry (quoter user : Address) (claimIn tokenId durationSeconds : ℕ)
    (createAutoMax : Bool) : Option (ℕ × ℕ × ℕ × ℕ) :=
  if quoter = w.royalties.furnace.furnaceQuoter then
    (Furnace.Quoter.quoteEnterWithClaim (answers.furnaceCall call) (furnaceWorld w) user claimIn
      tokenId durationSeconds createAutoMax).toOption.map fun q ↦
        (q.principalClaim, q.bonusClaim, q.veOut, q.routeTokenId)
  else none

end Calls

/-! ## The calls as steps of the outer world -/

variable {port answers} {call : VeClaimNFT.Call} {w : World (Bundle R)}

theorem lockCall_outside {op : VeClaimNFT.Op} {v : Furnace.World (Bundle R)}
    (hop : ∀ furnace, op ≠ .setFurnace furnace)
    (h : Furnace.LockCall (besideFurnace port) (answers.furnaceCall call) op (furnaceWorld w) v) :
    Relation.ReflTransGen (Outside (besideFurnace port) call.timestamp) w (afterFurnace v) := by
  obtain ⟨-, before, base, after, hexec, hbase⟩ := h
  have hstart : Outside (besideFurnace port) call.timestamp w { w with claim := before } :=
    .rest w w.royalties before
  have hlock : Outside (besideFurnace port) call.timestamp { w with claim := before } base :=
    .ve ((answers.furnaceCall call).byFurnace (furnaceWorld w).furnace) op rfl hop hexec
  have hend : Outside (besideFurnace port) call.timestamp base (afterFurnace v) := by
    unfold afterFurnace
    rw [hbase]
    exact .rest base _ after
  exact ((Relation.ReflTransGen.single hstart).tail hlock).tail hend

theorem checkpointTransfer_royalties {src dst : Address} {w' : World (Bundle R)}
    (h : checkpointTransfer port answers call w src dst = some w') :
    ∃ r, w' = { w with royalties := { w.royalties with royalties := r } } := by
  unfold checkpointTransfer besideFurnace at h
  split at h
  · obtain rfl := Option.some.inj h
    exact ⟨w.royalties.royalties, rfl⟩
  · simp only [Option.bind_eq_bind, Option.bind_eq_some_iff, Option.map_eq_some_iff] at h
    obtain ⟨_, ⟨r, -, rfl⟩, _, ⟨r', -, rfl⟩, h⟩ := h
    obtain rfl := Option.some.inj h
    exact ⟨r', rfl⟩

theorem onERC721Received_pending {fcall : Furnace.Call} {v v' : Furnace.World (Bundle R)}
    {sender operator src : Address} {tokenId : ℕ}
    (h : Furnace.onERC721Received fcall v sender operator src tokenId = .ok v') :
    v' = { v with furnace := { v.furnace with
      pendingSellSeller := update v.furnace.pendingSellSeller tokenId src } } := by
  unfold Furnace.onERC721Received at h
  simp only [bind_eq_ok_iff] at h
  obtain ⟨_, -, _, -, _, -, _, -, _, -, _, -, _, -, h⟩ := h
  exact (Except.ok.inj h).symm

theorem sellReceivedLock_lockCall {furnace seller : Address} {tokenId minClaimOut : ℕ}
    {r : World (Bundle R) × ℕ}
    (h : sellReceivedLock port answers call w furnace seller tokenId minClaimOut = .ok r) :
    ∃ v, r.1 = afterFurnace v ∧
      Furnace.LockCall (besideFurnace port) (answers.furnaceCall call)
        (.furnaceBurnAndWithdraw tokenId w.royalties.furnace.self) (furnaceWorld w) v := by
  obtain ⟨_, -, h⟩ := bind_eq_ok_iff.mp h
  obtain ⟨v, hreceived, h⟩ := bind_eq_ok_iff.mp h
  obtain ⟨⟨v', claimOut⟩, hsold, h⟩ := bind_eq_ok_iff.mp h
  obtain rfl := Except.ok.inj h
  obtain rfl := onERC721Received_pending hreceived
  have hlocked := (Furnace.sellLockToFurnaceFromMarket_lockCall _ _ _ seller tokenId
    minClaimOut).of_ok hsold
  exact ⟨v', rfl, hlocked.after rfl ⟨w.claim, rfl⟩⟩

theorem enterForBuyer_lockCall {furnace buyer : Address} {claimIn tokenId durationSeconds : ℕ}
    {createAutoMax : Bool} {minVeOut : ℕ} {r : World (Bundle R) × ℕ}
    (h : enterForBuyer port answers call w furnace buyer claimIn tokenId durationSeconds
      createAutoMax minVeOut = .ok r) :
    ∃ v amount d, r.1 = afterFurnace v ∧
      Furnace.LockCall (besideFurnace port) (answers.furnaceCall call)
        (Furnace.entryOp buyer amount tokenId d createAutoMax) (furnaceWorld w) v := by
  obtain ⟨_, -, h⟩ := bind_eq_ok_iff.mp h
  obtain ⟨⟨v, entered⟩, hentered, h⟩ := bind_eq_ok_iff.mp h
  obtain rfl := Except.ok.inj h
  obtain ⟨d, hlocked⟩ := (Furnace.enterWithClaimFor_lockCall _ _ _ buyer claimIn _).of_ok hentered
  exact ⟨v, _, d, rfl, hlocked⟩

theorem entryOp_ne (buyer : Address) (amount tokenId d : ℕ) (autoMax : Bool) (furnace : Address) :
    Furnace.entryOp buyer amount tokenId d autoMax ≠ .setFurnace furnace := by
  unfold Furnace.entryOp
  split <;> nofun

variable (port answers)

/-- The other contracts of the router, with the Furnace among them. -/
def wiredPeers : Peers (Bundle R) where
  port := besideFurnace port
  checkpointTransfer := checkpointTransfer port answers
  furnaceQuoter _ w furnace :=
    if furnace = w.royalties.furnace.self then w.royalties.furnace.furnaceQuoter else 0
  quoteSellLockToFurnaceFromInfo := quoteSale answers
  quoteEnterWithClaim := quoteEntry answers
  sellLockToFurnaceFromMarket call w furnace seller tokenId minClaimOut :=
    (sellReceivedLock port answers call w furnace seller tokenId minClaimOut).toOption
  enterWithClaimFor call w furnace buyer claimIn tokenId durationSeconds createAutoMax minVeOut :=
    (enterForBuyer port answers call w furnace buyer claimIn tokenId durationSeconds createAutoMax
      minVeOut).toOption
  checkpointTransfer_outside h := by
    obtain ⟨r, rfl⟩ := checkpointTransfer_royalties h
    exact .single (.rest _ _ _)
  sellLockToFurnaceFromMarket_outside h := by
    obtain ⟨v, hv, hlocked⟩ := sellReceivedLock_lockCall (toOption_eq_some.mp h)
    rw [hv]
    refine lockCall_outside ?_ hlocked
    intro _ heq
    cases heq
  enterWithClaimFor_outside h := by
    obtain ⟨v, amount, d, hv, hlocked⟩ := enterForBuyer_lockCall (toOption_eq_some.mp h)
    rw [hv]
    exact lockCall_outside (entryOp_ne _ _ _ _ _) hlocked

end ClaimRush.MarketRouter
