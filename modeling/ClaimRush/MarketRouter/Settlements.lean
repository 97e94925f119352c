import ClaimRush.Furnace.SaleQuotes
import ClaimRush.MarketRouter.Bundle

/-!
# Settlements

The router quotes a lock before it clears the listing, checkpoints the royalties and
moves the lock into custody.  None of these changes what the Furnace then computes.
-/

open Function

namespace ClaimRush

namespace Furnace

variable {S : Type} {call : Call} {w w' : World S}

/-- A quote does not look at the custody of locks. -/
theorem HandedOver.quote (h : HandedOver w w') (lockAmount lockEnd : ℕ) (autoMax : Bool) :
    Quoter.quoteSellLockToFurnaceFromInfo call w' lockAmount lockEnd autoMax =
      Quoter.quoteSellLockToFurnaceFromInfo call w lockAmount lockEnd autoMax := by
  have hpreview : Quoter.previewReserveAfterLpOverflowDrip call w' =
      Quoter.previewReserveAfterLpOverflowDrip call w := by
    obtain ⟨pending, hfurnace⟩ := h.furnace
    unfold Quoter.previewReserveAfterLpOverflowDrip
    rw [hfurnace]
  have hsame : Quoter.SameSale w w' := by
    obtain ⟨⟨pending, hfurnace⟩, hclaim, hlocked, -⟩ := h
    exact ⟨⟨_, _, _, _, _, pending, hfurnace⟩, by rw [hclaim], hlocked⟩
  have hfigures : Quoter.sellLockFigures call w' lockAmount lockEnd autoMax =
      Quoter.sellLockFigures call w lockAmount lockEnd autoMax := by
    have helapsed : Quoter.timeSinceLaunch call w' = Quoter.timeSinceLaunch call w := by
      obtain ⟨pending, hfurnace⟩ := h.furnace
      unfold Quoter.timeSinceLaunch
      rw [hfurnace]
    unfold Quoter.sellLockFigures
    rw [h.lockedSupply, helapsed, hpreview]
    simp only [hsame.sellLockMath]
  unfold Quoter.quoteSellLockToFurnaceFromInfo
  rw [hsame.whenLockingEnabled, hfigures]

theorem HandedOver.quoteOfLock (h : HandedOver w w') {tokenId : ℕ} {listed : Bool}
    (hlock : w'.ve.locks tokenId = { w.ve.locks tokenId with listed := listed }) :
    quoteOfLock call w' tokenId = quoteOfLock call w tokenId := by
  unfold Furnace.quoteOfLock VeClaimNFT.VeState.getLockInfo
  simp only [hlock]
  exact h.quote _ _ _

end Furnace

namespace MarketRouter

open Constants
open VeClaimNFT (World IShareholderRoyalties)

variable {R : Type} {port : IShareholderRoyalties R} {answers : Answers}
  {call : VeClaimNFT.Call} {w w' w'' : World (Bundle R)}

/-- The quotes of the lock `tokenId` are the same in both worlds. -/
structure Unpriced (tokenId : ℕ) (w w' : World (Bundle R)) : Prop where
  furnace : w'.royalties.furnace = w.royalties.furnace
  claim : w'.claim = w.claim
  lockedSupply : w'.ve.totalLockedClaim = w.ve.totalLockedClaim
  self : w'.ve.self = w.ve.self
  lock : ∃ listed, w'.ve.locks tokenId = { w.ve.locks tokenId with listed := listed }

namespace Unpriced

variable {tokenId : ℕ}

theorem trans (h : Unpriced tokenId w w') (h' : Unpriced tokenId w' w'') :
    Unpriced tokenId w w'' := by
  obtain ⟨listed, hlock⟩ := h.lock
  obtain ⟨listed', hlock'⟩ := h'.lock
  refine ⟨h'.furnace.trans h.furnace, h'.claim.trans h.claim,
    h'.lockedSupply.trans h.lockedSupply, h'.self.trans h.self, listed', ?_⟩
  rw [hlock', hlock]

/-- Only the royalties storage changes. -/
theorem of_royalties (hve : w'.ve = w.ve) (hclaim : w'.claim = w.claim)
    (hfurnace : w'.royalties.furnace = w.royalties.furnace) : Unpriced tokenId w w' :=
  ⟨hfurnace, hclaim, by rw [hve], by rw [hve], (w.ve.locks tokenId).listed, by rw [hve]⟩

theorem handedOver (h : Unpriced tokenId w w') :
    Furnace.HandedOver (furnaceWorld w) (furnaceWorld w') :=
  ⟨⟨w.royalties.furnace.pendingSellSeller, h.furnace⟩, h.claim, h.lockedSupply, h.self⟩

theorem quoteOfLock (h : Unpriced tokenId w w') (fcall : Furnace.Call) :
    Furnace.quoteOfLock fcall (furnaceWorld w') tokenId =
      Furnace.quoteOfLock fcall (furnaceWorld w) tokenId :=
  h.handedOver.quoteOfLock h.lock.choose_spec

end Unpriced

/-! ## The way into custody -/

theorem checkpointShareholderRoyalties_furnace (w : World (Bundle R)) (user : Address) :
    Returns (fun w' ↦ w'.royalties.furnace = w.royalties.furnace)
      (VeClaimNFT.checkpointShareholderRoyalties call (besideFurnace port) w user) := by
  unfold VeClaimNFT.checkpointShareholderRoyalties
  refine Returns.ite (fun _ ↦ rfl) fun _ ↦ ?_
  refine Returns.seq fun sr _ ↦ Returns.seq fun _ _ ↦ Returns.seq fun b hb ↦ ?_
  rw [externalCall_eq_ok] at hb
  obtain ⟨r, -, rfl⟩ := Option.map_eq_some_iff.mp hb
  rfl

theorem pinShareholderObservedMin_furnace (w : World (Bundle R)) (user : Address) :
    (VeClaimNFT.pinShareholderObservedMin call (besideFurnace port) w user).royalties.furnace =
      w.royalties.furnace := by
  unfold VeClaimNFT.pinShareholderObservedMin
  dsimp only
  split_ifs
  · rfl
  · split
    · next b hb =>
      obtain ⟨r, -, rfl⟩ := Option.map_eq_some_iff.mp hb
      rfl
    · rfl

theorem transferFrom_furnace (src dst : Address) (tokenId : ℕ) :
    Returns (fun w' ↦ w'.royalties.furnace = w.royalties.furnace)
      (VeClaimNFT.transferFrom (besideFurnace port) call w src dst tokenId) := by
  unfold VeClaimNFT.transferFrom
  refine Returns.guard fun _ ↦ Returns.guard fun _ ↦ Returns.seq fun ve _ ↦ Returns.guard fun _ ↦ ?_
  refine Outcome.bind (checkpointShareholderRoyalties_furnace _ _) fun w₁ h₁ ↦ ?_
  refine Outcome.bind (checkpointShareholderRoyalties_furnace _ _) fun w₂ h₂ ↦ ?_
  refine Returns.seq fun _ _ ↦ Returns.guard fun _ ↦ Returns.guard fun _ ↦
    Returns.seq fun ve' _ ↦ ?_
  refine Returns.guard fun _ ↦ ?_
  change _ = _
  rw [pinShareholderObservedMin_furnace, pinShareholderObservedMin_furnace]
  exact h₂.trans h₁

theorem safeTransferFrom_unpriced (src dst : Address) (tokenId : ℕ) :
    Returns (Unpriced tokenId w)
      (VeClaimNFT.safeTransferFrom (besideFurnace port) call w src dst tokenId) := by
  unfold VeClaimNFT.safeTransferFrom
  refine Outcome.bind ((transferFrom_furnace src dst tokenId).and
    (VeClaimNFT.transferFrom_effect _ call w src dst tokenId)) fun w' ⟨hfurnace, hhanded⟩ ↦ ?_
  refine Returns.guard fun _ ↦ ⟨hfurnace, hhanded.claim, ?_, ?_, (w.ve.locks tokenId).listed, ?_⟩
  · exact hhanded.ve.keeps VeClaimNFT.VeState.totalLockedClaim fun _ _ ↦ rfl
  · exact hhanded.ve.keeps VeClaimNFT.VeState.self fun _ _ ↦ rfl
  · exact congrFun (hhanded.ve.keeps VeClaimNFT.VeState.locks fun _ _ ↦ rfl) tokenId

theorem setListed_royalties (tokenId : ℕ) (listed : Bool) :
    Returns (fun w' ↦ w'.royalties = w.royalties) (VeClaimNFT.setListed call w tokenId listed) := by
  unfold VeClaimNFT.setListed
  refine Returns.seq fun _ _ ↦ Returns.guard fun _ ↦ Returns.ite (fun _ ↦ ?_) fun _ ↦ rfl
  exact Returns.guard fun _ ↦ Returns.guard fun _ ↦ rfl

/-- A delisting changes the flag alone. -/
theorem setListed_unpriced (tokenId : ℕ) (listed : Bool) :
    Returns (Unpriced tokenId w) (VeClaimNFT.setListed call w tokenId listed) := by
  refine ((setListed_royalties tokenId listed).and
    (VeClaimNFT.setListed_effect call w tokenId listed)).weaken ?_
  rintro w' ⟨hroyalties, hlisted⟩
  refine ⟨by rw [hroyalties], hlisted.claim, ?_, ?_, listed, ?_⟩
  · exact hlisted.ve.keeps VeClaimNFT.VeState.totalLockedClaim fun _ _ ↦ rfl
  · exact hlisted.ve.keeps VeClaimNFT.VeState.self fun _ _ ↦ rfl
  · rw [hlisted.ve.keeps VeClaimNFT.VeState.locks fun _ _ ↦ rfl]
    exact update_self ..

variable (port answers)

theorem checkpointTransfer_unpriced {src dst : Address} (tokenId : ℕ)
    (h : checkpointTransfer port answers call w src dst = some w') : Unpriced tokenId w w' := by
  obtain ⟨r, rfl⟩ := checkpointTransfer_royalties h
  exact .of_royalties rfl rfl rfl

/-! ## The sale of a received lock -/

/-- The callback notes the seller and leaves the lock contract alone. -/
theorem received_handedOver {fcall : Furnace.Call} {v v' : Furnace.World (Bundle R)}
    {sender operator src : Address} {tokenId : ℕ}
    (h : Furnace.onERC721Received fcall v sender operator src tokenId = .ok v') :
    Furnace.HandedOver v v' ∧ v'.ve = v.ve := by
  obtain rfl := onERC721Received_pending h
  exact ⟨⟨⟨_, rfl⟩, rfl, rfl, rfl⟩, rfl⟩

/-- No quote looks at the noted seller. -/
theorem received_quoteOfLock {fcall : Furnace.Call} {v v' : Furnace.World (Bundle R)}
    {sender operator src : Address} {tokenId : ℕ}
    (h : Furnace.onERC721Received fcall v sender operator src tokenId = .ok v') :
    Furnace.quoteOfLock fcall v' tokenId = Furnace.quoteOfLock fcall v tokenId := by
  obtain ⟨hhanded, hve⟩ := received_handedOver h
  exact hhanded.quoteOfLock (by rw [hve])

theorem sellReceivedLock_quoted (furnace seller : Address) (tokenId minClaimOut : ℕ) :
    Returns (fun r ↦ ∃ m,
        Furnace.quoteOfLock (answers.furnaceCall call) (furnaceWorld w) tokenId = .ok m ∧
        r.2 = m.claimOut ∧ minClaimOut ≤ m.claimOut ∧
        m.Shares (answers.furnaceCall call) w.royalties.furnace (w.ve.locks tokenId).amount ∧
        Furnace.PaysSale (answers.furnaceCall call) (furnaceWorld w) seller tokenId m.claimOut
          r.1.claim)
      (sellReceivedLock port answers call w furnace seller tokenId minClaimOut) := by
  unfold sellReceivedLock
  refine Returns.guard fun _ ↦ Returns.seq fun v hreceived ↦ ?_
  have hsame := received_quoteOfLock hreceived
  obtain ⟨hhanded, -⟩ := received_handedOver hreceived
  obtain rfl := onERC721Received_pending hreceived
  refine Outcome.bind (Furnace.sellLockToFurnaceFromMarket_quoted (answers.furnaceCall call) _
    (besideFurnace port) seller tokenId minClaimOut) ?_
  rintro ⟨v, claimOut⟩ ⟨m, hquote, hout, hmin, hshares, hpaid⟩
  obtain rfl : claimOut = m.claimOut := hout
  exact ⟨m, hsame.symm.trans hquote, rfl, hmin, hshares, hpaid.handedOver hhanded rfl⟩

theorem sellReceivedLock_floor {furnace seller : Address} {tokenId minClaimOut : ℕ}
    {m : Furnace.Quoter.SellLockMath}
    (hquote : Furnace.quoteOfLock (answers.furnaceCall call) (furnaceWorld w) tokenId = .ok m)
    (hfloor : minClaimOut ≤ m.claimOut) :
    sellReceivedLock port answers call w furnace seller tokenId minClaimOut =
      sellReceivedLock port answers call w furnace seller tokenId 0 := by
  unfold sellReceivedLock
  refine bind_congr_ok fun _ _ ↦ bind_congr_ok fun v hreceived ↦ ?_
  rw [Furnace.sellLockToFurnaceFromMarket_floor _ _ _ _ _
    ((received_quoteOfLock hreceived).trans hquote) hfloor]

/-! ## Settlements -/

section Router

variable {call : Call} {w : RouterWorld (Bundle R)}

/-- The CLAIM of a sale through the router. -/
def PaysSale (answers : Answers) (call : Call) (w : RouterWorld (Bundle R)) (seller : Address)
    (tokenId claimOut : ℕ) (paid : ClaimToken) : Prop :=
  Furnace.PaysSale (answers.furnaceCall (call.as w.router.self)) (furnaceWorld w.outer) seller
    tokenId claimOut paid

theorem PaysSale.unpriced {w₁ : RouterWorld (Bundle R)} {seller : Address} {tokenId claimOut : ℕ}
    {paid : ClaimToken} (h : PaysSale answers call w₁ seller tokenId claimOut paid)
    (hsame : Unpriced tokenId w.outer w₁.outer) (hself : w₁.router.self = w.router.self) :
    PaysSale answers call w seller tokenId claimOut paid := by
  obtain ⟨listed, hlock⟩ := hsame.lock
  have hamount : (w₁.outer.ve.locks tokenId).amount = (w.outer.ve.locks tokenId).amount := by
    rw [hlock]
  unfold PaysSale at h ⊢
  rw [hself] at h
  exact h.handedOver hsame.handedOver hamount

/-- The quote of the lock `tokenId` in the world of the router. -/
def routerQuote (answers : Answers) (call : Call) (w : RouterWorld (Bundle R)) (tokenId : ℕ) :
    Except Error Furnace.Quoter.SellLockMath :=
  Furnace.quoteOfLock (answers.furnaceCall (call.as w.router.self)) (furnaceWorld w.outer) tokenId

theorem transferAndSell_quoted (furnace seller : Address) (tokenId minClaimOut : ℕ) :
    Returns (fun r ↦ ∃ m, routerQuote answers call w tokenId = .ok m ∧ r.2 = m.claimOut ∧
        minClaimOut ≤ m.claimOut ∧ r.1.router = w.router ∧
        m.claimOut + m.lpReward + m.reserveAdd = (w.outer.ve.locks tokenId).amount ∧
        PaysSale answers call w seller tokenId m.claimOut r.1.outer.claim)
      (transferAndSell (wiredPeers port answers) call w furnace seller tokenId minClaimOut) := by
  unfold transferAndSell
  refine Returns.seq fun outer₁ hcheckpoint ↦ ?_
  rw [externalCall_eq_ok] at hcheckpoint
  have h₁ := checkpointTransfer_unpriced port answers tokenId hcheckpoint
  refine Outcome.bind (safeTransferFrom_unpriced _ _ tokenId) fun outer₂ h₂ ↦ ?_
  refine Returns.seq fun r hsold ↦ ?_
  rw [externalCall_eq_ok] at hsold
  have hsame := h₁.trans h₂
  obtain ⟨m, hquote, hout, hmin, hshares, hpaid⟩ :=
    (sellReceivedLock_quoted port answers _ seller tokenId minClaimOut).of_ok
      (toOption_eq_some.mp hsold)
  obtain ⟨listed, hlock⟩ := hsame.lock
  have hamount := congrArg VeClaimNFT.Lock.amount hlock
  exact ⟨m, (hsame.quoteOfLock _).symm.trans hquote, hout, hmin, rfl, hshares.1.trans hamount,
    hpaid.handedOver hsame.handedOver hamount⟩

theorem transferAndSell_floor {furnace seller : Address} {tokenId minClaimOut : ℕ}
    {m : Furnace.Quoter.SellLockMath} (hquote : routerQuote answers call w tokenId = .ok m)
    (hfloor : minClaimOut ≤ m.claimOut) :
    transferAndSell (wiredPeers port answers) call w furnace seller tokenId minClaimOut =
      transferAndSell (wiredPeers port answers) call w furnace seller tokenId 0 := by
  unfold transferAndSell
  refine bind_congr_ok fun outer₁ hcheckpoint ↦ ?_
  rw [externalCall_eq_ok] at hcheckpoint
  have h₁ := checkpointTransfer_unpriced port answers tokenId hcheckpoint
  refine bind_congr_ok fun outer₂ hmoved ↦ ?_
  have hsame := h₁.trans ((safeTransferFrom_unpriced _ _ tokenId).of_ok hmoved)
  dsimp only [wiredPeers]
  rw [sellReceivedLock_floor port answers ((hsame.quoteOfLock _).trans hquote) hfloor]

theorem routerQuote_congr {w₁ : RouterWorld (Bundle R)} {tokenId : ℕ}
    (hsame : Unpriced tokenId w.outer w₁.outer) (hself : w₁.router.self = w.router.self) :
    routerQuote answers call w₁ tokenId = routerQuote answers call w tokenId := by
  unfold routerQuote
  rw [hself]
  exact hsame.quoteOfLock _

theorem clearListing_outer (tokenId : ℕ) (seller : Address) :
    Returns (fun w' ↦ w'.outer = w.outer ∧ w'.router.self = w.router.self)
      (clearListing call w tokenId seller) := by
  refine Returns.seq fun r hr ↦ ?_
  obtain ⟨l, -, hr⟩ := bind_eq_ok_iff.mp hr
  obtain rfl := Except.ok.inj hr
  exact ⟨rfl, rfl⟩

theorem routerSetListed_unpriced (tokenId : ℕ) (listed : Bool) :
    Returns (fun w' ↦ Unpriced tokenId w.outer w'.outer ∧ w'.router = w.router)
      (setListed call w tokenId listed) := by
  unfold setListed
  exact Outcome.bind (setListed_unpriced tokenId listed) fun outer h ↦ ⟨h, rfl⟩

theorem delist_unpriced (tokenId : ℕ) (seller : Address) (reason : ℕ) :
    Returns (fun w' ↦ Unpriced tokenId w.outer w'.outer ∧ w'.router.self = w.router.self)
      (delist call w tokenId seller reason) := by
  unfold delist
  refine Outcome.bind (clearListing_outer tokenId seller) fun w₁ ⟨houter, hself⟩ ↦ ?_
  refine Outcome.bind (routerSetListed_unpriced tokenId false) fun w₂ ⟨hsame, hrouter⟩ ↦ ?_
  rw [houter] at hsame
  exact ⟨hsame, (congrArg RouterState.self hrouter).trans hself⟩

theorem autoDelistForSale_unpriced (tokenId : ℕ) :
    Returns (fun w' ↦ Unpriced tokenId w.outer w'.outer ∧ w'.router.self = w.router.self)
      (autoDelistForSale call w tokenId) := by
  unfold autoDelistForSale
  refine Returns.guard fun _ ↦ ?_
  have hdelist {w₁ : RouterWorld (Bundle R)} (houter : w₁.outer = w.outer)
      (hself : w₁.router.self = w.router.self) :
      Returns (fun w' ↦ Unpriced tokenId w.outer w'.outer ∧ w'.router.self = w.router.self)
        (setListed call w₁ tokenId false) := by
    refine (routerSetListed_unpriced tokenId false).weaken ?_
    rintro w' ⟨hsame, hrouter⟩
    rw [houter] at hsame
    exact ⟨hsame, (congrArg RouterState.self hrouter).trans hself⟩
  dsimp only
  split
  · refine Returns.guard fun _ ↦ ?_
    exact Outcome.bind (clearListing_outer tokenId _) fun w₁ h₁ ↦ hdelist h₁.1 h₁.2
  · exact hdelist rfl rfl

theorem quoteSale_eq_some {call : VeClaimNFT.Call} {w : World (Bundle R)} {quoter : Address}
    {tokenId : ℕ} {q : ℕ × ℕ × ℕ × ℕ}
    (h : quoteSale answers call w quoter (w.ve.getLockInfo call.timestamp tokenId).1
      (w.ve.getLockInfo call.timestamp tokenId).2.1
      (w.ve.getLockInfo call.timestamp tokenId).2.2.1 = some q) :
    ∃ m, Furnace.quoteOfLock (answers.furnaceCall call) (furnaceWorld w) tokenId = .ok m ∧
      q.1 = m.claimOut := by
  unfold quoteSale at h
  split at h
  · obtain ⟨m, hm, rfl⟩ := Option.map_eq_some_iff.mp h
    exact ⟨m, toOption_eq_some.mp hm, rfl⟩
  · simp at h

/-- A listing that settles pays its seller the quote of the world before the call. -/
theorem sellListedLockToFurnace_quoted (tokenId deadline : ℕ) :
    Returns (fun w' ↦ ∃ m, routerQuote answers call w tokenId = .ok m ∧
        (w.router.listings tokenId).minClaimOut ≤ m.claimOut ∧
        m.claimOut + m.lpReward + m.reserveAdd = (w.outer.ve.locks tokenId).amount ∧
        w'.router.events.getLast? = some (.ListingSettled tokenId
          (w.router.listings tokenId).seller m.claimOut (m.lpReward + m.reserveAdd)) ∧
        PaysSale answers call w (w.router.listings tokenId).seller tokenId m.claimOut
          w'.outer.claim)
      (sellListedLockToFurnace (wiredPeers port answers) call w tokenId deadline) := by
  unfold sellListedLockToFurnace
  refine Returns.guard fun _ ↦ Returns.guard fun _ ↦ Returns.guard fun _ ↦ ?_
  refine Returns.guard fun _ ↦ Returns.guard fun _ ↦ Returns.seq fun _ _ ↦ ?_
  refine Returns.guard fun _ ↦ Returns.seq fun _ _ ↦ ?_
  refine Returns.guard fun _ ↦ Returns.guard fun _ ↦ Returns.guard fun _ ↦ ?_
  refine Returns.seq fun furnace _ ↦ Returns.guard fun _ ↦ ?_
  split
  · trivial
  next q quoteClaimOut _ hq =>
  obtain ⟨m, hquote, rfl⟩ := quoteSale_eq_some answers hq
  refine Returns.guard fun hmin ↦ ?_
  refine Outcome.bind (delist_unpriced tokenId _ _) fun w₁ ⟨hsame, hself⟩ ↦ ?_
  refine Outcome.bind (transferAndSell_quoted port answers furnace _ tokenId _) ?_
  rintro ⟨w₂, claimOut⟩ ⟨m', hquote', rfl, -, hrouter, hsum, hpaid⟩
  rw [routerQuote_congr answers hsame hself] at hquote'
  obtain rfl : m = m' := Except.ok.inj (hquote.symm.trans hquote')
  obtain ⟨listed, hlock⟩ := hsame.lock
  rw [hlock] at hsum
  dsimp only at hsum
  refine Returns.guard fun _ ↦ Returns.guard fun _ ↦ ?_
  refine ⟨m, hquote, not_lt.mp hmin, hsum, ?_, hpaid.unpriced answers hsame hself⟩
  have hpenalty : (if (w.outer.ve.getLockInfo call.timestamp tokenId).1 > m.claimOut then
      (w.outer.ve.getLockInfo call.timestamp tokenId).1 - m.claimOut else 0) =
      m.lpReward + m.reserveAdd := by
    change (if (w.outer.ve.locks tokenId).amount > m.claimOut then
      (w.outer.ve.locks tokenId).amount - m.claimOut else 0) = m.lpReward + m.reserveAdd
    split <;> omega
  dsimp only
  rw [hpenalty]
  exact List.getLast?_concat

/-- So does a direct sale. -/
theorem sellLockToFurnace_quoted (tokenId minClaimOut deadline : ℕ) :
    Returns (fun w' ↦ ∃ m, routerQuote answers call w tokenId = .ok m ∧ minClaimOut ≤ m.claimOut ∧
        m.claimOut + m.lpReward + m.reserveAdd = (w.outer.ve.locks tokenId).amount ∧
        w'.router.events.getLast? = some (.MarketSellToFurnace tokenId call.sender minClaimOut
          deadline m.claimOut) ∧
        PaysSale answers call w call.sender tokenId m.claimOut w'.outer.claim)
      (sellLockToFurnace (wiredPeers port answers) call w tokenId minClaimOut deadline) := by
  unfold sellLockToFurnace
  refine Returns.guard fun _ ↦ Returns.guard fun _ ↦ Returns.seq fun seller _ ↦ ?_
  refine Returns.guard fun hseller ↦ Returns.seq fun furnace _ ↦ ?_
  obtain rfl := not_not.mp hseller
  refine Returns.guard fun _ ↦ Returns.guard fun _ ↦ ?_
  refine Outcome.bind (autoDelistForSale_unpriced tokenId) fun w₁ ⟨hsame, hself⟩ ↦ ?_
  refine Outcome.bind (transferAndSell_quoted port answers furnace _ tokenId _) ?_
  rintro ⟨w₂, claimOut⟩ ⟨m, hquote, rfl, hmin, hrouter, hsum, hpaid⟩
  rw [routerQuote_congr answers hsame hself] at hquote
  obtain ⟨listed, hlock⟩ := hsame.lock
  rw [hlock] at hsum
  refine Returns.guard fun _ ↦ ⟨m, hquote, hmin, hsum, ?_, hpaid.unpriced answers hsame hself⟩
  exact List.getLast?_concat

/-- Every sale through the router pays the quote of the world before the call, split
exactly between the seller, the LPs and the reserve.  Once a floor passed against that
quote, neither the delisting nor the transfers in between can make the sale miss it. -/
theorem settlements_pay_quote (tokenId : ℕ) :
    (∀ deadline w',
      sellListedLockToFurnace (wiredPeers port answers) call w tokenId deadline = .ok w' →
      ∃ m, routerQuote answers call w tokenId = .ok m ∧
        (w.router.listings tokenId).minClaimOut ≤ m.claimOut ∧
        m.claimOut + m.lpReward + m.reserveAdd = (w.outer.ve.locks tokenId).amount ∧
        w'.router.events.getLast? = some (.ListingSettled tokenId
          (w.router.listings tokenId).seller m.claimOut (m.lpReward + m.reserveAdd)) ∧
        PaysSale answers call w (w.router.listings tokenId).seller tokenId m.claimOut
          w'.outer.claim) ∧
    (∀ minClaimOut deadline w',
      sellLockToFurnace (wiredPeers port answers) call w tokenId minClaimOut deadline = .ok w' →
      ∃ m, routerQuote answers call w tokenId = .ok m ∧ minClaimOut ≤ m.claimOut ∧
        m.claimOut + m.lpReward + m.reserveAdd = (w.outer.ve.locks tokenId).amount ∧
        w'.router.events.getLast? = some (.MarketSellToFurnace tokenId call.sender minClaimOut
          deadline m.claimOut) ∧
        PaysSale answers call w call.sender tokenId m.claimOut w'.outer.claim) ∧
    ∀ m w₁ furnace seller reason floor, routerQuote answers call w tokenId = .ok m →
      delist call w tokenId seller reason = .ok w₁ ∨ autoDelistForSale call w tokenId = .ok w₁ →
      floor ≤ m.claimOut →
      transferAndSell (wiredPeers port answers) call w₁ furnace seller tokenId floor =
        transferAndSell (wiredPeers port answers) call w₁ furnace seller tokenId 0 := by
  refine ⟨fun deadline _ hw' ↦ ?_, fun minClaimOut deadline _ hw' ↦ ?_, ?_⟩
  · exact (sellListedLockToFurnace_quoted port answers tokenId deadline).of_ok hw'
  · exact (sellLockToFurnace_quoted port answers tokenId minClaimOut deadline).of_ok hw'
  · intro m w₁ furnace seller reason floor hquote hdelisted hfloor
    have hsame : Unpriced tokenId w.outer w₁.outer ∧ w₁.router.self = w.router.self := by
      rcases hdelisted with h | h
      · exact (delist_unpriced tokenId seller reason).of_ok h
      · exact (autoDelistForSale_unpriced tokenId).of_ok h
    exact transferAndSell_floor port answers
      ((routerQuote_congr answers hsame.1 hsame.2).trans hquote) hfloor

end Router

/-- The answers in the wired deployment. -/
def wiredAnswers : Answers where
  royalties := 5
  emissionStartTime := (Furnace.wiredCall 0 0).emissionStartTime
  furnaceEmissionRateAt := (Furnace.wiredCall 0 0).furnaceEmissionRateAt
  routerConfig := (Furnace.wiredCall 0 0).routerConfig
  notifyRewards := (Furnace.wiredCall 0 0).notifyRewards

def wiredRouterCall (delay sender : ℕ) : Call where
  toCall := (Furnace.wiredCall delay sender).toCall
  blockNumber := delay

/-- A new lock of account 7, listed by it and settled by the owner of the router; the
worlds before and after the settlement. -/
def settledRun : Except Error (RouterWorld (Bundle Unit) × RouterWorld (Bundle Unit)) := do
  let v ← Furnace.lockedWorld [270000 * 10 ^ 18]
  let w : RouterWorld (Bundle Unit) :=
    { router := initial 6 2 1 5 9
      outer := { ve := v.ve, royalties := ⟨(), v.furnace⟩, claim := v.claim } }
  let w ← listLock (wiredRouterCall 2 7) w 1 1 90000
  let w' ← sellListedLockToFurnace (wiredPeers VeClaimNFT.acceptingPort wiredAnswers)
    (wiredRouterCall 3 9) w 1 90000
  return (w, w')

theorem settlements_pay_quote_listed : ∃ (w : RouterWorld (Bundle Unit))
    (m : Furnace.Quoter.SellLockMath),
    routerQuote wiredAnswers (wiredRouterCall 3 9) w 1 = .ok m ∧
      (w.router.listings 1).minClaimOut ≤ m.claimOut ∧
      m.claimOut + m.lpReward + m.reserveAdd = (w.outer.ve.locks 1).amount := by
  have hok : settledRun.toOption.any (fun _ ↦ true) = true := by decide +kernel
  obtain ⟨⟨w, w'⟩, hrun, -⟩ := exists_ok_of_any hok
  obtain ⟨v, -, hrun⟩ := bind_eq_ok_iff.mp hrun
  obtain ⟨w₁, -, hrun⟩ := bind_eq_ok_iff.mp hrun
  obtain ⟨w₂, hsettled, hrun⟩ := bind_eq_ok_iff.mp hrun
  obtain ⟨rfl, rfl⟩ := Prod.mk.inj (Except.ok.inj hrun)
  obtain ⟨m, hquote, hmin, hsum, -⟩ :=
    (settlements_pay_quote VeClaimNFT.acceptingPort wiredAnswers 1).1 90000 _ hsettled
  exact ⟨w₁, m, hquote, hmin, hsum⟩

end MarketRouter

end ClaimRush
