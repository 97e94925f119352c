import ClaimRush.MarketRouter.System

/-!
# What a call does to the index arrays

Every call on the router is a sequence of edits: the outer world moves, a setting
or a record changes, a listing or an offer is entered or taken out.
-/

open Function Relation

namespace ClaimRush.MarketRouter

open VeClaimNFT (World IShareholderRoyalties)

/-- Listings, offers and the arrays over them are the same. -/
structure SameIndex (r r' : RouterState) : Prop where
  listings : r'.listings = r.listings
  offers : r'.offers = r.offers
  nextOfferId : r'.nextOfferId = r.nextOfferId
  userListings : r'.userListings = r.userListings
  userBonusTargetEscrows : r'.userBonusTargetEscrows = r.userBonusTargetEscrows

variable {S : Type}

/-- One edit by a call of `sender` in the block of `timestamp`. -/
inductive Edit (port : IShareholderRoyalties S) (timestamp : ℕ) (sender : Address) :
    RouterWorld S → RouterWorld S → Prop
  | outer {w : RouterWorld S} {outer : World S} (h : Outside port timestamp w.outer outer) :
      Edit port timestamp sender w { w with outer := outer }
  | settings {w : RouterWorld S} {r : RouterState} (h : SameIndex w.router r) :
      Edit port timestamp sender w { w with router := r }
  | list {w : RouterWorld S} (tokenId : ℕ) {lst : Listing} (hactive : lst.active = true)
      (hseller : lst.seller = sender) (howner : w.outer.ve.owners tokenId = sender)
      (hsender : sender ≠ 0) :
      Edit port timestamp sender w { w with router := { w.router with
        listings := update w.router.listings tokenId lst
        userListings := w.router.userListings.add sender tokenId } }
  | unlist {w : RouterWorld S} (tokenId : ℕ) {l : UserIds}
      (hactive : (w.router.listings tokenId).active = true)
      (hremove : w.router.userListings.remove (w.router.listings tokenId).seller tokenId = .ok l) :
      Edit port timestamp sender w { w with router := { w.router with
        listings := update w.router.listings tokenId {}, userListings := l } }
  | offer {w : RouterWorld S} {o : BonusTargetEscrow} (hactive : o.active = true)
      (hbuyer : o.buyer ≠ 0) :
      Edit port timestamp sender w { w with router := { w.router with
        offers := update w.router.offers w.router.nextOfferId o
        nextOfferId := w.router.nextOfferId + 1
        userBonusTargetEscrows :=
          w.router.userBonusTargetEscrows.add o.buyer w.router.nextOfferId } }
  | close {w : RouterWorld S} (offerId : ℕ) {o : BonusTargetEscrow} {l : UserIds}
      (hactive : (w.router.offers offerId).active = true) (hclosed : o.active = false)
      (hremove : w.router.userBonusTargetEscrows.remove (w.router.offers offerId).buyer offerId
        = .ok l) :
      Edit port timestamp sender w { w with router := { w.router with
        offers := update w.router.offers offerId o, userBonusTargetEscrows := l } }
  | extend {w : RouterWorld S} (offerId : ℕ) {o : BonusTargetEscrow}
      (hactive : o.active = (w.router.offers offerId).active)
      (hbuyer : o.buyer = (w.router.offers offerId).buyer) :
      Edit port timestamp sender w { w with router := { w.router with
        offers := update w.router.offers offerId o } }

/-- A sequence of edits of one call. -/
abbrev Edits (peers : Peers S) (call : Call) : RouterWorld S → RouterWorld S → Prop :=
  ReflTransGen (Edit peers.port call.timestamp call.sender)

variable {peers : Peers S} {call : Call} {w : RouterWorld S}

theorem Edits.bind {f : RouterWorld S → Except Error (RouterWorld S)}
    {x : Except Error (RouterWorld S)} (hx : Returns (Edits peers call w) x)
    (hf : ∀ w₁, Edits peers call w w₁ → Returns (Edits peers call w₁) (f w₁)) :
    Returns (Edits peers call w) (x >>= f) :=
  Outcome.bind hx fun w₁ h₁ ↦ (hf w₁ h₁).weaken fun _ ↦ h₁.trans

/-- The same for a program that returns a value next to the world. -/
theorem Edits.bindFst {β : Type} {f : RouterWorld S × β → Except Error (RouterWorld S)}
    {x : Except Error (RouterWorld S × β)} (hx : Returns (fun r ↦ Edits peers call w r.1) x)
    (hf : ∀ r, Edits peers call w r.1 → Returns (Edits peers call r.1) (f r)) :
    Returns (Edits peers call w) (x >>= f) :=
  Outcome.bind hx fun r hr ↦ (hf r hr).weaken fun _ ↦ hr.trans

/-- Edits before a program count as its own. -/
theorem Edits.before {w₁ : RouterWorld S} {x : Except Error (RouterWorld S)}
    (h : Edits peers call w w₁) (hx : Returns (Edits peers call w₁) x) :
    Returns (Edits peers call w) x := hx.weaken fun _ ↦ h.trans

theorem Edits.settings {r : RouterState} (h : SameIndex w.router r) :
    Edits peers call w { w with router := r } := .single (.settings h)

theorem Edits.emit (e : Event) : Edits peers call w { w with router := w.router.emit e } :=
  .settings ⟨rfl, rfl, rfl, rfl, rfl⟩

theorem Edits.claim (claim : ClaimToken) :
    Edits peers call w { w with outer := { w.outer with claim := claim } } :=
  .single (.outer (.rest w.outer w.outer.royalties claim))

/-- What the outer world does is a sequence of edits. -/
theorem Edits.outside {outer : World S}
    (h : ReflTransGen (Outside peers.port call.timestamp) w.outer outer) :
    Edits peers call w { w with outer := outer } := by
  induction h with
  | refl => exact .refl
  | tail _ hlast ih => exact ih.tail (.outer hlast)

/-! ## Listings -/

theorem setListed_edits (tokenId : ℕ) (listed : Bool) :
    Returns (Edits peers call w) (setListed call w tokenId listed) := by
  refine Returns.seq fun outer houter ↦ ?_
  exact .single (.outer (.ve (call.as w.router.self) (.setListed tokenId listed) rfl nofun houter))

theorem clearListing_edits {tokenId : ℕ} (hactive : (w.router.listings tokenId).active = true) :
    Returns (Edits peers call w)
      (clearListing call w tokenId (w.router.listings tokenId).seller) := by
  refine Returns.seq fun r hr ↦ ?_
  obtain ⟨l, hremove, hr⟩ := bind_eq_ok_iff.mp hr
  obtain rfl := Except.ok.inj hr
  exact ReflTransGen.tail (.single (.unlist tokenId hactive hremove))
    (.settings ⟨rfl, rfl, rfl, rfl, rfl⟩)

theorem delist_edits {tokenId : ℕ} (hactive : (w.router.listings tokenId).active = true)
    (reason : ℕ) :
    Returns (Edits peers call w)
      (delist call w tokenId (w.router.listings tokenId).seller reason) := by
  refine Edits.bind (clearListing_edits hactive) fun w₁ _ ↦ ?_
  exact Edits.bind (setListed_edits tokenId false) fun w₂ _ ↦ Edits.emit _

theorem listLock_edits (tokenId minClaimOut expiresAtTime : ℕ) :
    Returns (Edits peers call w) (listLock call w tokenId minClaimOut expiresAtTime) := by
  refine Returns.guard fun _ ↦ Returns.guard fun _ ↦ Returns.guard fun _ ↦ ?_
  refine Returns.guard fun _ ↦ Returns.seq fun tokenOwner howner ↦ ?_
  obtain ⟨_, hlive, howner⟩ := bind_eq_ok_iff.mp howner
  rw [revertIf_eq_ok] at hlive
  obtain rfl := Except.ok.inj howner
  refine Returns.guard fun hsender ↦ ?_
  rw [not_not] at hsender
  refine Returns.guard fun _ ↦ Returns.guard fun _ ↦ Returns.guard fun _ ↦ ?_
  refine Edits.before ?_ (Edits.bind (setListed_edits tokenId true) fun w₁ _ ↦ Edits.emit _)
  exact ReflTransGen.tail (.single (.list tokenId rfl rfl hsender (hsender ▸ hlive)))
    (.settings ⟨rfl, rfl, rfl, rfl, rfl⟩)

theorem delistLock_edits (tokenId : ℕ) :
    Returns (Edits peers call w) (delistLock call w tokenId) := by
  refine Returns.guard fun _ ↦ ?_
  dsimp only
  split
  · refine Returns.seq fun tokenOwner _ ↦ Returns.guard fun _ ↦ Returns.guard fun _ ↦ ?_
    refine Edits.before ?_ (Edits.bind (setListed_edits tokenId false) fun w₁ _ ↦ Edits.emit _)
    exact Edits.settings ⟨rfl, rfl, rfl, rfl, rfl⟩
  · next hactive => exact Returns.guard fun _ ↦ delist_edits (by simpa using hactive) _

theorem cancelExpiredListing_edits (tokenId : ℕ) :
    Returns (Edits peers call w) (cancelExpiredListing call w tokenId) := by
  refine Returns.guard fun _ ↦ Returns.guard fun hactive ↦ Returns.guard fun _ ↦ ?_
  exact delist_edits (by simpa using hactive) _

theorem cancelExpiredListingEntry_edits (tokenId : ℕ) :
    Returns (Edits peers call w) (cancelExpiredListingEntry call w tokenId) := by
  unfold cancelExpiredListingEntry
  dsimp only
  split
  · next helig => exact delist_edits helig.1 _
  · exact ReflTransGen.refl

/-- A fold of best-effort entries is a sequence of edits. -/
theorem foldlM_edits {f : RouterWorld S → ℕ → Except Error (RouterWorld S)}
    (hf : ∀ w id, Returns (Edits peers call w) (f w id)) (ids : List ℕ) (w : RouterWorld S) :
    Returns (Edits peers call w) (ids.foldlM f w) := by
  induction ids generalizing w with
  | nil => exact ReflTransGen.refl
  | cons id ids ih =>
      rw [List.foldlM_cons]
      exact Edits.bind (hf w id) fun w₁ _ ↦ ih w₁

theorem cleanupStaleListing_edits (tokenId : ℕ) :
    Returns (Edits peers call w) (cleanupStaleListing call w tokenId) := by
  refine Returns.guard fun _ ↦ Returns.guard fun hactive ↦ Returns.guard fun _ ↦ ?_
  exact Edits.bind (clearListing_edits (by simpa using hactive)) fun w₁ _ ↦ Edits.emit _

theorem emergencyDelist_edits (tokenId : ℕ) :
    Returns (Edits peers call w) (emergencyDelist call w tokenId) := by
  refine Returns.guard fun _ ↦ Returns.guard fun hactive ↦ Returns.guard fun _ ↦ ?_
  refine Returns.seq fun minTime _ ↦ Returns.guard fun _ ↦ ?_
  exact delist_edits (by simpa using hactive) _

theorem autoDelistForSale_edits (tokenId : ℕ) :
    Returns (Edits peers call w) (autoDelistForSale call w tokenId) := by
  refine Returns.guard fun _ ↦ ?_
  dsimp only
  split
  · next hactive =>
    refine Returns.guard fun _ ↦ Edits.bind (clearListing_edits hactive) fun w₁ _ ↦ ?_
    exact Edits.before (Edits.emit _) (setListed_edits tokenId false)
  · refine Edits.before ?_ (setListed_edits tokenId false)
    exact Edits.settings ⟨rfl, rfl, rfl, rfl, rfl⟩

theorem transferAndSell_edits (furnace seller : Address) (tokenId minClaimOut : ℕ) :
    Returns (fun r ↦ Edits peers call w r.1)
      (transferAndSell peers call w furnace seller tokenId minClaimOut) := by
  refine Returns.seq fun outer₁ h₁ ↦ ?_
  rw [externalCall_eq_ok] at h₁
  refine Returns.seq fun outer₂ h₂ ↦ Returns.seq fun r h₃ ↦ ?_
  rw [externalCall_eq_ok] at h₃
  have hmoved : Outside peers.port call.timestamp outer₁ outer₂ :=
    .ve (call.as w.router.self) (.safeTransferFrom seller furnace tokenId) rfl nofun h₂
  exact Edits.outside (((peers.checkpointTransfer_outside h₁).tail hmoved).trans
    (peers.sellLockToFurnaceFromMarket_outside h₃))

theorem sellLockToFurnace_edits (tokenId minClaimOut deadline : ℕ) :
    Returns (Edits peers call w)
      (sellLockToFurnace peers call w tokenId minClaimOut deadline) := by
  refine Returns.guard fun _ ↦ Returns.guard fun _ ↦ Returns.seq fun seller _ ↦ ?_
  refine Returns.guard fun _ ↦ Returns.seq fun furnace _ ↦ ?_
  refine Returns.guard fun _ ↦ Returns.guard fun _ ↦ ?_
  refine Edits.bind (autoDelistForSale_edits tokenId) fun w₁ _ ↦ ?_
  refine Edits.bindFst (transferAndSell_edits furnace seller tokenId minClaimOut) fun r _ ↦ ?_
  exact Returns.guard fun _ ↦ Edits.emit _

theorem sellListedLockToFurnace_edits (tokenId deadline : ℕ) :
    Returns (Edits peers call w) (sellListedLockToFurnace peers call w tokenId deadline) := by
  refine Returns.guard fun _ ↦ Returns.guard fun _ ↦ Returns.guard fun hactive ↦ ?_
  refine Returns.guard fun _ ↦ Returns.guard fun _ ↦ Returns.seq fun currentOwner _ ↦ ?_
  refine Returns.guard fun _ ↦ Returns.seq fun _ _ ↦ ?_
  refine Returns.guard fun _ ↦ Returns.guard fun _ ↦ Returns.guard fun _ ↦ ?_
  refine Returns.seq fun furnace _ ↦ Returns.guard fun _ ↦ ?_
  split
  · trivial
  · next quoteClaimOut _ _ =>
    refine Returns.guard fun _ ↦ ?_
    refine Edits.bind (delist_edits (by simpa using hactive) _) fun w₁ _ ↦ ?_
    refine Edits.bindFst (transferAndSell_edits furnace _ tokenId quoteClaimOut) fun r _ ↦ ?_
    exact Returns.guard fun _ ↦ Returns.guard fun _ ↦ Edits.emit _

/-! ## Offers -/

theorem refund_edits (buyer : Address) (amount : ℕ) :
    Returns (Edits peers call w) (refund w buyer amount) := by
  unfold refund
  split
  · exact Returns.seq fun claim _ ↦ Edits.claim claim
  · exact ReflTransGen.refl

theorem closeOffer_edits {offerId : ℕ} (hactive : (w.router.offers offerId).active = true) :
    Returns (Edits peers call w) (closeOffer w offerId) := by
  refine Returns.seq fun r hr ↦ ?_
  obtain ⟨l, hremove, hr⟩ := bind_eq_ok_iff.mp hr
  obtain rfl := Except.ok.inj hr
  exact ReflTransGen.tail (.single (.close offerId hactive rfl hremove))
    (.settings ⟨rfl, rfl, rfl, rfl, rfl⟩)

theorem closeWithRefund_edits {offerId : ℕ} (hactive : (w.router.offers offerId).active = true)
    (event : ℕ → Address → ℕ → Event) :
    Returns (Edits peers call w) (closeWithRefund w offerId event) := by
  refine Edits.bind (closeOffer_edits hactive) fun w₁ _ ↦ ?_
  exact Edits.bind (refund_edits _ _) fun w₂ _ ↦ Edits.emit _

theorem enterOffer_edits {offer : BonusTargetEscrow} (hactive : offer.active = true)
    (config : BonusTargetConfig) :
    Returns (fun r ↦ Edits peers call w r.1) (enterOffer w offer config) := by
  refine Returns.seq fun claim hclaim ↦ Returns.seq fun nextOfferId hnext ↦ ?_
  obtain ⟨-, rfl⟩ := uint256_eq_ok.mp hnext
  have hbuyer := (ClaimToken.transferFrom_eq_ok hclaim).src_ne
  refine ReflTransGen.trans (Edits.claim claim) ?_
  exact ReflTransGen.tail (.single (.offer hactive hbuyer))
    (.settings ⟨rfl, rfl, rfl, rfl, rfl⟩)

theorem createOffer_edits (targetBonusBps budgetClaim durationSeconds : ℕ) (createAutoMax : Bool)
    (escrowTtlSeconds destinationLockId slippageBps : ℕ) :
    Returns (fun r ↦ Edits peers call w r.1) (createOffer call w targetBonusBps budgetClaim
      durationSeconds createAutoMax escrowTtlSeconds destinationLockId slippageBps) := by
  refine Returns.guard fun _ ↦ Returns.guard fun _ ↦ ?_
  refine Returns.seq fun denom _ ↦ Returns.seq fun discountBps _ ↦ Returns.seq fun terms _ ↦ ?_
  refine Returns.seq fun targetEnd _ ↦ ?_
  dsimp only
  split
  · exact Returns.seq fun _ _ ↦ enterOffer_edits rfl _
  · exact enterOffer_edits rfl _

theorem createBonusTargetEscrowWithTarget_edits (targetBonusBps budgetClaim durationSeconds : ℕ)
    (createAutoMax : Bool) (escrowTtlSeconds destinationLockId slippageBps : ℕ) :
    Returns (Edits peers call w) (createBonusTargetEscrowWithTarget call w targetBonusBps
      budgetClaim durationSeconds createAutoMax escrowTtlSeconds destinationLockId
      slippageBps) := by
  refine Returns.guard fun _ ↦ Returns.seq fun _ _ ↦ ?_
  refine Edits.bindFst (createOffer_edits targetBonusBps budgetClaim durationSeconds
    createAutoMax escrowTtlSeconds destinationLockId slippageBps) fun r _ ↦ ?_
  exact Edits.settings ⟨rfl, rfl, rfl, rfl, rfl⟩

theorem cancelBonusTargetEscrow_edits (offerId : ℕ) :
    Returns (Edits peers call w) (cancelBonusTargetEscrow call w offerId) := by
  refine Returns.guard fun hactive ↦ Returns.guard fun _ ↦ ?_
  exact closeWithRefund_edits (by simpa using hactive) _

theorem cancelExpiredBonusTargetEscrow_edits (offerId : ℕ) :
    Returns (Edits peers call w) (cancelExpiredBonusTargetEscrow call w offerId) := by
  refine Returns.guard fun hactive ↦ Returns.guard fun _ ↦ ?_
  exact closeWithRefund_edits (by simpa using hactive) _

theorem cancelExpiredBonusTargetEscrowEntry_edits (offerId : ℕ) :
    Returns (Edits peers call w) (cancelExpiredBonusTargetEscrowEntry call w offerId) := by
  unfold cancelExpiredBonusTargetEscrowEntry
  dsimp only
  split
  · next helig => exact closeWithRefund_edits helig.1 _
  · exact ReflTransGen.refl

theorem extendBonusTargetEscrowExpiry_edits (offerId newExpiresAt : ℕ) :
    Returns (Edits peers call w) (extendBonusTargetEscrowExpiry call w offerId newExpiresAt) := by
  refine Returns.guard fun _ ↦ Returns.guard fun _ ↦ Returns.guard fun _ ↦ ?_
  refine Returns.seq fun _ _ ↦ Returns.guard fun _ ↦ Returns.guard fun _ ↦ ?_
  refine Returns.seq fun maxExpiresAt _ ↦ Returns.guard fun _ ↦ ?_
  have hextend := @Edit.extend _ peers.port call.timestamp call.sender w offerId
    { w.router.offers offerId with expiresAt := newExpiresAt } rfl rfl
  exact (ReflTransGen.single hextend).tail (.settings ⟨rfl, rfl, rfl, rfl, rfl⟩)

theorem closeOfferForAutoFurnace_edits (offerId : ℕ) :
    Returns (fun r ↦ Edits peers call w r.1) (closeOfferForAutoFurnace call w offerId) := by
  refine Returns.guard fun hactive ↦ Returns.guard fun _ ↦ Returns.guard fun _ ↦ ?_
  refine Returns.guard fun _ ↦ ?_
  exact Outcome.bind (closeOffer_edits (by simpa using hactive)) fun w₁ h₁ ↦ h₁

theorem enterFurnaceWithClaimFor_edits (s : AutoFurnaceSnapshot) (p : AutoFurnacePrep) :
    Returns (fun r ↦ Edits peers call w r.1) (enterFurnaceWithClaimFor peers call w s p) := by
  refine Returns.seq fun r hr ↦ Returns.guard fun _ ↦ ?_
  rw [externalCall_eq_ok] at hr
  have happroved : Edits peers call w (forceApprove w p.furnaceAddr s.claimIn) := Edits.claim _
  have houter := peers.enterWithClaimFor_outside hr
  exact (happroved.trans (Edits.outside houter)).trans (Edits.claim _)

theorem executeAutoFurnace_edits (offerId deadline : ℕ) :
    Returns (Edits peers call w) (executeAutoFurnace peers call w offerId deadline) := by
  refine Returns.guard fun _ ↦ Returns.guard fun _ ↦ Returns.guard fun hactive ↦ ?_
  refine Returns.guard fun _ ↦ Returns.seq fun _ _ ↦ ?_
  refine Edits.bindFst (closeOfferForAutoFurnace_edits offerId) fun r _ ↦ ?_
  refine Returns.seq fun p _ ↦ ?_
  refine Edits.before ?_ (Edits.bindFst (enterFurnaceWithClaimFor_edits r.2 p) fun r _ ↦ ?_)
  · split
    · exact Edits.emit _
    · exact .refl
  · exact Edits.settings ⟨rfl, rfl, rfl, rfl, rfl⟩

/-! ## Every entry point -/

theorem onRouter_edits {x : Except Error RouterState} (hx : Returns (SameIndex w.router) x) :
    Returns (Edits peers call w) (onRouter w x) :=
  Outcome.bind hx fun _ hr ↦ Edits.settings hr

theorem exec_edits (op : Op) : Returns (Edits peers call w) (exec peers call w op) := by
  cases op with
  | listLock tokenId minClaimOut expiresAtTime => exact listLock_edits _ _ _
  | delistLock tokenId => exact delistLock_edits _
  | cancelExpiredListing tokenId => exact cancelExpiredListing_edits _
  | cancelExpiredListingBatch tokenIds =>
      exact foldlM_edits (fun w id ↦ cancelExpiredListingEntry_edits id) tokenIds w
  | cleanupStaleListing tokenId => exact cleanupStaleListing_edits _
  | emergencyDelist tokenId => exact emergencyDelist_edits _
  | sellLockToFurnace tokenId minClaimOut deadline => exact sellLockToFurnace_edits _ _ _
  | sellListedLockToFurnace tokenId deadline => exact sellListedLockToFurnace_edits _ _
  | createBonusTargetEscrowWithTarget targetBonusBps budgetClaim durationSeconds createAutoMax
      escrowTtlSeconds destinationLockId slippageBps =>
      exact createBonusTargetEscrowWithTarget_edits _ _ _ _ _ _ _
  | cancelBonusTargetEscrow offerId => exact cancelBonusTargetEscrow_edits _
  | cancelExpiredBonusTargetEscrow offerId => exact cancelExpiredBonusTargetEscrow_edits _
  | cancelExpiredBonusTargetEscrowBatch offerIds =>
      exact foldlM_edits (fun w id ↦ cancelExpiredBonusTargetEscrowEntry_edits id) offerIds w
  | extendBonusTargetEscrowExpiry offerId newExpiresAt =>
      exact extendBonusTargetEscrowExpiry_edits _ _
  | executeAutoFurnace offerId deadline => exact executeAutoFurnace_edits _ _
  | setGuardian guardian =>
      refine onRouter_edits (Returns.seq fun _ _ ↦ Returns.guard fun _ ↦ Returns.guard fun _ ↦ ?_)
      exact Returns.seq fun _ _ ↦ ⟨rfl, rfl, rfl, rfl, rfl⟩
  | setBonusTargetEscrowParams minBudget maxDiscountBps =>
      refine onRouter_edits (Returns.seq fun _ _ ↦ ?_)
      refine Returns.guard fun _ ↦ Returns.guard fun _ ↦ Returns.guard fun _ ↦ ?_
      exact Returns.guard fun _ ↦ ⟨rfl, rfl, rfl, rfl, rfl⟩
  | pauseTrading paused =>
      refine onRouter_edits (Returns.seq fun _ _ ↦ ?_)
      split
      · exact ⟨rfl, rfl, rfl, rfl, rfl⟩
      · exact ⟨rfl, rfl, rfl, rfl, rfl⟩
  | setSettlementKeeper keeper allowed =>
      refine onRouter_edits (Returns.seq fun _ _ ↦ ?_)
      exact Returns.guard fun _ ↦ Returns.guard fun _ ↦ ⟨rfl, rfl, rfl, rfl, rfl⟩
  | transferOwnership newOwner =>
      refine onRouter_edits (Returns.seq fun _ _ ↦ ?_)
      exact Returns.guard fun _ ↦ Returns.seq fun _ _ ↦ ⟨rfl, rfl, rfl, rfl, rfl⟩
  | acceptOwnership =>
      refine onRouter_edits (Returns.guard fun _ ↦ ?_)
      exact Returns.seq fun _ _ ↦ ⟨rfl, rfl, rfl, rfl, rfl⟩

end ClaimRush.MarketRouter
