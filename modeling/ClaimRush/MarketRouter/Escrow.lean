import ClaimRush.Lib.Escrow
import ClaimRush.MarketRouter.IndexMaps
import ClaimRush.MarketRouter.Settlements

/-!
# The escrow of the router

The offers of the router are the entries of an escrow: its calls open them, and settle
them with a refund or with an entry into the Furnace.  All other calls leave them alone.
-/

open Function

namespace ClaimRush.MarketRouter

open VeClaimNFT (World IShareholderRoyalties)

/-- What an event says about the escrow. -/
def Event.escrow : Event → Option (EscrowEvent Address)
  | .BonusTargetEscrowCreated escrowId buyer _ _ _ _ _ budgetClaim _ =>
      some (.opened escrowId buyer budgetClaim)
  | .BonusTargetEscrowCancelled escrowId buyer refundClaim =>
      some (.settled escrowId buyer refundClaim)
  | .BonusTargetEscrowExpired escrowId buyer refundClaim =>
      some (.settled escrowId buyer refundClaim)
  | .BonusTargetEscrowExecuted escrowId buyer claimIn _ _ _ _ _ =>
      some (.settled escrowId buyer claimIn)
  | _ => none

namespace RouterState

/-- The part of the log that is about the escrow. -/
def escrowLog (r : RouterState) : List (EscrowEvent Address) := r.events.filterMap Event.escrow

/-- The open entry of the offer `offerId`. -/
def escrowEntry (r : RouterState) (offerId : ℕ) : Option (Address × ℕ) :=
  if (r.offers offerId).active then
    some ((r.offers offerId).buyer, (r.offers offerId).fundsRemaining)
  else none

/-- A closed offer keeps neither funds nor a target, and an open one has its target. -/
structure Tidy (r : RouterState) : Prop where
  closed : ∀ id, (r.offers id).active = false →
    (r.offers id).fundsRemaining = 0 ∧ r.bonusTargetConfigs id = {}
  configured : ∀ id, (r.offers id).active = true → (r.bonusTargetConfigs id).configured = true

@[simp] theorem escrowLog_emit (r : RouterState) (e : Event) :
    (r.emit e).escrowLog = r.escrowLog ++ e.escrow.toList := by
  unfold escrowLog emit
  rw [List.filterMap_append]
  cases h : e.escrow <;> simp [h]

end RouterState

/-- The offers as an escrow over the CLAIM of the router. -/
def RouterWorld.escrow {S : Type} (w : RouterWorld S) : Escrow Address where
  next := w.router.nextOfferId
  entries := w.router.escrowEntry
  held := w.outer.claim.balanceOf w.router.self
  log := w.router.escrowLog

variable {R : Type} {port : IShareholderRoyalties R} {answers : Answers} {call : Call}
  {w w' w'' : RouterWorld (Bundle R)}

/-- The contracts stay where they are. -/
structure Placed (w w' : RouterWorld (Bundle R)) : Prop where
  self : w'.router.self = w.router.self
  furnace : w'.outer.royalties.furnace.self = w.outer.royalties.furnace.self
  ve : w'.outer.ve.self = w.outer.ve.self

theorem Placed.trans (h : Placed w w') (h' : Placed w' w'') : Placed w w'' :=
  ⟨h'.self.trans h.self, h'.furnace.trans h.furnace, h'.ve.trans h.ve⟩

/-- The router is neither the Furnace nor the lock contract. -/
structure Apart (w : RouterWorld (Bundle R)) : Prop where
  furnace : w.router.self ≠ w.outer.royalties.furnace.self
  ve : w.router.self ≠ w.outer.ve.self

theorem Apart.placed (h : Apart w) (hw : Placed w w') : Apart w' := by
  constructor
  · rw [hw.self, hw.furnace]
    exact h.furnace
  · rw [hw.self, hw.ve]
    exact h.ve

/-- The call leaves the offers alone and spends nothing. -/
structure Aside (w w' : RouterWorld (Bundle R)) : Prop where
  placed : Placed w w'
  claim : w.outer.claim.Spares w.router.self w'.outer.claim
  offers : w'.router.offers = w.router.offers
  configs : w'.router.bonusTargetConfigs = w.router.bonusTargetConfigs
  next : w'.router.nextOfferId = w.router.nextOfferId
  log : w'.router.escrowLog = w.router.escrowLog

namespace Aside

theorem trans (h : Aside w w') (h' : Aside w' w'') : Aside w w'' := by
  have hclaim := h'.claim
  rw [h.placed.self] at hclaim
  exact ⟨h.placed.trans h'.placed, h.claim.after hclaim, h'.offers.trans h.offers,
    h'.configs.trans h.configs, h'.next.trans h.next, h'.log.trans h.log⟩

/-- Only other parts of the router change. -/
theorem of_router {r : RouterState} (hself : r.self = w.router.self)
    (hoffers : r.offers = w.router.offers)
    (hconfigs : r.bonusTargetConfigs = w.router.bonusTargetConfigs)
    (hnext : r.nextOfferId = w.router.nextOfferId) (hlog : r.escrowLog = w.router.escrowLog) :
    Aside w { w with router := r } :=
  ⟨⟨hself, rfl, rfl⟩, .refl _, hoffers, hconfigs, hnext, hlog⟩

theorem emit (e : Event) (h : e.escrow = none) :
    Aside w { w with router := w.router.emit e } :=
  .of_router rfl rfl rfl rfl (by simp [h])

theorem of_unpriced {tokenId : ℕ} {outer : World (Bundle R)}
    (h : Unpriced tokenId w.outer outer) : Aside w { w with outer := outer } := by
  refine ⟨⟨rfl, congrArg Furnace.FurnaceState.self h.furnace, h.self⟩, ?_, rfl, rfl, rfl, rfl⟩
  rw [h.claim]
  exact .refl _

theorem bind {f : RouterWorld (Bundle R) → Except Error (RouterWorld (Bundle R))}
    {x : Except Error (RouterWorld (Bundle R))} (hx : Returns (Aside w) x)
    (hf : ∀ w₁, Aside w w₁ → Returns (Aside w₁) (f w₁)) : Returns (Aside w) (x >>= f) :=
  Outcome.bind hx fun w₁ h₁ ↦ (hf w₁ h₁).weaken fun _ ↦ h₁.trans

theorem before {w₁ : RouterWorld (Bundle R)} {x : Except Error (RouterWorld (Bundle R))}
    (h : Aside w w₁) (hx : Returns (Aside w₁) x) : Returns (Aside w) x :=
  hx.weaken fun _ ↦ h.trans

end Aside

/-! ## Listings and sales -/

theorem setListed_aside (tokenId : ℕ) (listed : Bool) :
    Returns (Aside w) (setListed call w tokenId listed) := by
  unfold setListed
  exact Outcome.bind (setListed_unpriced tokenId listed) fun outer h ↦ .of_unpriced h

theorem clearListing_aside (tokenId : ℕ) (seller : Address) :
    Returns (Aside w) (clearListing call w tokenId seller) := by
  refine Returns.seq fun r hr ↦ ?_
  obtain ⟨l, -, hr⟩ := bind_eq_ok_iff.mp hr
  obtain rfl := Except.ok.inj hr
  exact .of_router rfl rfl rfl rfl rfl

theorem delist_aside (tokenId : ℕ) (seller : Address) (reason : ℕ) :
    Returns (Aside w) (delist call w tokenId seller reason) := by
  refine Aside.bind (clearListing_aside tokenId seller) fun w₁ _ ↦ ?_
  exact Aside.bind (setListed_aside tokenId false) fun w₂ _ ↦ Aside.emit _ rfl

theorem listLock_aside (tokenId minClaimOut expiresAtTime : ℕ) :
    Returns (Aside w) (listLock call w tokenId minClaimOut expiresAtTime) := by
  refine Returns.guard fun _ ↦ Returns.guard fun _ ↦ Returns.guard fun _ ↦ ?_
  refine Returns.guard fun _ ↦ Returns.seq fun tokenOwner _ ↦ Returns.guard fun _ ↦ ?_
  refine Returns.guard fun _ ↦ Returns.guard fun _ ↦ Returns.guard fun _ ↦ ?_
  refine Aside.before ?_ (Aside.bind (setListed_aside tokenId true) fun w₁ _ ↦ Aside.emit _ rfl)
  exact .of_router rfl rfl rfl rfl rfl

theorem delistLock_aside (tokenId : ℕ) : Returns (Aside w) (delistLock call w tokenId) := by
  refine Returns.guard fun _ ↦ ?_
  dsimp only
  split
  · refine Returns.seq fun tokenOwner _ ↦ Returns.guard fun _ ↦ Returns.guard fun _ ↦ ?_
    refine Aside.before ?_ (Aside.bind (setListed_aside tokenId false) fun w₁ _ ↦ Aside.emit _ rfl)
    exact .of_router rfl rfl rfl rfl rfl
  · exact Returns.guard fun _ ↦ delist_aside tokenId _ _

theorem cancelExpiredListingBatch_aside (tokenIds : List ℕ) :
    Returns (Aside w) (cancelExpiredListingBatch call w tokenIds) := by
  unfold cancelExpiredListingBatch
  induction tokenIds generalizing w with
  | nil => exact .of_router rfl rfl rfl rfl rfl
  | cons tokenId tokenIds ih =>
      rw [List.foldlM_cons]
      refine Aside.bind ?_ fun w₁ _ ↦ ih
      unfold cancelExpiredListingEntry
      dsimp only
      split
      · exact delist_aside tokenId _ _
      · exact Aside.of_router rfl rfl rfl rfl rfl

theorem autoDelistForSale_aside (tokenId : ℕ) :
    Returns (Aside w) (autoDelistForSale call w tokenId) := by
  refine Returns.guard fun _ ↦ ?_
  dsimp only
  split
  · refine Returns.guard fun _ ↦ Aside.bind (clearListing_aside tokenId _) fun w₁ _ ↦ ?_
    exact Aside.before (Aside.emit _ rfl) (setListed_aside tokenId false)
  · refine Aside.before ?_ (setListed_aside tokenId false)
    exact .of_router rfl rfl rfl rfl rfl

variable (port answers)

theorem sellReceivedLock_spares {call : VeClaimNFT.Call} {w : World (Bundle R)}
    {account furnace seller : Address} {tokenId minClaimOut : ℕ} {r : World (Bundle R) × ℕ}
    (hfurnace : account ≠ w.royalties.furnace.self) (hve : account ≠ w.ve.self)
    (h : sellReceivedLock port answers call w furnace seller tokenId minClaimOut = .ok r) :
    w.claim.Spares account r.1.claim ∧ r.1.royalties.furnace.self = w.royalties.furnace.self ∧
      r.1.ve.self = w.ve.self := by
  obtain ⟨v, hv, hself, before, base, after, hexec, hbase⟩ := sellReceivedLock_lockCall h
  refine ⟨?_, ?_, ?_⟩
  · obtain ⟨_, -, h⟩ := bind_eq_ok_iff.mp h
    obtain ⟨v₁, hreceived, h⟩ := bind_eq_ok_iff.mp h
    obtain ⟨⟨v₂, claimOut⟩, hsold, h⟩ := bind_eq_ok_iff.mp h
    obtain rfl := Except.ok.inj h
    obtain rfl := onERC721Received_pending hreceived
    exact (Furnace.sellLockToFurnaceFromMarket_spares _ _ _ hfurnace hve seller tokenId
      minClaimOut).of_ok hsold
  · rw [hv]
    exact hself
  · rw [hv]
    change v.base.ve.self = w.ve.self
    rw [hbase]
    exact (VeClaimNFT.exec_self hexec :)

theorem transferAndSell_aside (hapart : Apart w) (furnace seller : Address)
    (tokenId minClaimOut : ℕ) :
    Returns (fun r ↦ Aside w r.1)
      (transferAndSell (wiredPeers port answers) call w furnace seller tokenId minClaimOut) := by
  unfold transferAndSell
  refine Returns.seq fun outer₁ hcheckpoint ↦ ?_
  rw [externalCall_eq_ok] at hcheckpoint
  have h₁ := Aside.of_unpriced (checkpointTransfer_unpriced port answers tokenId hcheckpoint)
  refine Outcome.bind (safeTransferFrom_unpriced _ _ tokenId) fun outer₂ hmoved ↦ ?_
  have h₂ := h₁.trans (Aside.of_unpriced (w := { w with outer := outer₁ }) hmoved)
  refine Returns.seq fun r hsold ↦ ?_
  rw [externalCall_eq_ok] at hsold
  have hapart₂ := hapart.placed h₂.placed
  obtain ⟨hspares, hself, hve⟩ := sellReceivedLock_spares port answers hapart₂.furnace hapart₂.ve
    (toOption_eq_some.mp hsold)
  have h₃ : Aside { w with outer := outer₂ } { w with outer := r.1 } :=
    ⟨⟨rfl, hself, hve⟩, hspares, rfl, rfl, rfl, rfl⟩
  exact h₂.trans h₃

theorem sellLockToFurnace_aside (hapart : Apart w) (tokenId minClaimOut deadline : ℕ) :
    Returns (Aside w)
      (sellLockToFurnace (wiredPeers port answers) call w tokenId minClaimOut deadline) := by
  unfold sellLockToFurnace
  refine Returns.guard fun _ ↦ Returns.guard fun _ ↦ Returns.seq fun seller _ ↦ ?_
  refine Returns.guard fun _ ↦ Returns.seq fun furnace _ ↦ ?_
  refine Returns.guard fun _ ↦ Returns.guard fun _ ↦ ?_
  refine Aside.bind (autoDelistForSale_aside tokenId) fun w₁ h₁ ↦ ?_
  refine Outcome.bind (transferAndSell_aside port answers (hapart.placed h₁.placed) furnace _
    tokenId _) fun r hr ↦ ?_
  exact Returns.guard fun _ ↦ hr.trans (Aside.emit _ rfl)

theorem sellListedLockToFurnace_aside (hapart : Apart w) (tokenId deadline : ℕ) :
    Returns (Aside w)
      (sellListedLockToFurnace (wiredPeers port answers) call w tokenId deadline) := by
  unfold sellListedLockToFurnace
  refine Returns.guard fun _ ↦ Returns.guard fun _ ↦ Returns.guard fun _ ↦ ?_
  refine Returns.guard fun _ ↦ Returns.guard fun _ ↦ Returns.seq fun _ _ ↦ ?_
  refine Returns.guard fun _ ↦ Returns.seq fun _ _ ↦ ?_
  refine Returns.guard fun _ ↦ Returns.guard fun _ ↦ Returns.guard fun _ ↦ ?_
  refine Returns.seq fun furnace _ ↦ Returns.guard fun _ ↦ ?_
  split
  · trivial
  · refine Returns.guard fun _ ↦ ?_
    refine Aside.bind (delist_aside tokenId _ _) fun w₁ h₁ ↦ ?_
    refine Outcome.bind (transferAndSell_aside port answers (hapart.placed h₁.placed) furnace _
      tokenId _) fun r hr ↦ ?_
    exact Returns.guard fun _ ↦ Returns.guard fun _ ↦ hr.trans (Aside.emit _ rfl)

/-! ## Offers -/

variable {port answers}

/-- What a call leaves of the escrow. -/
structure Books (w w' : RouterWorld (Bundle R)) : Prop where
  placed : Placed w w'
  allowance : ∀ spender, w'.outer.claim.allowance w.router.self spender ≤
    w.outer.claim.allowance w.router.self spender
  tidy : w.router.Tidy → w'.router.Tidy
  steps : Escrow.Steps w.escrow w'.escrow

namespace Books

theorem refl (w : RouterWorld (Bundle R)) : Books w w :=
  ⟨⟨rfl, rfl, rfl⟩, fun _ ↦ le_rfl, id, .refl⟩

theorem trans (h : Books w w') (h' : Books w' w'') : Books w w'' := by
  refine ⟨h.placed.trans h'.placed, fun spender ↦ ?_, h'.tidy ∘ h.tidy, h.steps.trans h'.steps⟩
  have hallowance := h'.allowance spender
  rw [h.placed.self] at hallowance
  exact hallowance.trans (h.allowance spender)

/-- What a call does that leaves the offers alone. -/
theorem of_aside (h : Aside w w') : Books w w' := by
  refine ⟨h.placed, h.claim.allowance, fun htidy ↦ ?_, ?_⟩
  · exact ⟨h.offers ▸ h.configs ▸ htidy.closed, h.offers ▸ h.configs ▸ htidy.configured⟩
  · have hescrow : w'.escrow =
        { w.escrow with held := w'.outer.claim.balanceOf w'.router.self } := by
      unfold RouterWorld.escrow RouterState.escrowEntry
      rw [h.offers, h.next, h.log]
    rw [hescrow, h.placed.self]
    exact .single (.receive h.claim.balance)

/-- The next offer is entered with its budget. -/
theorem enter {offer : BonusTargetEscrow} {config : BonusTargetConfig} (hplaced : Placed w w')
    (hallowance : ∀ spender, w'.outer.claim.allowance w.router.self spender ≤
      w.outer.claim.allowance w.router.self spender)
    (hpaid : w.outer.claim.balanceOf w.router.self + offer.fundsRemaining ≤
      w'.outer.claim.balanceOf w.router.self)
    (hactive : offer.active = true) (hconfigured : config.configured = true)
    (hoffers : w'.router.offers = update w.router.offers w.router.nextOfferId offer)
    (hconfigs : w'.router.bonusTargetConfigs =
      update w.router.bonusTargetConfigs w.router.nextOfferId config)
    (hnext : w'.router.nextOfferId = w.router.nextOfferId + 1)
    (hlog : w'.router.escrowLog = w.router.escrowLog ++
      [.opened w.router.nextOfferId offer.buyer offer.fundsRemaining]) : Books w w' := by
  refine ⟨hplaced, hallowance, fun htidy ↦ ⟨fun id ↦ ?_, fun id ↦ ?_⟩, ?_⟩
  · rw [hoffers, hconfigs]
    by_cases hid : id = w.router.nextOfferId
    · simp [hid, hactive]
    · simpa [hid] using htidy.closed id
  · rw [hoffers, hconfigs]
    by_cases hid : id = w.router.nextOfferId
    · simp [hid, hconfigured]
    · simpa [hid] using htidy.configured id
  · have hentries : w'.router.escrowEntry = update w.router.escrowEntry w.router.nextOfferId
        (some (offer.buyer, offer.fundsRemaining)) := by
      funext id
      by_cases hid : id = w.router.nextOfferId
      · simp [RouterState.escrowEntry, hoffers, hid, hactive]
      · simp [RouterState.escrowEntry, hoffers, hid]
    have hstep := Escrow.Step.enter (e := w.escrow) offer.buyer offer.fundsRemaining hpaid
    unfold RouterWorld.escrow at hstep ⊢
    rw [hnext, hentries, hlog, hplaced.self]
    exact .single hstep

/-- An open offer is closed and its funds leave. -/
theorem settle {offerId : ℕ} {offer : BonusTargetEscrow} (hplaced : Placed w w')
    (hactive : (w.router.offers offerId).active = true) (hclosed : offer.active = false)
    (hempty : offer.fundsRemaining = 0)
    (hclaim : w.outer.claim.Spends w.router.self (w.router.offers offerId).fundsRemaining
      w'.outer.claim)
    (hoffers : w'.router.offers = update w.router.offers offerId offer)
    (hconfigs : w'.router.bonusTargetConfigs = update w.router.bonusTargetConfigs offerId {})
    (hnext : w'.router.nextOfferId = w.router.nextOfferId)
    (hlog : w'.router.escrowLog = w.router.escrowLog ++
      [.settled offerId (w.router.offers offerId).buyer
        (w.router.offers offerId).fundsRemaining]) : Books w w' := by
  refine ⟨hplaced, hclaim.allowance, fun htidy ↦ ⟨fun id ↦ ?_, fun id ↦ ?_⟩, ?_⟩
  · rw [hoffers, hconfigs]
    by_cases hid : id = offerId
    · simp [hid, hempty]
    · simpa [hid] using htidy.closed id
  · rw [hoffers, hconfigs]
    by_cases hid : id = offerId
    · simp [hid, hclosed]
    · simpa [hid] using htidy.configured id
  · have hentries : w'.router.escrowEntry = update w.router.escrowEntry offerId none := by
      funext id
      by_cases hid : id = offerId
      · simp [RouterState.escrowEntry, hoffers, hid, hclosed]
      · simp [RouterState.escrowEntry, hoffers, hid]
    have hopen : w.escrow.entries offerId =
        some ((w.router.offers offerId).buyer, (w.router.offers offerId).fundsRemaining) :=
      if_pos hactive
    have hstep := Escrow.Step.settle hopen hclaim.balance
    unfold RouterWorld.escrow at hstep ⊢
    rw [hnext, hentries, hlog, hplaced.self]
    exact .single hstep

/-- The expiry of an offer changes. -/
theorem extend (offerId expiresAt : ℕ) {r : RouterState} (hself : r.self = w.router.self)
    (hoffers : r.offers = update w.router.offers offerId
      { w.router.offers offerId with expiresAt := expiresAt })
    (hconfigs : r.bonusTargetConfigs = w.router.bonusTargetConfigs)
    (hnext : r.nextOfferId = w.router.nextOfferId) (hlog : r.escrowLog = w.router.escrowLog) :
    Books w { w with router := r } := by
  have hkept (id : ℕ) : (r.offers id).active = (w.router.offers id).active ∧
      (r.offers id).buyer = (w.router.offers id).buyer ∧
      (r.offers id).fundsRemaining = (w.router.offers id).fundsRemaining := by
    rw [hoffers]
    by_cases hid : id = offerId
    · subst hid
      rw [update_self]
      exact ⟨rfl, rfl, rfl⟩
    · rw [update_of_ne hid]
      exact ⟨rfl, rfl, rfl⟩
  refine ⟨⟨hself, rfl, rfl⟩, fun _ ↦ le_rfl, fun htidy ↦ ⟨fun id hid ↦ ?_, fun id hid ↦ ?_⟩, ?_⟩
  · rw [(hkept id).1] at hid
    rw [(hkept id).2.2, hconfigs]
    exact htidy.closed id hid
  · rw [(hkept id).1] at hid
    rw [hconfigs]
    exact htidy.configured id hid
  · have hescrow : RouterWorld.escrow { w with router := r } = w.escrow := by
      unfold RouterWorld.escrow RouterState.escrowEntry
      simp only [hkept, hnext, hlog, hself]
    rw [hescrow]

end Books

theorem createBonusTargetEscrowWithTarget_books (hsender : call.sender ≠ w.router.self)
    (targetBonusBps budgetClaim durationSeconds : ℕ) (createAutoMax : Bool)
    (escrowTtlSeconds destinationLockId slippageBps : ℕ) :
    Returns (Books w) (createBonusTargetEscrowWithTarget call w targetBonusBps budgetClaim
      durationSeconds createAutoMax escrowTtlSeconds destinationLockId slippageBps) := by
  have henter {offer : BonusTargetEscrow} {config : BonusTargetConfig}
      (hbuyer : offer.buyer = call.sender) (hactive : offer.active = true)
      (hconfigured : config.configured = true) :
      Returns (fun r ↦ r.2 = w.router.nextOfferId ∧ r.1.router.offers r.2 = offer ∧
          ∀ e e' : Event, e.escrow = some (.opened r.2 offer.buyer offer.fundsRemaining) →
            e'.escrow = none → Books w { r.1 with router := (r.1.router.emit e).emit e' })
        (enterOffer w offer config) := by
    refine Returns.seq fun claim hclaim ↦ Returns.seq fun nextOfferId hnext ↦ ?_
    obtain ⟨-, rfl⟩ := uint256_eq_ok.mp hnext
    refine ⟨rfl, update_self .., fun e e' he he' ↦ ?_⟩
    rw [hbuyer] at hclaim
    refine Books.enter ⟨rfl, rfl, rfl⟩
      (ClaimToken.transferFrom_spares (Ne.symm hsender) hclaim).allowance ?_ hactive hconfigured
      rfl rfl rfl ?_
    · exact ((ClaimToken.transferFrom_eq_ok hclaim).balance_dst hsender).ge
    · rw [RouterState.escrowLog_emit, RouterState.escrowLog_emit, he, he']
      exact List.append_nil _
  have hcreated : Returns (fun r ↦
      ∀ e e' : Event, e.escrow = some (.opened r.2 (r.1.router.offers r.2).buyer
        (r.1.router.offers r.2).fundsRemaining) → e'.escrow = none →
        Books w { r.1 with router := (r.1.router.emit e).emit e' })
      (createOffer call w targetBonusBps budgetClaim durationSeconds createAutoMax
        escrowTtlSeconds destinationLockId slippageBps) := by
    unfold createOffer
    refine Returns.guard fun _ ↦ Returns.guard fun _ ↦ Returns.seq fun denom _ ↦ ?_
    refine Returns.seq fun discountBps _ ↦ Returns.seq fun terms _ ↦
      Returns.seq fun targetEnd _ ↦ ?_
    have hoffer {x : Except Error (RouterWorld (Bundle R) × ℕ)} {offer : BonusTargetEscrow}
        (h : Returns (fun r ↦ r.2 = w.router.nextOfferId ∧ r.1.router.offers r.2 = offer ∧
          ∀ e e' : Event, e.escrow = some (.opened r.2 offer.buyer offer.fundsRemaining) →
            e'.escrow = none → Books w { r.1 with router := (r.1.router.emit e).emit e' }) x) :
        Returns (fun r ↦ ∀ e e' : Event, e.escrow = some (.opened r.2
          (r.1.router.offers r.2).buyer (r.1.router.offers r.2).fundsRemaining) →
          e'.escrow = none → Books w { r.1 with router := (r.1.router.emit e).emit e' }) x := by
      refine h.weaken ?_
      rintro r ⟨-, rfl, hbooks⟩
      exact hbooks
    dsimp only
    split
    · exact Returns.seq fun _ _ ↦ hoffer (henter rfl rfl rfl)
    · exact hoffer (henter rfl rfl rfl)
  unfold createBonusTargetEscrowWithTarget
  refine Returns.seq fun _ _ ↦ Returns.seq fun _ _ ↦ Outcome.bind hcreated fun r hr ↦ ?_
  exact hr _ _ rfl rfl

/-- The offer `offerId` is closed, and its funds are still with the router. -/
structure Closed (offerId : ℕ) (w w₁ : RouterWorld (Bundle R)) : Prop where
  outer : w₁.outer = w.outer
  self : w₁.router.self = w.router.self
  offers : w₁.router.offers = update w.router.offers offerId
    { w.router.offers offerId with active := false, fundsRemaining := 0 }
  configs : w₁.router.bonusTargetConfigs = update w.router.bonusTargetConfigs offerId {}
  next : w₁.router.nextOfferId = w.router.nextOfferId
  log : w₁.router.escrowLog = w.router.escrowLog

theorem closeOffer_closed (offerId : ℕ) : Returns (Closed offerId w) (closeOffer w offerId) := by
  unfold closeOffer
  refine Returns.seq fun r hr ↦ ?_
  obtain ⟨l, -, hr⟩ := bind_eq_ok_iff.mp hr
  obtain rfl := Except.ok.inj hr
  exact ⟨rfl, rfl, rfl, rfl, rfl, rfl⟩

/-- A closed offer is settled when its funds leave. -/
theorem Closed.books {offerId : ℕ} {w₁ : RouterWorld (Bundle R)} (h : Closed offerId w w₁)
    (hactive : (w.router.offers offerId).active = true) {r : RouterState} {outer : World (Bundle R)}
    (hself : r.self = w₁.router.self) (hoffers : r.offers = w₁.router.offers)
    (hconfigs : r.bonusTargetConfigs = w₁.router.bonusTargetConfigs)
    (hnext : r.nextOfferId = w₁.router.nextOfferId)
    (hlog : r.escrowLog = w₁.router.escrowLog ++ [.settled offerId
      (w.router.offers offerId).buyer (w.router.offers offerId).fundsRemaining])
    (hfurnace : outer.royalties.furnace.self = w.outer.royalties.furnace.self)
    (hve : outer.ve.self = w.outer.ve.self)
    (hclaim : w.outer.claim.Spends w.router.self (w.router.offers offerId).fundsRemaining
      outer.claim) : Books w { router := r, outer := outer } := by
  refine Books.settle ⟨hself.trans h.self, hfurnace, hve⟩ hactive ?_ ?_ hclaim
    (hoffers.trans h.offers) (hconfigs.trans h.configs) (hnext.trans h.next)
    (hlog.trans (by rw [h.log])) <;> rfl

theorem closeWithRefund_books {offerId : ℕ} (hactive : (w.router.offers offerId).active = true)
    {event : ℕ → Address → ℕ → Event}
    (hevent : ∀ id buyer amount, (event id buyer amount).escrow = some (.settled id buyer amount)) :
    Returns (Books w) (closeWithRefund w offerId event) := by
  unfold closeWithRefund
  refine Outcome.bind (closeOffer_closed offerId) fun w₁ hclosed ↦ ?_
  have hlog : (w₁.router.emit (event offerId (w.router.offers offerId).buyer
      (w.router.offers offerId).fundsRemaining)).escrowLog = w₁.router.escrowLog ++
        [.settled offerId (w.router.offers offerId).buyer
          (w.router.offers offerId).fundsRemaining] := by
    rw [RouterState.escrowLog_emit, hevent]
    rfl
  unfold refund
  split
  · refine Returns.seq fun w₂ hw₂ ↦ ?_
    obtain ⟨claim, hclaim, hw₂⟩ := bind_eq_ok_iff.mp hw₂
    obtain rfl := Except.ok.inj hw₂
    rw [hclosed.outer, hclosed.self] at hclaim
    exact hclosed.books hactive rfl rfl rfl rfl hlog (by rw [hclosed.outer])
      (by rw [hclosed.outer]) (ClaimToken.transfer_spends hclaim)
  · exact hclosed.books hactive rfl rfl rfl rfl hlog (by rw [hclosed.outer])
      (by rw [hclosed.outer]) (by rw [hclosed.outer]; exact ⟨Nat.le_add_right _ _, fun _ ↦ le_rfl⟩)

theorem cancelExpiredBonusTargetEscrowBatch_books (offerIds : List ℕ) :
    Returns (Books w) (cancelExpiredBonusTargetEscrowBatch call w offerIds) := by
  unfold cancelExpiredBonusTargetEscrowBatch
  induction offerIds generalizing w with
  | nil => exact .refl w
  | cons offerId offerIds ih =>
      rw [List.foldlM_cons]
      refine Outcome.bind ?_ fun w₁ h₁ ↦ ih.weaken fun _ ↦ Books.trans h₁
      unfold cancelExpiredBonusTargetEscrowEntry
      dsimp only
      split
      · next hexpired => exact closeWithRefund_books hexpired.1 fun _ _ _ ↦ rfl
      · exact Books.refl w

theorem extendBonusTargetEscrowExpiry_books (offerId newExpiresAt : ℕ) :
    Returns (Books w) (extendBonusTargetEscrowExpiry call w offerId newExpiresAt) := by
  refine Returns.guard fun _ ↦ Returns.guard fun _ ↦ Returns.guard fun _ ↦ ?_
  refine Returns.seq fun _ _ ↦ Returns.guard fun _ ↦ Returns.guard fun _ ↦ ?_
  refine Returns.seq fun maxExpiresAt _ ↦ Returns.guard fun _ ↦ ?_
  exact Books.extend offerId newExpiresAt rfl rfl rfl rfl
    ((RouterState.escrowLog_emit _ _).trans (List.append_nil _))

theorem enterForBuyer_spends {call : VeClaimNFT.Call} {w : World (Bundle R)}
    {furnace buyer : Address} {claimIn tokenId durationSeconds : ℕ} {createAutoMax : Bool}
    {minVeOut : ℕ} {r : World (Bundle R) × ℕ}
    (hsender : call.sender ≠ w.royalties.furnace.self)
    (h : enterForBuyer port answers call w furnace buyer claimIn tokenId durationSeconds
      createAutoMax minVeOut = .ok r) :
    w.claim.Spends call.sender claimIn r.1.claim ∧
      r.1.royalties.furnace.self = w.royalties.furnace.self ∧ r.1.ve.self = w.ve.self := by
  obtain ⟨v, amount, d, hv, hself, before, base, after, hexec, hbase⟩ := enterForBuyer_lockCall h
  refine ⟨?_, ?_, ?_⟩
  · obtain ⟨_, -, h⟩ := bind_eq_ok_iff.mp h
    obtain ⟨⟨v₁, entered⟩, hentered, h⟩ := bind_eq_ok_iff.mp h
    obtain rfl := Except.ok.inj h
    exact ((Furnace.enterWithClaimFor_deposits _ _ _ hsender buyer claimIn _).of_ok hentered
      ).1.claim
  · rw [hv]
    exact hself
  · rw [hv]
    change v.base.ve.self = w.ve.self
    rw [hbase]
    exact (VeClaimNFT.exec_self hexec :)

theorem closeOfferForAutoFurnace_closed (offerId : ℕ) :
    Returns (fun r ↦ Closed offerId w r.1 ∧ r.2.buyer = (w.router.offers offerId).buyer ∧
        r.2.claimIn = (w.router.offers offerId).fundsRemaining)
      (closeOfferForAutoFurnace call w offerId) := by
  unfold closeOfferForAutoFurnace
  refine Returns.guard fun _ ↦ Returns.guard fun _ ↦ Returns.guard fun _ ↦ Returns.guard fun _ ↦ ?_
  exact Outcome.bind (closeOffer_closed offerId) fun w₁ h ↦ ⟨h, rfl, rfl⟩

theorem executeAutoFurnace_books (hapart : Apart w) (offerId deadline : ℕ) :
    Returns (Books w)
      (executeAutoFurnace (wiredPeers port answers) call w offerId deadline) := by
  unfold executeAutoFurnace
  refine Returns.guard fun _ ↦ Returns.guard fun _ ↦ Returns.guard fun hactive ↦ ?_
  have hactive : (w.router.offers offerId).active = true := by simpa using hactive
  refine Returns.guard fun _ ↦ Returns.seq fun _ _ ↦ ?_
  refine Outcome.bind (closeOfferForAutoFurnace_closed offerId) fun r ⟨hclosed, hbuyer, hfunds⟩ ↦ ?_
  obtain ⟨w₁, s⟩ := r
  refine Returns.seq fun p _ ↦ ?_
  have hrouter {r : RouterState} (hr : r = if s.destinationLockId ≠ 0 ∧ p.resolvedLockId = 0 then
      w₁.router.emit (.DestinationLockIneligible offerId s.destinationLockId) else w₁.router) :
      r.self = w₁.router.self ∧ r.offers = w₁.router.offers ∧
        r.bonusTargetConfigs = w₁.router.bonusTargetConfigs ∧
        r.nextOfferId = w₁.router.nextOfferId ∧ r.escrowLog = w₁.router.escrowLog := by
    split at hr
    · rw [hr]
      exact ⟨rfl, rfl, rfl, rfl, (RouterState.escrowLog_emit _ _).trans (List.append_nil _)⟩
    · rw [hr]
      exact ⟨rfl, rfl, rfl, rfl, rfl⟩
  generalize hr : (if s.destinationLockId ≠ 0 ∧ p.resolvedLockId = 0 then
    w₁.router.emit (.DestinationLockIneligible offerId s.destinationLockId)
    else w₁.router) = r₁
  obtain ⟨hself, hoffers, hconfigs, hnext, hlog⟩ := hrouter hr.symm
  refine Returns.seq fun r₂ hentered ↦ ?_
  obtain ⟨⟨outer, furnaceTokenId⟩, hcall, hentered⟩ := bind_eq_ok_iff.mp hentered
  obtain ⟨_, -, hentered⟩ := bind_eq_ok_iff.mp hentered
  obtain rfl := Except.ok.inj hentered
  rw [externalCall_eq_ok] at hcall
  have houter := hclosed.outer
  have hself₁ : r₁.self = w.router.self := hself.trans hclosed.self
  have hsender : (call.as r₁.self).sender ≠
      ((forceApprove { w₁ with router := r₁ } p.furnaceAddr s.claimIn).outer
        ).royalties.furnace.self := by
    change r₁.self ≠ w₁.outer.royalties.furnace.self
    rw [hself₁, houter]
    exact hapart.furnace
  obtain ⟨hspends, hfurnace, hve⟩ := enterForBuyer_spends hsender (toOption_eq_some.mp hcall)
  refine hclosed.books hactive hself hoffers hconfigs hnext ?_ ?_ ?_ ?_
  · rw [RouterState.escrowLog_emit, RouterState.escrowLog_emit]
    change (r₁.escrowLog ++ [.settled offerId s.buyer s.claimIn]) ++ [] = _
    rw [List.append_nil, hlog, hbuyer, hfunds]
  · rw [← houter]
    exact hfurnace
  · rw [← houter]
    exact hve
  · change (w₁.outer.claim.approve r₁.self p.furnaceAddr s.claimIn).Spends r₁.self s.claimIn
      outer.claim at hspends
    rw [houter, hself₁, hfunds] at hspends
    change w.outer.claim.Spends _ _ (outer.claim.approve r₁.self p.furnaceAddr 0)
    rw [hself₁]
    exact ClaimToken.approved_spends hspends

/-! ## Every entry point -/

theorem onRouter_aside {x : Except Error RouterState}
    (hx : Returns (fun r ↦ Aside w { w with router := r }) x) : Returns (Books w) (onRouter w x) :=
  Outcome.bind hx fun _ hr ↦ Books.of_aside hr

theorem exec_books (hapart : Apart w) (hsender : call.sender ≠ w.router.self) (op : Op) :
    Returns (Books w) (exec (wiredPeers port answers) call w op) := by
  have haside {x : Except Error (RouterWorld (Bundle R))} (h : Returns (Aside w) x) :
      Returns (Books w) x := h.weaken fun _ ↦ Books.of_aside
  have hemit (r : RouterState) (e : Event) (he : e.escrow = none) :
      (r.emit e).escrowLog = r.escrowLog := by simp [he]
  cases op with
  | listLock tokenId minClaimOut expiresAtTime => exact haside (listLock_aside _ _ _)
  | delistLock tokenId => exact haside (delistLock_aside _)
  | cancelExpiredListing tokenId =>
      exact haside (Returns.guard fun _ ↦ Returns.guard fun _ ↦ Returns.guard fun _ ↦
        delist_aside _ _ _)
  | cancelExpiredListingBatch tokenIds => exact haside (cancelExpiredListingBatch_aside _)
  | cleanupStaleListing tokenId =>
      refine haside (Returns.guard fun _ ↦ Returns.guard fun _ ↦ Returns.guard fun _ ↦ ?_)
      exact Aside.bind (clearListing_aside _ _) fun w₁ _ ↦ Aside.emit _ rfl
  | emergencyDelist tokenId =>
      refine haside (Returns.guard fun _ ↦ Returns.guard fun _ ↦ Returns.guard fun _ ↦ ?_)
      exact Returns.seq fun _ _ ↦ Returns.guard fun _ ↦ delist_aside _ _ _
  | sellLockToFurnace tokenId minClaimOut deadline =>
      exact haside (sellLockToFurnace_aside port answers hapart _ _ _)
  | sellListedLockToFurnace tokenId deadline =>
      exact haside (sellListedLockToFurnace_aside port answers hapart _ _)
  | createBonusTargetEscrowWithTarget targetBonusBps budgetClaim durationSeconds createAutoMax
      escrowTtlSeconds destinationLockId slippageBps =>
      exact createBonusTargetEscrowWithTarget_books hsender _ _ _ _ _ _ _
  | cancelBonusTargetEscrow offerId =>
      refine Returns.guard fun hactive ↦ Returns.guard fun _ ↦ ?_
      exact closeWithRefund_books (by simpa using hactive) fun _ _ _ ↦ rfl
  | cancelExpiredBonusTargetEscrow offerId =>
      refine Returns.guard fun hactive ↦ Returns.guard fun _ ↦ ?_
      exact closeWithRefund_books (by simpa using hactive) fun _ _ _ ↦ rfl
  | cancelExpiredBonusTargetEscrowBatch offerIds =>
      exact cancelExpiredBonusTargetEscrowBatch_books _
  | extendBonusTargetEscrowExpiry offerId newExpiresAt =>
      exact extendBonusTargetEscrowExpiry_books _ _
  | executeAutoFurnace offerId deadline => exact executeAutoFurnace_books hapart _ _
  | setGuardian guardian =>
      refine onRouter_aside (Returns.seq fun _ _ ↦ Returns.guard fun _ ↦ Returns.guard fun _ ↦ ?_)
      exact Returns.seq fun _ _ ↦ .of_router rfl rfl rfl rfl (hemit _ _ rfl)
  | setBonusTargetEscrowParams minBudget maxDiscountBps =>
      refine onRouter_aside (Returns.seq fun _ _ ↦ ?_)
      refine Returns.guard fun _ ↦ Returns.guard fun _ ↦ Returns.guard fun _ ↦ ?_
      exact Returns.guard fun _ ↦ .of_router rfl rfl rfl rfl (hemit _ _ rfl)
  | pauseTrading paused =>
      refine onRouter_aside (Returns.seq fun _ _ ↦ ?_)
      split
      · exact Aside.of_router rfl rfl rfl rfl rfl
      · exact Aside.of_router rfl rfl rfl rfl (hemit _ _ rfl)
  | setSettlementKeeper keeper allowed =>
      refine onRouter_aside (Returns.seq fun _ _ ↦ Returns.guard fun _ ↦ ?_)
      exact Returns.guard fun _ ↦ .of_router rfl rfl rfl rfl (hemit _ _ rfl)
  | transferOwnership newOwner =>
      refine onRouter_aside (Returns.seq fun _ _ ↦ Returns.guard fun _ ↦ ?_)
      exact Returns.seq fun _ _ ↦ .of_router rfl rfl rfl rfl (hemit _ _ rfl)
  | acceptOwnership =>
      refine onRouter_aside (Returns.guard fun _ ↦ ?_)
      exact Returns.seq fun _ _ ↦ .of_router rfl rfl rfl rfl (hemit _ _ rfl)

end ClaimRush.MarketRouter
