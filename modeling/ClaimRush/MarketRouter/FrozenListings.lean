import ClaimRush.MarketRouter.BundleRuns
import ClaimRush.VeClaimNFT.Frozen

/-!
# Listings and frozen locks

The router and the lock contract both record what is listed.  While the router is the
market of the lock contract, a listing is active exactly while its lock is frozen.
-/

open Function Relation

namespace ClaimRush.MarketRouter

open VeClaimNFT (World IShareholderRoyalties VeState)

variable {R : Type} {port : IShareholderRoyalties R} {answers : Answers} {call : Call}
  {w w' w'' : RouterWorld (Bundle R)}

/-- The listing is active exactly while the lock is frozen, for the owner of the lock. -/
structure Mirrored (w : RouterWorld (Bundle R)) (tokenId : ℕ) : Prop where
  active_iff : (w.router.listings tokenId).active = true ↔ w.outer.ve.Frozen tokenId
  seller : (w.router.listings tokenId).active = true →
    (w.router.listings tokenId).seller = w.outer.ve.owners tokenId

/-- The listing, the owner and the lock of a token stay as they are. -/
structure SameListing (tokenId : ℕ) (w w' : RouterWorld (Bundle R)) : Prop where
  listing : w'.router.listings tokenId = w.router.listings tokenId
  owner : w'.outer.ve.owners tokenId = w.outer.ve.owners tokenId
  lock : w'.outer.ve.locks tokenId = w.outer.ve.locks tokenId

theorem SameListing.trans {tokenId : ℕ} (h : SameListing tokenId w w')
    (h' : SameListing tokenId w' w'') : SameListing tokenId w w'' :=
  ⟨h'.listing.trans h.listing, h'.owner.trans h.owner, h'.lock.trans h.lock⟩

theorem SameListing.mirrored {tokenId : ℕ} (h : SameListing tokenId w w')
    (hw : Mirrored w tokenId) : Mirrored w' tokenId := by
  constructor
  · rw [h.listing, VeState.Frozen, h.owner, h.lock]
    exact hw.active_iff
  · rw [h.listing, h.owner]
    exact hw.seller

/-- The records stay mirrored, and the listings that are left are as they were. -/
def Thaws (w w' : RouterWorld (Bundle R)) : Prop :=
  (∀ id, Mirrored w id) → (∀ id, Mirrored w' id) ∧
    ∀ id, (w'.router.listings id).active = true → SameListing id w w'

namespace Thaws

theorem trans (h : Thaws w w') (h' : Thaws w' w'') : Thaws w w'' := by
  intro hw
  obtain ⟨hw', hsame⟩ := h hw
  obtain ⟨hw'', hsame'⟩ := h' hw'
  refine ⟨hw'', fun id hactive ↦ ?_⟩
  have hlast := hsame' id hactive
  rw [hlast.listing] at hactive
  exact (hsame id hactive).trans hlast

theorem bind {f : RouterWorld (Bundle R) → Except Error (RouterWorld (Bundle R))}
    {x : Except Error (RouterWorld (Bundle R))} (hx : Returns (Thaws w) x)
    (hf : ∀ w₁, Thaws w w₁ → Returns (Thaws w₁) (f w₁)) : Returns (Thaws w) (x >>= f) :=
  Outcome.bind hx fun w₁ h₁ ↦ (hf w₁ h₁).weaken fun _ ↦ h₁.trans

/-- No listing changes, and no frozen lock. -/
theorem of_keeps (hlistings : w'.router.listings = w.router.listings)
    (hve : w.outer.ve.KeepsFrozen w'.outer.ve) : Thaws w w' := by
  intro hw
  have hsame (id : ℕ) (hactive : (w'.router.listings id).active = true) : SameListing id w w' := by
    rw [hlistings] at hactive
    have hfrozen := (hw id).active_iff.mp hactive
    exact ⟨congrFun hlistings id, hve.owner id hfrozen, hve.lock id hfrozen⟩
  refine ⟨fun id ↦ ?_, hsame⟩
  by_cases hactive : (w'.router.listings id).active = true
  · exact (hsame id hactive).mirrored (hw id)
  · refine ⟨⟨fun h ↦ absurd h hactive, fun hfrozen ↦ ?_⟩, fun h ↦ absurd h hactive⟩
    rw [hlistings]
    exact (hw id).active_iff.mpr (hve.frozen id hfrozen)

theorem emit (e : Event) : Thaws w { w with router := w.router.emit e } := of_keeps rfl (.refl _)

/-- The listing of one token ends on both sides. -/
theorem delisted {tokenId : ℕ} (hinactive : (w'.router.listings tokenId).active = false)
    (hother : ∀ id, id ≠ tokenId → w'.router.listings id = w.router.listings id)
    (hve : (w.outer.ve.setLock tokenId
      { w.outer.ve.locks tokenId with listed := false }).Follows w'.outer.ve) : Thaws w w' := by
  have howners : w'.outer.ve.owners = w.outer.ve.owners := hve.keeps VeState.owners fun _ _ ↦ rfl
  have hlocks : w'.outer.ve.locks = update w.outer.ve.locks tokenId
    { w.outer.ve.locks tokenId with listed := false } := hve.keeps VeState.locks fun _ _ ↦ rfl
  intro hw
  have hsame (id : ℕ) (hid : id ≠ tokenId) : SameListing id w w' := by
    refine ⟨hother id hid, congrFun howners id, ?_⟩
    rw [hlocks, update_of_ne hid]
  constructor
  · intro id
    by_cases hid : id = tokenId
    · subst hid
      have hthawed : ¬ w'.outer.ve.Frozen id := VeState.not_frozen (by rw [hlocks, update_self])
      exact ⟨by simp [hinactive, hthawed], by simp [hinactive]⟩
    · exact (hsame id hid).mirrored (hw id)
  · intro id hactive
    refine hsame id ?_
    rintro rfl
    rw [hinactive] at hactive
    cases hactive

end Thaws

/-! ## Listings and sales -/

theorem setListed_follows (tokenId : ℕ) (listed : Bool) :
    Returns (fun w' ↦ w'.router = w.router ∧
        (w.outer.ve.setLock tokenId { w.outer.ve.locks tokenId with listed := listed }).Follows
          w'.outer.ve)
      (setListed call w tokenId listed) := by
  unfold setListed
  exact Outcome.bind (VeClaimNFT.setListed_effect (call.as w.router.self) w.outer tokenId listed)
    fun outer h ↦ ⟨rfl, h.ve⟩

theorem clearListing_spec (tokenId : ℕ) (seller : Address) :
    Returns (fun w' ↦ w'.outer = w.outer ∧
        w'.router.listings = update w.router.listings tokenId {})
      (clearListing call w tokenId seller) := by
  refine Returns.seq fun r hr ↦ ?_
  obtain ⟨l, -, hr⟩ := bind_eq_ok_iff.mp hr
  obtain rfl := Except.ok.inj hr
  exact ⟨rfl, rfl⟩

/-- The listing is gone before the lock is thawed. -/
theorem setListed_thaws {tokenId : ℕ} {w₁ : RouterWorld (Bundle R)} (houter : w₁.outer = w.outer)
    (hinactive : (w₁.router.listings tokenId).active = false)
    (hother : ∀ id, id ≠ tokenId → w₁.router.listings id = w.router.listings id) :
    Returns (Thaws w) (setListed call w₁ tokenId false) := by
  refine (setListed_follows tokenId false).weaken ?_
  rintro w₂ ⟨hrouter, hve⟩
  rw [houter] at hve
  rw [← hrouter] at hinactive hother
  exact .delisted hinactive hother hve

theorem clearListing_gone {tokenId : ℕ} {w₁ : RouterWorld (Bundle R)}
    (h : w₁.router.listings = update w.router.listings tokenId {}) :
    (w₁.router.listings tokenId).active = false ∧
      ∀ id, id ≠ tokenId → w₁.router.listings id = w.router.listings id := by
  rw [h]
  exact ⟨by rw [update_self], fun id hid ↦ update_of_ne hid _ _⟩

theorem delist_thaws (tokenId : ℕ) (seller : Address) (reason : ℕ) :
    Returns (Thaws w) (delist call w tokenId seller reason) := by
  unfold delist
  refine Outcome.bind (clearListing_spec tokenId seller) fun w₁ h₁ ↦ ?_
  obtain ⟨hinactive, hother⟩ := clearListing_gone h₁.2
  refine Outcome.bind (setListed_thaws h₁.1 hinactive hother) fun w₂ h₂ ↦ ?_
  exact h₂.trans (.emit _)

theorem delistLock_thaws (tokenId : ℕ) : Returns (Thaws w) (delistLock call w tokenId) := by
  refine Returns.guard fun _ ↦ ?_
  dsimp only
  split
  · next hinactive =>
    refine Returns.seq fun tokenOwner _ ↦ Returns.guard fun _ ↦ Returns.guard fun _ ↦ ?_
    refine Outcome.bind (setListed_thaws (w := w) rfl ?_ fun _ _ ↦ rfl) fun w₁ h₁ ↦ ?_
    · simpa using hinactive
    · exact h₁.trans (.emit _)
  · exact Returns.guard fun _ ↦ delist_thaws tokenId _ _

theorem cancelExpiredListingBatch_thaws (tokenIds : List ℕ) :
    Returns (Thaws w) (cancelExpiredListingBatch call w tokenIds) := by
  unfold cancelExpiredListingBatch
  induction tokenIds generalizing w with
  | nil => exact .of_keeps rfl (.refl _)
  | cons tokenId tokenIds ih =>
      rw [List.foldlM_cons]
      refine Thaws.bind ?_ fun w₁ _ ↦ ih
      unfold cancelExpiredListingEntry
      dsimp only
      split
      · exact delist_thaws tokenId _ _
      · exact .of_keeps rfl (.refl _)

/-- A listing that is mirrored is not stale. -/
theorem cleanupStaleListing_reverts (hw : ∀ id, Mirrored w id) (tokenId : ℕ) :
    ∃ e, cleanupStaleListing call w tokenId = .error e := by
  cases hexec : cleanupStaleListing call w tokenId with
  | error e => exact ⟨e, rfl⟩
  | ok w' =>
      obtain ⟨_, -, hexec⟩ := bind_eq_ok_iff.mp hexec
      obtain ⟨_, hactive, hexec⟩ := bind_eq_ok_iff.mp hexec
      obtain ⟨_, hlisted, -⟩ := bind_eq_ok_iff.mp hexec
      have hactive : (w.router.listings tokenId).active = true := by
        simpa using revertIf_eq_ok.mp hactive
      exact absurd ((hw tokenId).active_iff.mp hactive).2 (revertIf_eq_ok.mp hlisted)

/-- Nor is there a frozen lock without its listing. -/
theorem delistLock_reverts (hw : ∀ id, Mirrored w id) {tokenId : ℕ}
    (hinactive : (w.router.listings tokenId).active = false) :
    ∃ e, delistLock call w tokenId = .error e := by
  cases hexec : delistLock call w tokenId with
  | error e => exact ⟨e, rfl⟩
  | ok w' =>
      obtain ⟨_, -, hexec⟩ := bind_eq_ok_iff.mp hexec
      dsimp only at hexec
      rw [if_pos (by simp [hinactive])] at hexec
      obtain ⟨tokenOwner, howner, hexec⟩ := bind_eq_ok_iff.mp hexec
      obtain ⟨_, hlive, -⟩ := bind_eq_ok_iff.mp howner
      obtain ⟨_, -, hexec⟩ := bind_eq_ok_iff.mp hexec
      obtain ⟨_, hlisted, -⟩ := bind_eq_ok_iff.mp hexec
      have hlisted : (w.outer.ve.getLockInfo call.timestamp tokenId).2.2.2 = true := by
        simpa using revertIf_eq_ok.mp hlisted
      have hfrozen : w.outer.ve.Frozen tokenId := ⟨revertIf_eq_ok.mp hlive, hlisted⟩
      rw [(hw tokenId).active_iff.mpr hfrozen] at hinactive
      cases hinactive

theorem autoDelistForSale_thaws (tokenId : ℕ) :
    Returns (Thaws w) (autoDelistForSale call w tokenId) := by
  unfold autoDelistForSale
  refine Returns.guard fun _ ↦ ?_
  dsimp only
  split
  · refine Returns.guard fun _ ↦ Outcome.bind (clearListing_spec tokenId _) fun w₁ h₁ ↦ ?_
    obtain ⟨hinactive, hother⟩ := clearListing_gone h₁.2
    exact setListed_thaws h₁.1 hinactive hother
  · next hinactive => exact setListed_thaws rfl (by simpa using hinactive) fun _ _ ↦ rfl

/-- The calls of the Furnace on the lock contract freeze nothing. -/
theorem LockCall.keepsFrozen {fcall : Furnace.Call} {op : VeClaimNFT.Op}
    {v v' : Furnace.World (Bundle R)} (hop : ∀ tokenId listed, op ≠ .setListed tokenId listed)
    (h : Furnace.LockCall (besideFurnace port) fcall op v v') :
    v.base.ve.KeepsFrozen v'.base.ve := by
  obtain ⟨-, before, base, after, hexec, hbase⟩ := h
  rw [hbase]
  exact (VeClaimNFT.exec_keepsFrozen hop hexec :)

theorem transferAndSell_keepsFrozen (furnace seller : Address) (tokenId minClaimOut : ℕ) :
    Returns (fun r ↦ r.1.router = w.router ∧ w.outer.ve.KeepsFrozen r.1.outer.ve)
      (transferAndSell (wiredPeers port answers) call w furnace seller tokenId minClaimOut) := by
  unfold transferAndSell
  refine Returns.seq fun outer₁ hcheckpoint ↦ Returns.seq fun outer₂ hmoved ↦ ?_
  rw [externalCall_eq_ok] at hcheckpoint
  obtain ⟨royalties, rfl⟩ := checkpointTransfer_royalties hcheckpoint
  refine Returns.seq fun r hsold ↦ ?_
  rw [externalCall_eq_ok] at hsold
  obtain ⟨v, hv, hlocked⟩ := sellReceivedLock_lockCall (toOption_eq_some.mp hsold)
  have hmoves : ∀ id listed, VeClaimNFT.Op.safeTransferFrom seller furnace tokenId ≠
      .setListed id listed := fun _ _ h ↦ by cases h
  have hburns : ∀ id listed, VeClaimNFT.Op.furnaceBurnAndWithdraw tokenId
      outer₂.royalties.furnace.self ≠ .setListed id listed := fun _ _ h ↦ by cases h
  refine ⟨rfl, .trans (VeClaimNFT.exec_keepsFrozen hmoves hmoved :) ?_⟩
  rw [hv]
  exact (LockCall.keepsFrozen hburns hlocked :)

theorem transferAndSell_thaws (furnace seller : Address) (tokenId minClaimOut : ℕ) :
    Returns (fun r ↦ Thaws w r.1)
      (transferAndSell (wiredPeers port answers) call w furnace seller tokenId minClaimOut) :=
  (transferAndSell_keepsFrozen furnace seller tokenId minClaimOut).weaken fun _ h ↦
    .of_keeps (congrArg RouterState.listings h.1) h.2

theorem sellLockToFurnace_thaws (tokenId minClaimOut deadline : ℕ) :
    Returns (Thaws w)
      (sellLockToFurnace (wiredPeers port answers) call w tokenId minClaimOut deadline) := by
  unfold sellLockToFurnace
  refine Returns.guard fun _ ↦ Returns.guard fun _ ↦ Returns.seq fun seller _ ↦ ?_
  refine Returns.guard fun _ ↦ Returns.seq fun furnace _ ↦ ?_
  refine Returns.guard fun _ ↦ Returns.guard fun _ ↦ ?_
  refine Thaws.bind (autoDelistForSale_thaws tokenId) fun w₁ _ ↦ ?_
  refine Outcome.bind (transferAndSell_thaws furnace seller tokenId minClaimOut) fun r hr ↦ ?_
  exact Returns.guard fun _ ↦ hr.trans (.emit _)

theorem sellListedLockToFurnace_thaws (tokenId deadline : ℕ) :
    Returns (Thaws w)
      (sellListedLockToFurnace (wiredPeers port answers) call w tokenId deadline) := by
  unfold sellListedLockToFurnace
  refine Returns.guard fun _ ↦ Returns.guard fun _ ↦ Returns.guard fun _ ↦ ?_
  refine Returns.guard fun _ ↦ Returns.guard fun _ ↦ Returns.seq fun _ _ ↦ ?_
  refine Returns.guard fun _ ↦ Returns.seq fun _ _ ↦ ?_
  refine Returns.guard fun _ ↦ Returns.guard fun _ ↦ Returns.guard fun _ ↦ ?_
  refine Returns.seq fun furnace _ ↦ Returns.guard fun _ ↦ ?_
  split
  · trivial
  next quoteClaimOut _ _ =>
  refine Returns.guard fun _ ↦ Thaws.bind (delist_thaws tokenId _ _) fun w₁ _ ↦ ?_
  refine Outcome.bind (transferAndSell_thaws furnace _ tokenId quoteClaimOut) fun r hr ↦ ?_
  exact Returns.guard fun _ ↦ Returns.guard fun _ ↦ hr.trans (.emit _)

/-! ## Offers -/

/-- The lock contract and the listings are left alone. -/
structure Beside (w w' : RouterWorld (Bundle R)) : Prop where
  ve : w'.outer.ve = w.outer.ve
  listings : w'.router.listings = w.router.listings

theorem Beside.refl (w : RouterWorld (Bundle R)) : Beside w w := ⟨rfl, rfl⟩

theorem Beside.thaws (h : Beside w w') : Thaws w w' := .of_keeps h.listings (h.ve ▸ .refl _)

theorem createOffer_beside (targetBonusBps budgetClaim durationSeconds : ℕ) (createAutoMax : Bool)
    (escrowTtlSeconds destinationLockId slippageBps : ℕ) :
    Returns (fun r ↦ Beside w r.1) (createOffer call w targetBonusBps budgetClaim durationSeconds
      createAutoMax escrowTtlSeconds destinationLockId slippageBps) := by
  have henter (offer : BonusTargetEscrow) (config : BonusTargetConfig) :
      Returns (fun r ↦ Beside w r.1) (enterOffer w offer config) :=
    Returns.seq fun _ _ ↦ Returns.seq fun _ _ ↦ ⟨rfl, rfl⟩
  unfold createOffer
  refine Returns.guard fun _ ↦ Returns.guard fun _ ↦ Returns.seq fun denom _ ↦ ?_
  refine Returns.seq fun discountBps _ ↦ Returns.seq fun terms _ ↦ Returns.seq fun targetEnd _ ↦ ?_
  dsimp only
  split
  · exact Returns.seq fun _ _ ↦ henter _ _
  · exact henter _ _

theorem closeOffer_beside (offerId : ℕ) : Returns (Beside w) (closeOffer w offerId) := by
  unfold closeOffer
  refine Returns.seq fun r hr ↦ ?_
  obtain ⟨l, -, hr⟩ := bind_eq_ok_iff.mp hr
  obtain rfl := Except.ok.inj hr
  exact ⟨rfl, rfl⟩

theorem closeWithRefund_beside (offerId : ℕ) (event : ℕ → Address → ℕ → Event) :
    Returns (Beside w) (closeWithRefund w offerId event) := by
  unfold closeWithRefund
  refine Outcome.bind (closeOffer_beside offerId) fun w₁ h₁ ↦ ?_
  unfold refund
  split
  · refine Returns.seq fun w₂ hw₂ ↦ ?_
    obtain ⟨claim, -, hw₂⟩ := bind_eq_ok_iff.mp hw₂
    obtain rfl := Except.ok.inj hw₂
    exact ⟨h₁.ve, h₁.listings⟩
  · exact ⟨h₁.ve, h₁.listings⟩

theorem cancelExpiredBonusTargetEscrowBatch_thaws (offerIds : List ℕ) :
    Returns (Thaws w) (cancelExpiredBonusTargetEscrowBatch call w offerIds) := by
  unfold cancelExpiredBonusTargetEscrowBatch
  induction offerIds generalizing w with
  | nil => exact (Beside.refl w).thaws
  | cons offerId offerIds ih =>
      rw [List.foldlM_cons]
      refine Thaws.bind ?_ fun w₁ _ ↦ ih
      unfold cancelExpiredBonusTargetEscrowEntry
      dsimp only
      split
      · exact (closeWithRefund_beside offerId _).weaken fun _ h ↦ h.thaws
      · exact (Beside.refl w).thaws

theorem executeAutoFurnace_thaws (offerId deadline : ℕ) :
    Returns (Thaws w) (executeAutoFurnace (wiredPeers port answers) call w offerId deadline) := by
  unfold executeAutoFurnace
  refine Returns.guard fun _ ↦ Returns.guard fun _ ↦ Returns.guard fun _ ↦ ?_
  refine Returns.guard fun _ ↦ Returns.seq fun _ _ ↦ ?_
  have hclosed : Returns (fun r ↦ Beside w r.1) (closeOfferForAutoFurnace call w offerId) := by
    refine Returns.guard fun _ ↦ Returns.guard fun _ ↦ Returns.guard fun _ ↦ ?_
    exact Returns.guard fun _ ↦ Outcome.bind (closeOffer_beside offerId) fun _ h ↦ h
  refine Outcome.bind hclosed ?_
  rintro ⟨w₁, s⟩ h₁
  refine Returns.seq fun p _ ↦ ?_
  have hrouter {r : RouterState} (hr : r = if s.destinationLockId ≠ 0 ∧ p.resolvedLockId = 0 then
      w₁.router.emit (.DestinationLockIneligible offerId s.destinationLockId) else w₁.router) :
      r.listings = w.router.listings := by
    split at hr <;> exact hr ▸ h₁.listings
  generalize hr : (if s.destinationLockId ≠ 0 ∧ p.resolvedLockId = 0 then
    w₁.router.emit (.DestinationLockIneligible offerId s.destinationLockId)
    else w₁.router) = r₁
  have hlistings := hrouter hr.symm
  refine Returns.seq fun r₂ hentered ↦ ?_
  obtain ⟨⟨outer, furnaceTokenId⟩, hcall, hentered⟩ := bind_eq_ok_iff.mp hentered
  obtain ⟨_, -, hentered⟩ := bind_eq_ok_iff.mp hentered
  obtain rfl := Except.ok.inj hentered
  rw [externalCall_eq_ok] at hcall
  obtain ⟨v, amount, d, hv, hlocked⟩ := enterForBuyer_lockCall (toOption_eq_some.mp hcall)
  refine Thaws.of_keeps hlistings ?_
  have hop : ∀ tokenId listed, Furnace.entryOp s.buyer amount p.resolvedLockId d s.createAutoMax ≠
      .setListed tokenId listed := by
    unfold Furnace.entryOp
    split <;> exact fun _ _ h ↦ by cases h
  have hv : outer = afterFurnace v := hv
  have hkeeps : w₁.outer.ve.KeepsFrozen outer.ve := by
    rw [hv]
    exact (LockCall.keepsFrozen hop hlocked :)
  rw [h₁.ve] at hkeeps
  exact hkeeps

/-! ## Every entry point -/

/-- The records stay mirrored, and a listing that is there before and after is the same. -/
def Mirrors (w w' : RouterWorld (Bundle R)) : Prop :=
  (∀ id, Mirrored w id) → (∀ id, Mirrored w' id) ∧
    ∀ id, (w.router.listings id).active = true → (w'.router.listings id).active = true →
      SameListing id w w'

theorem Thaws.mirrors (h : Thaws w w') : Mirrors w w' := fun hw ↦
  ⟨(h hw).1, fun id _ hactive ↦ (h hw).2 id hactive⟩

/-- A lock that is not frozen is listed by its owner. -/
theorem Mirrors.listed {tokenId : ℕ} (hunlisted : (w.outer.ve.locks tokenId).listed = false)
    (howner : w.outer.ve.owners tokenId ≠ 0) {lst : Listing} (hactive : lst.active = true)
    (hseller : lst.seller = w.outer.ve.owners tokenId)
    (hlistings : w'.router.listings = update w.router.listings tokenId lst)
    (hve : (w.outer.ve.setLock tokenId
      { w.outer.ve.locks tokenId with listed := true }).Follows w'.outer.ve) : Mirrors w w' := by
  have howners : w'.outer.ve.owners = w.outer.ve.owners := hve.keeps VeState.owners fun _ _ ↦ rfl
  have hlocks : w'.outer.ve.locks = update w.outer.ve.locks tokenId
    { w.outer.ve.locks tokenId with listed := true } := hve.keeps VeState.locks fun _ _ ↦ rfl
  intro hw
  have hsame (id : ℕ) (hid : id ≠ tokenId) : SameListing id w w' := by
    refine ⟨?_, congrFun howners id, ?_⟩
    · rw [hlistings, update_of_ne hid]
    · rw [hlocks, update_of_ne hid]
  constructor
  · intro id
    by_cases hid : id = tokenId
    · subst hid
      have hfrozen : w'.outer.ve.Frozen id :=
        ⟨by rw [howners]; exact howner, by rw [hlocks, update_self]⟩
      have hlisting : w'.router.listings id = lst := by rw [hlistings, update_self]
      refine ⟨by simp [hlisting, hactive, hfrozen], fun _ ↦ ?_⟩
      rw [hlisting, hseller, howners]
    · exact (hsame id hid).mirrored (hw id)
  · intro id hbefore _
    refine hsame id ?_
    rintro rfl
    exact VeState.not_frozen hunlisted ((hw id).active_iff.mp hbefore)

theorem listLock_mirrors (tokenId minClaimOut expiresAtTime : ℕ) :
    Returns (Mirrors w) (listLock call w tokenId minClaimOut expiresAtTime) := by
  refine Returns.guard fun _ ↦ Returns.guard fun _ ↦ Returns.guard fun _ ↦ ?_
  refine Returns.guard fun _ ↦ Returns.seq fun tokenOwner howner ↦ ?_
  obtain ⟨_, hlive, howner⟩ := bind_eq_ok_iff.mp howner
  rw [revertIf_eq_ok] at hlive
  obtain rfl := Except.ok.inj howner
  refine Returns.guard fun hsender ↦ Returns.guard fun _ ↦ Returns.guard fun _ ↦ ?_
  refine Returns.guard fun hlisted ↦ ?_
  have hlisted : (w.outer.ve.getLockInfo call.timestamp tokenId).2.2.2 = false := by
    simpa using hlisted
  refine Outcome.bind (setListed_follows tokenId true) ?_
  rintro w₁ ⟨hrouter, hve⟩
  have hlistings := congrArg RouterState.listings hrouter
  exact Mirrors.listed hlisted hlive rfl (not_not.mp hsender).symm hlistings hve

theorem exec_mirrors (op : Op) :
    Returns (Mirrors w) (exec (wiredPeers port answers) call w op) := by
  have hthaws {x : Except Error (RouterWorld (Bundle R))} (h : Returns (Thaws w) x) :
      Returns (Mirrors w) x := h.weaken fun _ ↦ Thaws.mirrors
  have hbeside {x : Except Error (RouterWorld (Bundle R))} (h : Returns (Beside w) x) :
      Returns (Mirrors w) x := h.weaken fun _ h ↦ h.thaws.mirrors
  have hsettings {x : Except Error RouterState}
      (h : Returns (fun r ↦ r.listings = w.router.listings) x) :
      Returns (Mirrors w) (onRouter w x) := hbeside (Outcome.bind h fun _ hr ↦ ⟨rfl, hr⟩)
  cases op with
  | listLock tokenId minClaimOut expiresAtTime => exact listLock_mirrors _ _ _
  | delistLock tokenId => exact hthaws (delistLock_thaws _)
  | cancelExpiredListing tokenId =>
      exact hthaws (Returns.guard fun _ ↦ Returns.guard fun _ ↦ Returns.guard fun _ ↦
        delist_thaws _ _ _)
  | cancelExpiredListingBatch tokenIds => exact hthaws (cancelExpiredListingBatch_thaws _)
  | cleanupStaleListing tokenId =>
      refine Returns.iff_forall.mpr fun w' hexec hw ↦ ?_
      obtain ⟨e, herror⟩ := cleanupStaleListing_reverts hw tokenId
      have hexec : cleanupStaleListing call w tokenId = .ok w' := hexec
      rw [herror] at hexec
      cases hexec
  | emergencyDelist tokenId =>
      refine hthaws (Returns.guard fun _ ↦ Returns.guard fun _ ↦ Returns.guard fun _ ↦ ?_)
      exact Returns.seq fun _ _ ↦ Returns.guard fun _ ↦ delist_thaws _ _ _
  | sellLockToFurnace tokenId minClaimOut deadline =>
      exact hthaws (sellLockToFurnace_thaws _ _ _)
  | sellListedLockToFurnace tokenId deadline => exact hthaws (sellListedLockToFurnace_thaws _ _)
  | createBonusTargetEscrowWithTarget targetBonusBps budgetClaim durationSeconds createAutoMax
      escrowTtlSeconds destinationLockId slippageBps =>
      refine hbeside (Returns.guard fun _ ↦ Returns.seq fun _ _ ↦ ?_)
      exact Outcome.bind (createOffer_beside _ _ _ _ _ _ _) fun r hr ↦ ⟨hr.ve, hr.listings⟩
  | cancelBonusTargetEscrow offerId =>
      exact hbeside (Returns.guard fun _ ↦ Returns.guard fun _ ↦ closeWithRefund_beside _ _)
  | cancelExpiredBonusTargetEscrow offerId =>
      exact hbeside (Returns.guard fun _ ↦ Returns.guard fun _ ↦ closeWithRefund_beside _ _)
  | cancelExpiredBonusTargetEscrowBatch offerIds =>
      exact hthaws (cancelExpiredBonusTargetEscrowBatch_thaws _)
  | extendBonusTargetEscrowExpiry offerId newExpiresAt =>
      refine hbeside (Returns.guard fun _ ↦ Returns.guard fun _ ↦ Returns.guard fun _ ↦ ?_)
      refine Returns.seq fun _ _ ↦ Returns.guard fun _ ↦ Returns.guard fun _ ↦ ?_
      exact Returns.seq fun _ _ ↦ Returns.guard fun _ ↦ ⟨rfl, rfl⟩
  | executeAutoFurnace offerId deadline => exact hthaws (executeAutoFurnace_thaws _ _)
  | setGuardian guardian =>
      refine hsettings (Returns.seq fun _ _ ↦ Returns.guard fun _ ↦ Returns.guard fun _ ↦ ?_)
      exact Returns.seq fun _ _ ↦ rfl
  | setBonusTargetEscrowParams minBudget maxDiscountBps =>
      refine hsettings (Returns.seq fun _ _ ↦ Returns.guard fun _ ↦ Returns.guard fun _ ↦ ?_)
      exact Returns.guard fun _ ↦ Returns.guard fun _ ↦ rfl
  | pauseTrading paused =>
      refine hsettings (Returns.seq fun _ _ ↦ ?_)
      split <;> exact rfl
  | setSettlementKeeper keeper allowed =>
      exact hsettings (Returns.seq fun _ _ ↦ Returns.guard fun _ ↦ Returns.guard fun _ ↦ rfl)
  | transferOwnership newOwner =>
      exact hsettings (Returns.seq fun _ _ ↦ Returns.guard fun _ ↦ Returns.seq fun _ _ ↦ rfl)
  | acceptOwnership => exact hsettings (Returns.guard fun _ ↦ Returns.seq fun _ _ ↦ rfl)

/-! ## Runs -/

/-- The router as the market of the lock contract, from a state without listings on, as
long as it stays the market. -/
def marketSystem (port : IShareholderRoyalties R) : TransitionSystem (Config (Bundle R)) where
  init c := (bundleSystem port).Reachable c ∧
    c.world.outer.ve.mineMarket = c.world.router.self ∧
    ∀ id, (c.world.router.listings id).active = false ∧ ¬ c.world.outer.ve.Frozen id
  step c c' := BundleStep port c c' ∧ c'.world.outer.ve.mineMarket = c.world.outer.ve.mineMarket

/-- What holds in every state in which the router is the market. -/
structure MarketSound (c : Config (Bundle R)) : Prop where
  bundle : BundleSound c
  market : c.world.outer.ve.mineMarket = c.world.router.self
  mirrored : ∀ id, Mirrored c.world id

theorem MarketSound.mirrors {c c' : Config (Bundle R)} (h : MarketSound c)
    (hstep : BundleStep port c c') :
    Mirrors c.world c'.world ∧ c'.world.router.self = c.world.router.self := by
  cases hstep with
  | router call answers op hnow hblock hlister hsender hexec =>
      exact ⟨(exec_mirrors op).of_ok hexec,
        ((exec_books h.bundle.apart hsender op).of_ok hexec).placed.self⟩
  | @ve w call op hnow hsender hexec =>
      refine ⟨Thaws.mirrors (.of_keeps rfl (VeClaimNFT.exec_keepsFrozen ?_ hexec)), rfl⟩
      rintro id listed rfl
      have hlisted :=
        (VeClaimNFT.exec_effect _ call c.world.outer (.setListed id listed)).of_ok hexec
      exact hsender (hlisted.sender.trans h.market)
  | token caller op hcaller hexec => exact ⟨Thaws.mirrors (.of_keeps rfl (.refl _)), rfl⟩
  | storage bundle hself => exact ⟨Thaws.mirrors (.of_keeps rfl (.refl _)), rfl⟩

theorem reachable_marketSound {c : Config (Bundle R)} (h : (marketSystem port).Reachable c) :
    MarketSound c := by
  refine h.invariant (I := MarketSound) ?_ ?_
  · rintro c ⟨hreach, hmarket, hnone⟩
    refine ⟨reachable_bundleSound hreach, hmarket, fun id ↦ ?_⟩
    exact ⟨by simp [hnone id], by simp [hnone id]⟩
  · rintro c c' - hc ⟨hstep, hmarket⟩
    obtain ⟨hmirrors, hself⟩ := hc.mirrors hstep
    exact ⟨hc.bundle.step hstep, hmarket.trans (hc.market.trans hself.symm),
      (hmirrors hc.mirrored).1⟩

/-- A step after which the token is still listed. -/
def StaysListed (port : IShareholderRoyalties R) (tokenId : ℕ) (c c' : Config (Bundle R)) : Prop :=
  (marketSystem port).step c c' ∧ (c'.world.router.listings tokenId).active = true

theorem run_sameListing {c c' : Config (Bundle R)} {tokenId : ℕ}
    (h : (marketSystem port).Reachable c)
    (hactive : (c.world.router.listings tokenId).active = true)
    (hrun : ReflTransGen (StaysListed port tokenId) c c') :
    (marketSystem port).Reachable c' ∧ (c'.world.router.listings tokenId).active = true ∧
      SameListing tokenId c.world c'.world := by
  induction hrun with
  | refl => exact ⟨h, hactive, rfl, rfl, rfl⟩
  | tail _ hstep ih =>
      obtain ⟨hreach, hactive', hsame⟩ := ih
      have hsound := reachable_marketSound hreach
      have hmirrors := (hsound.mirrors hstep.1.1).1 hsound.mirrored
      exact ⟨hreach.step hstep.1, hstep.2, hsame.trans (hmirrors.2 tokenId hactive' hstep.2)⟩

/-- While the router is the market, a listing is active exactly while its lock is frozen,
and its seller owns the lock.  As long as the listing stays active no call of anybody
changes the owner, the lock or the listing.  The entry points for records that disagree
always revert. -/
theorem listing_is_frozen_lock {c : Config (Bundle R)} (h : (marketSystem port).Reachable c) :
    (∀ id, (c.world.router.listings id).active = true ↔
      c.world.outer.ve.owners id ≠ 0 ∧ (c.world.outer.ve.locks id).listed = true) ∧
    (∀ id, (c.world.router.listings id).active = true →
      (c.world.router.listings id).seller = c.world.outer.ve.owners id ∧
        ∀ c', ReflTransGen (StaysListed port id) c c' → SameListing id c.world c'.world) ∧
    (∀ (call : Call) id, ∃ e, cleanupStaleListing call c.world id = .error e) ∧
    ∀ (call : Call) id, (c.world.router.listings id).active = false →
      ∃ e, delistLock call c.world id = .error e := by
  have hmirrored := (reachable_marketSound h).mirrored
  refine ⟨fun id ↦ (hmirrored id).active_iff, fun id hactive ↦ ⟨(hmirrored id).seller hactive, ?_⟩,
    fun call id ↦ cleanupStaleListing_reverts hmirrored id,
    fun call id hinactive ↦ delistLock_reverts hmirrored hinactive⟩
  exact fun c' hrun ↦ (run_sameListing h hactive hrun).2.2

/-! ## A listing in the deployed bundle -/

/-- The Furnace creates a lock for account 7. -/
def lockedOuter : Except Error (World (Bundle Unit)) := do
  let outer ← wiredOuter
  VeClaimNFT.exec (besideFurnace VeClaimNFT.acceptingPort) (marketCall 199 3).toCall outer
    (.createLockFor 7 (1500 * 10 ^ 18) 604800 false)

/-- Account 7 lists the lock, and the Furnace creates another one. -/
def frozenRun (outer : World (Bundle Unit)) :
    Except Error (RouterWorld (Bundle Unit) × World (Bundle Unit)) := do
  let w ← exec (wiredPeers VeClaimNFT.acceptingPort wiredAnswers) (marketCall 299 7)
    { deployedBundle with outer := outer } (.listLock 1 (10 ^ 18) 1000)
  let outer ← VeClaimNFT.exec (besideFurnace VeClaimNFT.acceptingPort) (marketCall 399 3).toCall
    w.outer (.createLockFor 7 (1500 * 10 ^ 18) 604800 false)
  return (w, outer)

theorem lockedOuter_reachable {outer : World (Bundle Unit)} (h : lockedOuter = .ok outer)
    (hmarket : outer.ve.mineMarket = 6) :
    (marketSystem VeClaimNFT.acceptingPort).Reachable
      ⟨200, 100, { deployedBundle with outer := outer }, {3, 0}⟩ := by
  obtain ⟨wired, hwired, hcreate⟩ := bind_eq_ok_iff.mp h
  obtain ⟨hfurnace, hreach⟩ := wiredOuter_reachable hwired
  have hkept : outer.ve.furnace = wired.ve.furnace :=
    (VeClaimNFT.exec_furnace _ _ _ _).of_ok hcreate
  have hlocked := hreach.step
    (.ve (marketCall 199 3).toCall _ (by simp [marketCall]) (by decide : (3 : ℕ) ≠ 6) hcreate)
  dsimp only at hlocked
  rw [hkept, hfurnace, Set.insert_eq_of_mem (Set.mem_insert 3 _)] at hlocked
  refine .init ⟨hlocked, hmarket, fun id ↦ ⟨rfl, ?_⟩⟩
  obtain ⟨outer₁, hfirst, hsecond⟩ := bind_eq_ok_iff.mp hwired
  have hkeeps : deployedBundle.outer.ve.KeepsFrozen outer.ve :=
    ((VeClaimNFT.exec_keepsFrozen (fun _ _ h ↦ by cases h) hfirst).trans
      (VeClaimNFT.exec_keepsFrozen (fun _ _ h ↦ by cases h) hsecond)).trans
      (VeClaimNFT.exec_keepsFrozen (fun _ _ h ↦ by cases h) hcreate)
  exact fun hfrozen ↦ (hkeeps.frozen id hfrozen).1 rfl

theorem listing_is_frozen_lock_listed : ∃ c c' : Config (Bundle Unit),
    (c.world.router.listings 1).active = true ∧
      (c.world.router.listings 1).seller = c.world.outer.ve.owners 1 ∧
      c.world.outer.ve.owners 2 = 0 ∧ c'.world.outer.ve.owners 2 = 7 ∧
      SameListing 1 c.world c'.world ∧
      (∃ e, cleanupStaleListing (marketCall 499 8) c.world 1 = .error e) ∧
      ∃ e, delistLock (marketCall 499 7) c.world 2 = .error e := by
  have hok : (lockedOuter.toOption.any fun outer ↦ outer.ve.mineMarket = 6 ∧
      (outer.ve.locks 1).listed = false ∧ (frozenRun outer).toOption.any fun r ↦
        (r.1.router.listings 1).active ∧ (r.1.router.listings 2).active = false ∧
          r.1.outer.ve.mineMarket = 6 ∧ r.2.ve.mineMarket = 6 ∧
          r.1.outer.ve.owners 2 = 0 ∧ r.2.ve.owners 2 = 7) = true := by
    decide +kernel
  obtain ⟨outer, houter, hrun⟩ := exists_ok_of_any hok
  obtain ⟨hmarket, hunlisted, hfrozen⟩ := of_decide_eq_true hrun
  obtain ⟨⟨w, later⟩, hw, hfacts⟩ := exists_ok_of_any hfrozen
  obtain ⟨hactive, hinactive, hstill, hlast, hvacant, hminted⟩ := of_decide_eq_true hfacts
  obtain ⟨w₁, hlist, hw⟩ := bind_eq_ok_iff.mp hw
  obtain ⟨outer₁, hcreate, hw⟩ := bind_eq_ok_iff.mp hw
  obtain ⟨rfl, rfl⟩ := Prod.mk.inj (Except.ok.inj hw)
  have hreach := lockedOuter_reachable houter hmarket
  have hlisted := hreach.step ⟨.router (marketCall 299 7) wiredAnswers _ (by simp [marketCall])
    (by simp [marketCall]) (by simp [marketCall]) (by decide : (7 : ℕ) ≠ 6) hlist,
    hstill.trans hmarket.symm⟩
  have hself : w₁.router.self = 6 := by
    have hsound := reachable_marketSound hlisted
    exact hsound.market.symm.trans hstill
  have hlater : StaysListed VeClaimNFT.acceptingPort 1 ⟨300, 300, w₁, {3, 0}⟩
      ⟨400, 300, { w₁ with outer := outer₁ }, insert outer₁.ve.furnace {3, 0}⟩ := by
    refine ⟨⟨.ve (marketCall 399 3).toCall _ (by simp [marketCall]) ?_ hcreate, ?_⟩, hactive⟩
    · change (3 : ℕ) ≠ w₁.router.self
      rw [hself]
      decide
    · exact hlast.trans hstill.symm
  obtain ⟨-, hsellers, hstale, hunlisted'⟩ := listing_is_frozen_lock hlisted
  obtain ⟨hseller, hruns⟩ := hsellers 1 hactive
  exact ⟨_, _, hactive, hseller, hvacant, hminted, hruns _ (.single hlater),
    hstale (marketCall 499 8) 1, hunlisted' (marketCall 499 7) 2 hinactive⟩

end ClaimRush.MarketRouter
