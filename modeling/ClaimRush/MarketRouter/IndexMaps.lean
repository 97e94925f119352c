import ClaimRush.MarketRouter.Edits
import ClaimRush.VeClaimNFT.Logs
import ClaimRush.VeClaimNFT.Denominator
import ClaimRush.VeClaimNFT.Principal

/-!
# The index maps of the router

The arrays hold the active entries of their users, and the global index maps are
true.  A listing is never taken over by another seller: the lock contract moves a
listed lock only into a Furnace, and a Furnace lists nothing.
-/

open Function Relation

namespace ClaimRush.MarketRouter

open VeClaimNFT (World IShareholderRoyalties)

namespace RouterState

/-- The seller of an active listing, `0` without one. -/
def listedBy (r : RouterState) (tokenId : ℕ) : Address :=
  if (r.listings tokenId).active then (r.listings tokenId).seller else 0

/-- The buyer of an active offer, `0` without one. -/
def offeredBy (r : RouterState) (offerId : ℕ) : Address :=
  if (r.offers offerId).active then (r.offers offerId).buyer else 0

end RouterState

/-- The arrays hold the active ids of each user, each once, at the places that the
index records.  Removing an active id succeeds and takes out nothing else, and
pages of any sizes go through an array once. -/
structure UserIds.Exact (l : UserIds) (active : ℕ → Bool) (user : ℕ → Address) : Prop where
  mem_iff : ∀ u id, id ∈ l.ids u ↔ active id = true ∧ user id = u
  nodup : ∀ u, (l.ids u).Nodup
  index_eq : ∀ u i id, (l.ids u)[i]? = some id → l.indexPlusOne id = i + 1
  index_zero : ∀ id, (∀ u, id ∉ l.ids u) → l.indexPlusOne id = 0
  remove : ∀ id, active id = true → ∃ l', l.remove (user id) id = .ok l' ∧
    ∀ u x, x ∈ l'.ids u ↔ x ∈ l.ids u ∧ x ≠ id
  pages : ∀ u (limits : ℕ → ℕ), (∀ offset, 0 < limits offset) →
    pages (l.ids u) limits (l.ids u).length 0 = l.ids u

theorem UserIds.Tracks.exact {l : UserIds} {active : ℕ → Bool} {user : ℕ → Address}
    (h : l.Tracks fun id ↦ if active id then user id else 0)
    (hne : ∀ id, active id = true → user id ≠ 0) : l.Exact active user := by
  have hmem (u : Address) (id : ℕ) : id ∈ l.ids u ↔ active id = true ∧ user id = u := by
    rw [h.mem_iff]
    by_cases hactive : active id = true
    · simp only [hactive, if_true, true_and, and_iff_right_iff_imp]
      rintro rfl
      exact hne id hactive
    · simp only [hactive, Bool.false_eq_true, if_false, false_and, iff_false, not_and]
      exact fun hu heq ↦ hu heq.symm
  constructor
  · exact hmem
  · exact h.enumerates.nodup
  · exact fun u i id hid ↦ h.index_eq hid
  · intro id hid
    by_contra hindex
    have howner := (h.indexed id).mp hindex
    have hactive : active id = true := by
      by_contra hactive
      exact howner (if_neg hactive)
    exact hid (user id) ((hmem _ _).mpr ⟨hactive, rfl⟩)
  · intro id hactive
    obtain ⟨l', hl', htracks, -⟩ := h.remove (if_pos hactive) (hne id hactive)
    refine ⟨l', hl', fun u x ↦ ?_⟩
    rw [htracks.mem_iff, h.mem_iff]
    by_cases hx : x = id
    · simp only [hx, update_self, ne_eq, not_true_eq_false, and_false, iff_false, not_and]
      exact fun hu heq ↦ hu heq.symm
    · simp [hx]
  · intro u limits hlimits
    exact (pages_eq_drop hlimits (by omega)).trans List.drop_zero

variable {S : Type}

/-- Active entries stand in the array of their user.  A listed lock is with its
seller, with a Furnace, or burned. -/
structure Indexed (furnaces : Set Address) (w : RouterWorld S) : Prop where
  listings : w.router.userListings.Tracks w.router.listedBy
  sellers : ∀ id, (w.router.listings id).active = true → (w.router.listings id).seller ≠ 0
  held : ∀ id, (w.router.listings id).active = true → id < w.outer.ve.nextTokenId ∧
    (w.outer.ve.owners id = (w.router.listings id).seller ∨ w.outer.ve.owners id = 0 ∨
      w.outer.ve.owners id ∈ furnaces)
  fresh : ∀ id, w.outer.ve.nextTokenId ≤ id → w.outer.ve.owners id = 0
  furnace : w.outer.ve.furnace ∈ furnaces
  offers : w.router.userBonusTargetEscrows.Tracks w.router.offeredBy
  buyers : ∀ id, (w.router.offers id).active = true → (w.router.offers id).buyer ≠ 0
  unopened : ∀ id, w.router.nextOfferId ≤ id → (w.router.offers id).active = false

variable {peers : Peers S} {furnaces : Set Address} {w : RouterWorld S}

/-- The lock contract hands a lock over only to its Furnace. -/
theorem Indexed.ve (h : Indexed furnaces w) {call : VeClaimNFT.Call} {op : VeClaimNFT.Op}
    {outer : World S} (hexec : VeClaimNFT.exec peers.port call w.outer op = .ok outer) :
    Indexed (insert outer.ve.furnace furnaces) { w with outer := outer } where
  listings := h.listings
  sellers := h.sellers
  held id hactive := by
    obtain ⟨hlt, howner⟩ := h.held id hactive
    have hsale : w.outer.ve.furnace ∈ insert outer.ve.furnace furnaces :=
      Set.mem_insert_of_mem _ h.furnace
    refine ⟨hlt.trans_le (VeClaimNFT.exec_nextTokenId_le hexec), ?_⟩
    cases VeClaimNFT.exec_ownerChange hexec id with
    | none hsame =>
        dsimp only
        rw [hsame]
        exact howner.imp_right (Or.imp_right fun hmem ↦ Set.mem_insert_of_mem _ hmem)
    | mint hid => exact absurd hid hlt.ne
    | burn hburned => exact .inr (.inl hburned)
    | sale _ _ _ hsold => exact .inr (.inr (hsold ▸ hsale))
  fresh id hid := by
    have hle := VeClaimNFT.exec_nextTokenId_le hexec
    have hfree := h.fresh id (hle.trans hid)
    cases VeClaimNFT.exec_ownerChange hexec id with
    | none hsame => exact hsame.trans hfree
    | mint _ _ hnext =>
        change outer.ve.nextTokenId ≤ id at hid
        omega
    | burn hburned => exact hburned
    | sale _ hlive => exact absurd hfree hlive
  furnace := Set.mem_insert _ _
  offers := h.offers
  buyers := h.buyers
  unopened := h.unopened

/-- The rest of the outer world does not matter. -/
theorem Indexed.rest (h : Indexed furnaces w) (royalties : S) (claim : ClaimToken) :
    Indexed furnaces
      { w with outer := { ve := w.outer.ve, royalties := royalties, claim := claim } } :=
  ⟨h.listings, h.sellers, h.held, h.fresh, h.furnace, h.offers, h.buyers, h.unopened⟩

theorem Indexed.outside (h : Indexed furnaces w) {timestamp : ℕ} {outer : World S}
    (hout : Outside peers.port timestamp w.outer outer) :
    Indexed furnaces { w with outer := outer } := by
  cases hout with
  | ve call op htime hwiring hexec =>
      have hfurnace : outer.ve.furnace = op.furnaceAfter w.outer.ve :=
        (VeClaimNFT.exec_furnace peers.port call w.outer op).of_ok hexec
      have hkept : op.furnaceAfter w.outer.ve = w.outer.ve.furnace := by
        cases op <;> first | rfl | exact absurd rfl (hwiring _)
      have hmem : outer.ve.furnace ∈ furnaces := hfurnace ▸ hkept ▸ h.furnace
      rw [← Set.insert_eq_of_mem hmem]
      exact h.ve hexec
  | rest royalties claim => exact h.rest royalties claim

theorem Indexed.settings (h : Indexed furnaces w) {r : RouterState} (hsame : SameIndex w.router r) :
    Indexed furnaces { w with router := r } := by
  obtain ⟨hlistings, hoffers, hnext, huserListings, huserOffers⟩ := hsame
  have hlistedBy : r.listedBy = w.router.listedBy := by
    unfold RouterState.listedBy
    rw [hlistings]
  have hofferedBy : r.offeredBy = w.router.offeredBy := by
    unfold RouterState.offeredBy
    rw [hoffers]
  constructor
  · exact huserListings ▸ hlistedBy ▸ h.listings
  · exact hlistings ▸ h.sellers
  · exact hlistings ▸ h.held
  · exact h.fresh
  · exact h.furnace
  · exact huserOffers ▸ hofferedBy ▸ h.offers
  · exact hoffers ▸ h.buyers
  · exact hoffers ▸ hnext ▸ h.unopened

/-- A listing is entered by the holder of the lock, who is the seller of the listing
that it may replace. -/
theorem Indexed.list (h : Indexed furnaces w) {sender : Address} {tokenId : ℕ} {lst : Listing}
    (hactive : lst.active = true) (hseller : lst.seller = sender)
    (howner : w.outer.ve.owners tokenId = sender) (hsender : sender ≠ 0)
    (hlister : sender ∉ furnaces) :
    Indexed furnaces { w with router := { w.router with
      listings := update w.router.listings tokenId lst
      userListings := w.router.userListings.add sender tokenId } } := by
  have hlistedBy : RouterState.listedBy { w.router with
      listings := update w.router.listings tokenId lst
      userListings := w.router.userListings.add sender tokenId } =
        update w.router.listedBy tokenId sender := by
    funext id
    by_cases hid : id = tokenId
    · simp [RouterState.listedBy, hid, hactive, hseller]
    · simp [RouterState.listedBy, hid]
  refine ⟨?_, fun id hid ↦ ?_, fun id hid ↦ ?_, h.fresh, h.furnace, h.offers, h.buyers, h.unopened⟩
  · rw [hlistedBy]
    by_cases hlisted : (w.router.listings tokenId).active = true
    · have hheld := (h.held tokenId hlisted).2
      rw [howner] at hheld
      have hsame : w.router.listedBy tokenId = sender := by
        rcases hheld with heq | heq | heq
        · simp [RouterState.listedBy, hlisted, heq]
        · exact absurd heq hsender
        · exact absurd heq hlister
      rw [h.listings.add_owned (hsame ▸ hsender), ← hsame, update_eq_self]
      exact h.listings
    · refine h.listings.add ?_ hsender
      simp [RouterState.listedBy, hlisted]
  · by_cases heq : id = tokenId
    · simp [heq, hseller, hsender]
    · simp only [update_of_ne heq] at hid ⊢
      exact h.sellers id hid
  · by_cases heq : id = tokenId
    · subst heq
      refine ⟨not_le.mp fun hle ↦ hsender ?_, .inl ?_⟩
      · exact howner ▸ h.fresh id hle
      · simp [hseller, howner]
    · simp only [update_of_ne heq] at hid ⊢
      exact h.held id hid

theorem Indexed.unlist (h : Indexed furnaces w) {tokenId : ℕ} {l : UserIds}
    (hactive : (w.router.listings tokenId).active = true)
    (hremove : w.router.userListings.remove (w.router.listings tokenId).seller tokenId = .ok l) :
    Indexed furnaces { w with router := { w.router with
      listings := update w.router.listings tokenId {}, userListings := l } } := by
  have hlisted : w.router.listedBy tokenId = (w.router.listings tokenId).seller := if_pos hactive
  have hlistedBy : RouterState.listedBy { w.router with
      listings := update w.router.listings tokenId {}, userListings := l } =
        update w.router.listedBy tokenId 0 := by
    funext id
    by_cases hid : id = tokenId
    · simp [RouterState.listedBy, hid]
    · simp [RouterState.listedBy, hid]
  have hne (id : ℕ) (hid : ((update w.router.listings tokenId {}) id).active = true) :
      id ≠ tokenId := by
    rintro rfl
    rw [update_self] at hid
    cases hid
  refine ⟨?_, fun id hid ↦ ?_, fun id hid ↦ ?_, h.fresh, h.furnace, h.offers, h.buyers, h.unopened⟩
  · obtain ⟨l', hl', htracks, -⟩ := h.listings.remove hlisted (h.sellers tokenId hactive)
    obtain rfl := Except.ok.inj (hl'.symm.trans hremove)
    rw [hlistedBy]
    exact htracks
  · have heq := hne id hid
    simp only [update_of_ne heq] at hid ⊢
    exact h.sellers id hid
  · have heq := hne id hid
    simp only [update_of_ne heq] at hid ⊢
    exact h.held id hid

theorem Indexed.offer (h : Indexed furnaces w) {o : BonusTargetEscrow} (hactive : o.active = true)
    (hbuyer : o.buyer ≠ 0) :
    Indexed furnaces { w with router := { w.router with
      offers := update w.router.offers w.router.nextOfferId o
      nextOfferId := w.router.nextOfferId + 1
      userBonusTargetEscrows :=
        w.router.userBonusTargetEscrows.add o.buyer w.router.nextOfferId } } := by
  have hofferedBy : RouterState.offeredBy { w.router with
      offers := update w.router.offers w.router.nextOfferId o
      nextOfferId := w.router.nextOfferId + 1
      userBonusTargetEscrows :=
        w.router.userBonusTargetEscrows.add o.buyer w.router.nextOfferId } =
      update w.router.offeredBy w.router.nextOfferId o.buyer := by
    funext id
    by_cases hid : id = w.router.nextOfferId
    · simp [RouterState.offeredBy, hid, hactive]
    · simp [RouterState.offeredBy, hid]
  refine ⟨h.listings, h.sellers, h.held, h.fresh, h.furnace, ?_, fun id hid ↦ ?_, fun id hid ↦ ?_⟩
  · rw [hofferedBy]
    refine h.offers.add ?_ hbuyer
    simp [RouterState.offeredBy, h.unopened _ le_rfl]
  · by_cases heq : id = w.router.nextOfferId
    · simp [heq, hbuyer]
    · simp only [update_of_ne heq] at hid ⊢
      exact h.buyers id hid
  · have hlt : w.router.nextOfferId < id := hid
    simp only [update_of_ne hlt.ne']
    exact h.unopened id hlt.le

theorem Indexed.close (h : Indexed furnaces w) {offerId : ℕ} {o : BonusTargetEscrow} {l : UserIds}
    (hactive : (w.router.offers offerId).active = true) (hclosed : o.active = false)
    (hremove : w.router.userBonusTargetEscrows.remove (w.router.offers offerId).buyer offerId
      = .ok l) :
    Indexed furnaces { w with router := { w.router with
      offers := update w.router.offers offerId o, userBonusTargetEscrows := l } } := by
  have hoffered : w.router.offeredBy offerId = (w.router.offers offerId).buyer := if_pos hactive
  have hofferedBy : RouterState.offeredBy { w.router with
      offers := update w.router.offers offerId o, userBonusTargetEscrows := l } =
        update w.router.offeredBy offerId 0 := by
    funext id
    by_cases hid : id = offerId
    · simp [RouterState.offeredBy, hid, hclosed]
    · simp [RouterState.offeredBy, hid]
  refine ⟨h.listings, h.sellers, h.held, h.fresh, h.furnace, ?_, fun id hid ↦ ?_, fun id hid ↦ ?_⟩
  · obtain ⟨l', hl', htracks, -⟩ := h.offers.remove hoffered (h.buyers offerId hactive)
    obtain rfl := Except.ok.inj (hl'.symm.trans hremove)
    rw [hofferedBy]
    exact htracks
  · by_cases heq : id = offerId
    · simp [heq, hclosed] at hid
    · simp only [update_of_ne heq] at hid ⊢
      exact h.buyers id hid
  · by_cases heq : id = offerId
    · simp [heq, hclosed]
    · simp only [update_of_ne heq]
      exact h.unopened id hid

theorem Indexed.extend (h : Indexed furnaces w) {offerId : ℕ} {o : BonusTargetEscrow}
    (hactive : o.active = (w.router.offers offerId).active)
    (hbuyer : o.buyer = (w.router.offers offerId).buyer) :
    Indexed furnaces
      { w with router := { w.router with offers := update w.router.offers offerId o } } := by
  have hupdated (id : ℕ) : (update w.router.offers offerId o id).active =
      (w.router.offers id).active ∧
        (update w.router.offers offerId o id).buyer = (w.router.offers id).buyer := by
    by_cases heq : id = offerId
    · simp [heq, hactive, hbuyer]
    · simp [heq]
  have hofferedBy : RouterState.offeredBy
      { w.router with offers := update w.router.offers offerId o } = w.router.offeredBy := by
    funext id
    simp only [RouterState.offeredBy, hupdated]
  refine ⟨h.listings, h.sellers, h.held, h.fresh, h.furnace, ?_, fun id hid ↦ ?_, fun id hid ↦ ?_⟩
  · rw [hofferedBy]
    exact h.offers
  · rw [(hupdated id).1] at hid
    rw [(hupdated id).2]
    exact h.buyers id hid
  · rw [(hupdated id).1]
    exact h.unopened id hid

theorem Indexed.edit (h : Indexed furnaces w) {timestamp : ℕ} {sender : Address}
    {w' : RouterWorld S} (hsender : sender ∉ furnaces)
    (hedit : Edit peers.port timestamp sender w w') : Indexed furnaces w' := by
  cases hedit with
  | outer hout => exact h.outside hout
  | settings hsame => exact h.settings hsame
  | list tokenId hactive hseller howner hne => exact h.list hactive hseller howner hne hsender
  | unlist tokenId hactive hremove => exact h.unlist hactive hremove
  | offer hactive hbuyer => exact h.offer hactive hbuyer
  | close offerId hactive hclosed hremove => exact h.close hactive hclosed hremove
  | extend offerId hactive hbuyer => exact h.extend hactive hbuyer

theorem Indexed.edits (h : Indexed furnaces w) {call : Call} {w' : RouterWorld S}
    (hsender : call.sender ∉ furnaces) (hedits : Edits peers call w w') : Indexed furnaces w' := by
  induction hedits with
  | refl => exact h
  | tail _ hedit ih => exact ih.edit hsender hedit

/-! ## Runs -/

theorem reachable_indexed {c : Config S} (h : (system peers).Reachable c) :
    Indexed c.furnaces c.world := by
  refine h.invariant (I := fun c ↦ Indexed c.furnaces c.world) ?_ ?_
  · rintro c ⟨hve, hfurnaces, self, royalties, initialOwner, hrouter⟩
    have hfresh := (VeClaimNFT.reachable_sound hve).accounted.fresh
    have hlistedBy : c.world.router.listedBy = fun _ ↦ 0 := by
      funext id
      simp [RouterState.listedBy, hrouter, initial]
    have hofferedBy : c.world.router.offeredBy = fun _ ↦ 0 := by
      funext id
      simp [RouterState.offeredBy, hrouter, initial]
    constructor
    · rw [hlistedBy, hrouter]
      exact UserIds.empty_tracks
    · simp [hrouter, initial]
    · simp [hrouter, initial]
    · exact hfresh
    · rw [hfurnaces]
      exact rfl
    · rw [hofferedBy, hrouter]
      exact UserIds.empty_tracks
    · simp [hrouter, initial]
    · simp [hrouter, initial]
  · intro c c' _ hc hstep
    cases hstep with
    | router call op hnow hblock hsender hexec =>
        exact hc.edits hsender ((exec_edits op).of_ok hexec)
    | ve call op hnow hexec => exact hc.ve hexec
    | rest royalties claim => exact hc.rest royalties claim

/-- In every run, the listing arrays and the offer arrays are exact. -/
theorem index_maps_exact (peers : Peers S) (c : Config S) (h : (system peers).Reachable c) :
    c.world.router.userListings.Exact (fun id ↦ (c.world.router.listings id).active)
        (fun id ↦ (c.world.router.listings id).seller) ∧
      c.world.router.userBonusTargetEscrows.Exact (fun id ↦ (c.world.router.offers id).active)
        (fun id ↦ (c.world.router.offers id).buyer) := by
  have hindexed := reachable_indexed h
  exact ⟨hindexed.listings.exact hindexed.sellers, hindexed.offers.exact hindexed.buyers⟩

/-! ## A router in the deployed bundle -/

/-- A call into the bundle with the router at 6, `delay` seconds after the first. -/
def marketCall (delay sender : ℕ) : Call where
  timestamp := delay + 1
  timestamp_pos := Nat.succ_pos delay
  sender := sender
  codeLength := fun a ↦ if a ≤ 6 then 1 else 0
  delegatedEOA := fun _ ↦ false
  staticcallAddress := fun target selector ↦
    match target, selector with
    | 3, .mineMarket => 6 | 5, .mineMarket => 6 | 5, .mineCore => 4
    | 6, .ve => 1 | 6, .claim => 2 | 6, .royalties => 5
    | _, _ => (VeClaimNFT.laterCall delay sender).staticcallAddress target selector
  isAuthorized := fun _ _ _ _ ↦ false
  onERC721Received := fun _ ↦ true
  blockNumber := delay + 1

/-- A Furnace that is never reached. -/
def idlePeers : Peers Unit where
  port := VeClaimNFT.acceptingPort
  checkpointTransfer _ _ _ _ := none
  furnaceQuoter _ _ _ := 0
  quoteSellLockToFurnaceFromInfo _ _ _ _ _ _ := none
  quoteEnterWithClaim _ _ _ _ _ _ _ _ := none
  sellLockToFurnaceFromMarket _ _ _ _ _ _ := none
  enterWithClaimFor _ _ _ _ _ _ _ _ _ := none
  checkpointTransfer_outside := nofun
  sellLockToFurnaceFromMarket_outside := nofun
  enterWithClaimFor_outside := nofun

/-- The bundle is wired and two locks are created. -/
def lockedRun : List (VeClaimNFT.Call × VeClaimNFT.Op) :=
  let create : VeClaimNFT.Op := .createLockFor 7 (1500 * 10 ^ 18) 604800 false
  [((marketCall 99 9).toCall, .setFurnace 3), ((marketCall 99 9).toCall, .setMineMarket 6),
    ((marketCall 199 3).toCall, create), ((marketCall 199 3).toCall, create)]

/-- Both locks are listed, one listing expires and is cancelled, and the holder
opens an offer. -/
def listedRun : List (Call × Op) :=
  [(marketCall 299 7, .listLock 1 (10 ^ 18) 1000), (marketCall 299 7, .listLock 2 (10 ^ 18) 2000),
    (marketCall 1099 8, .cancelExpiredListingBatch [1, 1]),
    (marketCall 1099 7,
      .createBonusTargetEscrowWithTarget 100 (10000 * 10 ^ 18) 604800 false 0 0 100)]

def outerRun : Except Error (World Unit) :=
  lockedRun.foldlM (fun w c ↦ VeClaimNFT.exec VeClaimNFT.acceptingPort c.1 w c.2)
    VeClaimNFT.bundleWorld

/-- The router is deployed at 6 and wired to the Furnace of the bundle. -/
def marketRun (outer : World Unit) : Except Error (RouterWorld Unit) :=
  listedRun.foldlM (fun w c ↦ exec idlePeers c.1 w c.2)
    ⟨initial 6 outer.ve.claimToken outer.ve.self 5 9, outer⟩

theorem outerRun_reachable {w : World Unit} (h : outerRun = .ok w) :
    (VeClaimNFT.system VeClaimNFT.acceptingPort).Reachable ⟨200, w⟩ := by
  simp only [outerRun, lockedRun, List.foldlM_cons, List.foldlM_nil] at h
  obtain ⟨w₁, hfurnace, h⟩ := bind_eq_ok_iff.mp h
  obtain ⟨w₂, hmarket, h⟩ := bind_eq_ok_iff.mp h
  obtain ⟨w₃, hfirst, h⟩ := bind_eq_ok_iff.mp h
  obtain ⟨w₄, hsecond, h⟩ := bind_eq_ok_iff.mp h
  cases h
  have hstart : (VeClaimNFT.system VeClaimNFT.acceptingPort).Reachable
      ⟨100, VeClaimNFT.bundleWorld⟩ := .init ⟨(marketCall 99 9).toCall, rfl, 1, 2, 9, rfl⟩
  have hwired := hstart.step (.op (marketCall 99 9).toCall _ le_rfl hfurnace)
  have hmarketed := hwired.step (.op (marketCall 99 9).toCall _ le_rfl hmarket)
  have hlocked := hmarketed.step
    (.op (marketCall 199 3).toCall _ (by simp [marketCall]) hfirst)
  exact hlocked.step (.op (marketCall 199 3).toCall _ le_rfl hsecond)

theorem marketRun_reachable {outer : World Unit} {w : RouterWorld Unit}
    (hreach : (VeClaimNFT.system VeClaimNFT.acceptingPort).Reachable ⟨200, outer⟩)
    (hfurnace : outer.ve.furnace = 3) (h : marketRun outer = .ok w) :
    (system idlePeers).Reachable ⟨1100, 1100, w, {3}⟩ := by
  simp only [marketRun, listedRun, List.foldlM_cons, List.foldlM_nil] at h
  obtain ⟨w₁, hfirst, h⟩ := bind_eq_ok_iff.mp h
  obtain ⟨w₂, hsecond, h⟩ := bind_eq_ok_iff.mp h
  obtain ⟨w₃, hcancel, h⟩ := bind_eq_ok_iff.mp h
  obtain ⟨w₄, hoffer, h⟩ := bind_eq_ok_iff.mp h
  cases h
  have hstart : (system idlePeers).Reachable
      ⟨200, 200, ⟨initial 6 outer.ve.claimToken outer.ve.self 5 9, outer⟩, {3}⟩ :=
    .init ⟨hreach, by rw [hfurnace], 6, 5, 9, rfl⟩
  have hlisted := hstart.step (.router (marketCall 299 7) _ (by simp [marketCall])
    (by simp [marketCall]) (by simp [marketCall]) hfirst)
  have hboth := hlisted.step (.router (marketCall 299 7) _ le_rfl le_rfl
    (by simp [marketCall]) hsecond)
  have hcancelled := hboth.step (.router (marketCall 1099 8) _ (by simp [marketCall])
    (by simp [marketCall]) (by simp [marketCall]) hcancel)
  exact hcancelled.step (.router (marketCall 1099 7) _ le_rfl le_rfl (by simp [marketCall]) hoffer)

/-- One batch names the expired listing twice and removes it once. -/
theorem index_maps_exact_batch :
    ∃ outer w, outerRun = .ok outer ∧ marketRun outer = .ok w ∧
      w.router.userListings.ids 7 = [2] ∧ w.router.userBonusTargetEscrows.ids 7 = [1] ∧
      w.router.userListings.Exact (fun id ↦ (w.router.listings id).active)
        (fun id ↦ (w.router.listings id).seller) ∧
      w.router.userBonusTargetEscrows.Exact (fun id ↦ (w.router.offers id).active)
        (fun id ↦ (w.router.offers id).buyer) := by
  have hlocked : (outerRun.toOption.any fun outer ↦ outer.ve.furnace = 3 ∧
      (marketRun outer).toOption.any fun w ↦ w.router.userListings.ids 7 = [2] ∧
        w.router.userBonusTargetEscrows.ids 7 = [1]) = true := by
    decide +kernel
  obtain ⟨outer, houter, hrun⟩ := exists_ok_of_any hlocked
  obtain ⟨hfurnace, hmarket⟩ := of_decide_eq_true hrun
  obtain ⟨w, hw, hids⟩ := exists_ok_of_any hmarket
  obtain ⟨hlistings, hoffers⟩ := of_decide_eq_true hids
  have hreach := marketRun_reachable (outerRun_reachable houter) hfurnace hw
  exact ⟨outer, w, houter, hw, hlistings, hoffers, index_maps_exact idlePeers _ hreach⟩

end ClaimRush.MarketRouter
