import ClaimRush.Furnace.Rewire
import ClaimRush.MarketRouter.Escrow

/-!
# Runs of the bundle

The router with its Furnace, the lock contract and the token, and what the calls of
anybody keep of them.
-/

open Function Relation

namespace ClaimRush.MarketRouter

open VeClaimNFT (World IShareholderRoyalties)

variable {R : Type}

/-- A call on the router or on the lock contract, a call of somebody else on the token, or
a change of the storage of the royalties contract and of the Furnace.  The router makes
no calls but those in its own code, and a Furnace none on the router. -/
inductive BundleStep (port : IShareholderRoyalties R) :
    Config (Bundle R) → Config (Bundle R) → Prop
  | router {c : Config (Bundle R)} {w : RouterWorld (Bundle R)} (call : Call) (answers : Answers)
      (op : Op) (hnow : c.now ≤ call.timestamp) (hblock : c.blockNumber ≤ call.blockNumber)
      (hlister : call.sender ∉ c.furnaces) (hsender : call.sender ≠ c.world.router.self)
      (hexec : exec (wiredPeers port answers) call c.world op = .ok w) :
      BundleStep port c ⟨call.timestamp, call.blockNumber, w, c.furnaces⟩
  | ve {c : Config (Bundle R)} {w : World (Bundle R)} (call : VeClaimNFT.Call)
      (op : VeClaimNFT.Op) (hnow : c.now ≤ call.timestamp)
      (hsender : call.sender ≠ c.world.router.self)
      (hexec : VeClaimNFT.exec (besideFurnace port) call c.world.outer op = .ok w) :
      BundleStep port c ⟨call.timestamp, c.blockNumber, { c.world with outer := w },
        insert w.ve.furnace c.furnaces⟩
  | token {c : Config (Bundle R)} {claim : ClaimToken} (caller : Address) (op : ClaimToken.Op)
      (hcaller : caller ≠ c.world.router.self)
      (hexec : c.world.outer.claim.exec caller op = .ok claim) :
      BundleStep port c
        { c with world := { c.world with outer := { c.world.outer with claim := claim } } }
  | storage (c : Config (Bundle R)) (bundle : Bundle R)
      (hself : bundle.furnace.self = c.world.outer.royalties.furnace.self) :
      BundleStep port c
        { c with world := { c.world with outer := { c.world.outer with royalties := bundle } } }

/-- A router deployed next to a lock contract that has been running.  A new contract has
approved nobody. -/
def bundleSystem (port : IShareholderRoyalties R) : TransitionSystem (Config (Bundle R)) where
  init c := (VeClaimNFT.system (besideFurnace port)).Reachable ⟨c.now, c.world.outer⟩ ∧
    c.furnaces = {c.world.outer.ve.furnace} ∧
    (∃ self royalties initialOwner, c.world.router =
      initial self c.world.outer.ve.claimToken c.world.outer.ve.self royalties initialOwner) ∧
    Apart c.world ∧ c.world.outer.claim.Unapproved c.world.router.self
  step := BundleStep port

variable {port : IShareholderRoyalties R}

/-! ## The lock contract -/

/-- The lock contract changes nothing of the Furnace. -/
theorem furnace_rules :
    VeClaimNFT.HoldingRules (besideFurnace port) (fun _ _ ↦ True)
      fun x y ↦ y.2.furnace = x.2.furnace where
  refl _ := rfl
  trans h h' := h'.trans h
  lock _ := rfl
  checkpointUser _ h := by
    obtain ⟨r, -, rfl⟩ := Option.map_eq_some_iff.mp h
    exact ⟨rfl, trivial, fun _ ↦ id⟩
  pinUserObservedMin h := by
    obtain ⟨r, -, rfl⟩ := Option.map_eq_some_iff.mp h
    rfl

theorem Outside.sound {S : Type} {port : IShareholderRoyalties S} {timestamp : ℕ} {w w' : World S}
    (h : Outside port timestamp w w') (hs : VeClaimNFT.Sound w timestamp) :
    VeClaimNFT.Sound w' timestamp := by
  cases h with
  | ve call op htime hwiring hexec =>
      subst htime
      exact (VeClaimNFT.exec_spec port call hs op).of_ok hexec
  | rest royalties claim => exact ⟨hs.accounted, hs.le_now⟩

theorem Edits.sound {S : Type} {peers : Peers S} {call : Call} {w w' : RouterWorld S}
    (h : Edits peers call w w') (hs : VeClaimNFT.Sound w.outer call.timestamp) :
    VeClaimNFT.Sound w'.outer call.timestamp := by
  induction h with
  | refl => exact hs
  | tail _ hedit ih =>
      cases hedit with
      | outer hout => exact hout.sound ih
      | settings => exact ih
      | list => exact ih
      | unlist => exact ih
      | offer => exact ih
      | close => exact ih
      | extend => exact ih

/-! ## What every step keeps -/

/-- The index arrays and the locks are in order, and the escrow of the router is. -/
structure BundleSound (c : Config (Bundle R)) : Prop where
  indexed : Indexed c.furnaces c.world
  locks : VeClaimNFT.Sound c.world.outer c.now
  apart : Apart c.world
  unapproved : c.world.outer.claim.Unapproved c.world.router.self
  tidy : c.world.router.Tidy
  escrow : c.world.escrow.Sound

theorem BundleSound.aside {c c' : Config (Bundle R)} (h : BundleSound c)
    (hindexed : Indexed c'.furnaces c'.world) (hlocks : VeClaimNFT.Sound c'.world.outer c'.now)
    (hbooks : Books c.world c'.world) : BundleSound c' := by
  refine ⟨hindexed, hlocks, h.apart.placed hbooks.placed, fun spender ↦ ?_, hbooks.tidy h.tidy,
    Escrow.Steps.sound hbooks.steps h.escrow⟩
  have hle := hbooks.allowance spender
  rw [h.unapproved spender] at hle
  rw [hbooks.placed.self]
  exact Nat.le_zero.mp hle

theorem BundleSound.step {c c' : Config (Bundle R)} (h : BundleSound c)
    (hstep : BundleStep port c c') : BundleSound c' := by
  cases hstep with
  | router call answers op hnow hblock hlister hsender hexec =>
      have hedits := (exec_edits op).of_ok hexec
      have hlocks : VeClaimNFT.Sound c.world.outer call.timestamp :=
        ⟨h.locks.accounted, h.locks.le_now.trans hnow⟩
      exact h.aside (h.indexed.edits hlister hedits) (hedits.sound hlocks)
        ((exec_books h.apart hsender op).of_ok hexec)
  | @ve w call op hnow hsender hexec =>
      have hlocks : VeClaimNFT.Sound c.world.outer call.timestamp :=
        ⟨h.locks.accounted, h.locks.le_now.trans hnow⟩
      have hfurnace := (VeClaimNFT.exec_rule furnace_rules call hlocks op).of_ok hexec
      have hspares := VeClaimNFT.exec_spares hexec (Ne.symm hsender) h.apart.ve
      have hindexed : Indexed (insert w.ve.furnace c.furnaces) { c.world with outer := w } :=
        @Indexed.ve _ (wiredPeers port wiredAnswers) _ _ h.indexed _ _ _ hexec
      refine h.aside hindexed ((VeClaimNFT.exec_spec _ call hlocks op).of_ok hexec)
        (Books.of_aside ?_)
      exact ⟨⟨rfl, congrArg Furnace.FurnaceState.self hfurnace, VeClaimNFT.exec_self hexec⟩,
        hspares, rfl, rfl, rfl, rfl⟩
  | token caller op hcaller hexec =>
      refine h.aside (h.indexed.rest _ _) ⟨h.locks.accounted, h.locks.le_now⟩ (Books.of_aside ?_)
      exact ⟨⟨rfl, rfl, rfl⟩, ClaimToken.exec_spares h.unapproved hcaller hexec, rfl, rfl, rfl,
        rfl⟩
  | storage bundle hself =>
      refine h.aside (h.indexed.rest _ _) ⟨h.locks.accounted, h.locks.le_now⟩ (Books.of_aside ?_)
      exact ⟨⟨rfl, hself, rfl⟩, .refl _, rfl, rfl, rfl, rfl⟩

theorem reachable_bundleSound {c : Config (Bundle R)} (h : (bundleSystem port).Reachable c) :
    BundleSound c := by
  refine h.invariant (I := BundleSound) ?_ fun _ _ _ hc hstep ↦ hc.step hstep
  rintro c ⟨hve, hfurnaces, hrouter, hapart, hunapproved⟩
  have hindexed : Indexed c.furnaces c.world :=
    @reachable_indexed _ (wiredPeers port wiredAnswers) c (.init ⟨hve, hfurnaces, hrouter⟩)
  refine ⟨hindexed, VeClaimNFT.reachable_sound hve, hapart, hunapproved, ?_, ?_⟩
  · obtain ⟨self, royalties, initialOwner, hrouter⟩ := hrouter
    rw [hrouter]
    exact ⟨fun _ _ ↦ ⟨rfl, rfl⟩, nofun⟩
  · obtain ⟨self, royalties, initialOwner, hrouter⟩ := hrouter
    unfold RouterWorld.escrow
    rw [hrouter]
    exact Escrow.sound_empty _ _

/-! ## Refunds -/

/-- The offer `offerId` is closed, and its buyer has what was left of it. -/
structure Refunded (offerId : ℕ) (w w' : RouterWorld (Bundle R)) : Prop where
  closed : w'.router.offers = update w.router.offers offerId
    { w.router.offers offerId with active := false, fundsRemaining := 0 }
  paid : Furnace.PaysOut w.outer.claim w'.outer.claim w.router.self
    (w.router.offers offerId).buyer (w.router.offers offerId).fundsRemaining
  logged : w'.router.escrowLog = w.router.escrowLog ++
    [.settled offerId (w.router.offers offerId).buyer (w.router.offers offerId).fundsRemaining]

section Refunds

variable {w : RouterWorld (Bundle R)} {offerId : ℕ}

theorem Indexed.closeOffer {furnaces : Set Address} (h : Indexed furnaces w)
    (hactive : (w.router.offers offerId).active = true) :
    ∃ w₁, closeOffer w offerId = .ok w₁ ∧ Closed offerId w w₁ := by
  have howner : w.router.offeredBy offerId = (w.router.offers offerId).buyer := if_pos hactive
  obtain ⟨l, hl, -⟩ := h.offers.remove howner (h.buyers offerId hactive)
  have hclose : ∃ w₁, MarketRouter.closeOffer w offerId = .ok w₁ := by
    unfold MarketRouter.closeOffer RouterState.removeUserOffer
    dsimp only
    rw [hl]
    exact ⟨_, rfl⟩
  obtain ⟨w₁, hw₁⟩ := hclose
  exact ⟨w₁, hw₁, (closeOffer_closed offerId).of_ok hw₁⟩

theorem Indexed.refund {furnaces : Set Address} (h : Indexed furnaces w)
    (hactive : (w.router.offers offerId).active = true) (hself : w.router.self ≠ 0)
    (hbuyer : w.outer.claim.isRestrictedRecipient (w.router.offers offerId).buyer = false)
    {amount : ℕ} (hfunds : amount ≤ w.outer.claim.balanceOf w.router.self)
    {w₁ : RouterWorld (Bundle R)} (hclosed : Closed offerId w w₁) :
    ∃ w₂, MarketRouter.refund w₁ (w.router.offers offerId).buyer amount = .ok w₂ ∧
      w₂.router = w₁.router ∧ Furnace.PaysOut w.outer.claim w₂.outer.claim w.router.self
        (w.router.offers offerId).buyer amount := by
  by_cases hzero : amount = 0
  · refine ⟨w₁, if_neg (by omega), rfl, (Furnace.PaysOut.nothing hzero).mpr ?_⟩
    rw [hclosed.outer]
  · obtain ⟨claim, hclaim⟩ := ClaimToken.transfer_ok_iff.mpr
      ⟨hself, h.buyers offerId hactive, hbuyer, hfunds⟩
    refine ⟨{ w₁ with outer := { w₁.outer with claim := claim } }, ?_, rfl,
      (Furnace.PaysOut.something hzero).mpr hclaim⟩
    unfold MarketRouter.refund
    rw [if_pos (Nat.pos_of_ne_zero hzero), hclosed.outer, hclosed.self, hclaim]
    rfl

/-- The refund of a funded offer goes through. -/
theorem closeWithRefund_refunds {furnaces : Set Address} (hindexed : Indexed furnaces w)
    (hactive : (w.router.offers offerId).active = true) (hself : w.router.self ≠ 0)
    (hbuyer : w.outer.claim.isRestrictedRecipient (w.router.offers offerId).buyer = false)
    (hfunds : (w.router.offers offerId).fundsRemaining ≤
      w.outer.claim.balanceOf w.router.self)
    {event : ℕ → Address → ℕ → Event}
    (hevent : ∀ id buyer amount, (event id buyer amount).escrow = some (.settled id buyer amount)) :
    ∃ w', closeWithRefund w offerId event = .ok w' ∧ Refunded offerId w w' := by
  obtain ⟨w₁, hclose, hclosed⟩ := hindexed.closeOffer hactive
  obtain ⟨w₂, hrefund, hrouter, hpaid⟩ := hindexed.refund hactive hself hbuyer hfunds hclosed
  refine ⟨_, bind_eq_ok_iff.mpr ⟨w₁, hclose, bind_eq_ok_iff.mpr ⟨w₂, hrefund, rfl⟩⟩, ?_, hpaid, ?_⟩
  · exact (congrArg RouterState.offers hrouter).trans hclosed.offers
  · dsimp only
    rw [RouterState.escrowLog_emit, hevent, hrouter, hclosed.log]
    rfl

end Refunds

/-- The offer `id` in the escrow of the router: an open one was logged once, and a closed
one holds nothing and was settled at most once, with the buyer and the funds it was
opened with. -/
structure OfferLogged (w : RouterWorld (Bundle R)) (id : ℕ) : Prop where
  opened : (w.router.offers id).active = true → w.escrow.history id =
    [.opened id (w.router.offers id).buyer (w.router.offers id).fundsRemaining]
  closed : (w.router.offers id).active = false →
    (w.router.offers id).fundsRemaining = 0 ∧ w.router.bonusTargetConfigs id = {} ∧
      (w.escrow.history id = [] ∨ ∃ buyer amount,
        w.escrow.history id = [.opened id buyer amount, .settled id buyer amount])

theorem BundleSound.offerLogged {c : Config (Bundle R)} (h : BundleSound c) (id : ℕ) :
    OfferLogged c.world id := by
  constructor
  · intro hactive
    exact h.escrow.opened id _ _ (if_pos hactive)
  · intro hinactive
    have hentry : c.world.escrow.entries id = none := if_neg (by simp [hinactive])
    exact ⟨(h.tidy.closed id hinactive).1, (h.tidy.closed id hinactive).2,
      h.escrow.closed id hentry⟩

/-- The escrow owes what its offers hold. -/
theorem BundleSound.escrow_amount {c : Config (Bundle R)} (h : BundleSound c) :
    c.world.escrow.amount = fun id ↦ (c.world.router.offers id).fundsRemaining := by
  funext id
  change ((c.world.router.escrowEntry id).map Prod.snd).getD 0 = _
  unfold RouterState.escrowEntry
  split
  · rfl
  · next hinactive => exact (h.tidy.closed id (by simpa using hinactive)).1.symm

/-- In every run of the router with its Furnace, the lock contract and the token, the CLAIM
of the router covers all open offers together, and every offer is settled at most once.
The buyer can always cancel an open offer, and anybody can once it has expired; either way
the buyer gets exactly what it paid in.  An expired offer is never executed. -/
theorem escrow_solvent {c : Config (Bundle R)} (h : (bundleSystem port).Reachable c) :
    FiniteEntries (fun id ↦ (c.world.router.offers id).fundsRemaining) ∧
      total (fun id ↦ (c.world.router.offers id).fundsRemaining) ≤
        c.world.outer.claim.balanceOf c.world.router.self ∧
      (∀ id, OfferLogged c.world id) ∧
      (∀ id call, (c.world.router.offers id).active = true → c.world.router.self ≠ 0 →
        c.world.outer.claim.isRestrictedRecipient (c.world.router.offers id).buyer = false →
        (call.sender = (c.world.router.offers id).buyer →
          ∃ w', cancelBonusTargetEscrow call c.world id = .ok w' ∧ Refunded id c.world w') ∧
        ((c.world.router.offers id).expiresAt ≤ call.timestamp →
          ∃ w', cancelExpiredBonusTargetEscrow call c.world id = .ok w' ∧ Refunded id c.world w')) ∧
      ∀ id (call : Call) answers deadline,
        (c.world.router.offers id).expiresAt ≤ call.timestamp →
        ∃ e, executeAutoFurnace (wiredPeers port answers) call c.world id deadline = .error e := by
  have hsound := reachable_bundleSound h
  have hamount := hsound.escrow_amount
  have hfinite := hsound.escrow.finite
  have hcovered := hsound.escrow.covered
  unfold Escrow.owed at hcovered
  rw [hamount] at hfinite hcovered
  refine ⟨hfinite, hcovered, hsound.offerLogged, fun id call hactive hself hbuyer ↦ ?_, ?_⟩
  · have hfunds : (c.world.router.offers id).fundsRemaining ≤
        c.world.outer.claim.balanceOf c.world.router.self := (le_total hfinite id).trans hcovered
    have hrefund (event : ℕ → Address → ℕ → Event) (hevent : ∀ id buyer amount,
        (event id buyer amount).escrow = some (.settled id buyer amount)) :=
      closeWithRefund_refunds hsound.indexed hactive hself hbuyer hfunds hevent
    constructor
    · intro hsender
      obtain ⟨w', hw', hrefunded⟩ := hrefund .BonusTargetEscrowCancelled fun _ _ _ ↦ rfl
      refine ⟨w', bind_eq_ok_iff.mpr ⟨(), revertIf_eq_ok.mpr (by simp [hactive]), ?_⟩, hrefunded⟩
      exact bind_eq_ok_iff.mpr ⟨(), revertIf_eq_ok.mpr (fun hne ↦ hne.1 hsender.symm), hw'⟩
    · intro hexpired
      obtain ⟨w', hw', hrefunded⟩ := hrefund .BonusTargetEscrowExpired fun _ _ _ ↦ rfl
      refine ⟨w', bind_eq_ok_iff.mpr ⟨(), revertIf_eq_ok.mpr (by simp [hactive]), ?_⟩, hrefunded⟩
      exact bind_eq_ok_iff.mpr ⟨(), revertIf_eq_ok.mpr (not_lt.mpr hexpired), hw'⟩
  · intro id call answers deadline hexpired
    cases hexec : executeAutoFurnace (wiredPeers port answers) call c.world id deadline with
    | error e => exact ⟨e, rfl⟩
    | ok w' =>
        obtain ⟨_, -, hexec⟩ := bind_eq_ok_iff.mp hexec
        obtain ⟨_, -, hexec⟩ := bind_eq_ok_iff.mp hexec
        obtain ⟨_, -, hexec⟩ := bind_eq_ok_iff.mp hexec
        obtain ⟨_, hexpiry, -⟩ := bind_eq_ok_iff.mp hexec
        exact absurd hexpired (revertIf_eq_ok.mp hexpiry)

/-! ## An offer in the deployed bundle -/

/-- The router at 6 next to the Furnace at 3 and the lock contract, before any call. -/
def deployedBundle : RouterWorld (Bundle Unit) where
  router := initial 6 2 1 5 9
  outer :=
    { ve := VeClaimNFT.initial 1 2 9 100
      royalties := ⟨(), Furnace.initial 3 9 1⟩
      claim :=
        { VeClaimNFT.bundleWorld.claim with
          allowance := fun owner _ ↦ if owner = 6 then 0 else 10 ^ 24 } }

/-- The owner of the lock contract wires it to the Furnace and the router. -/
def wiredOuter : Except Error (World (Bundle Unit)) := do
  let ve (outer : World (Bundle Unit)) (op : VeClaimNFT.Op) :=
    VeClaimNFT.exec (besideFurnace VeClaimNFT.acceptingPort) (marketCall 99 9).toCall outer op
  let outer ← ve deployedBundle.outer (.setFurnace 3)
  ve outer (.setMineMarket 6)

theorem wiredOuter_reachable {outer : World (Bundle Unit)} (h : wiredOuter = .ok outer) :
    outer.ve.furnace = 3 ∧ (bundleSystem VeClaimNFT.acceptingPort).Reachable
      ⟨100, 100, { deployedBundle with outer := outer }, {3, 0}⟩ := by
  obtain ⟨outer₁, hfurnace, hmarket⟩ := bind_eq_ok_iff.mp h
  have hstart : (bundleSystem VeClaimNFT.acceptingPort).Reachable
      ⟨100, 100, deployedBundle, {0}⟩ := by
    refine .init ⟨.init ⟨(marketCall 99 9).toCall, rfl, 1, 2, 9, rfl⟩, rfl, ⟨6, 5, 9, rfl⟩, ?_, ?_⟩
    · exact ⟨by decide, by decide⟩
    · exact fun _ ↦ rfl
  have hwired := hstart.step
    (.ve (marketCall 99 9).toCall _ le_rfl (by decide : (9 : ℕ) ≠ 6) hfurnace)
  have hmarketed := hwired.step
    (.ve (marketCall 99 9).toCall _ le_rfl (by decide : (9 : ℕ) ≠ 6) hmarket)
  have hfirst : outer₁.ve.furnace = 3 := (VeClaimNFT.exec_furnace _ _ _ _).of_ok hfurnace
  have hsecond : outer.ve.furnace = outer₁.ve.furnace :=
    (VeClaimNFT.exec_furnace _ _ _ _).of_ok hmarket
  dsimp only at hmarketed
  rw [hsecond, hfirst, Set.insert_eq_of_mem (Set.mem_insert 3 _)] at hmarketed
  exact ⟨hsecond.trans hfirst, hmarketed⟩

/-- Account 7 opens an offer. -/
def offeredRun : Except Error (RouterWorld (Bundle Unit)) := do
  let outer ← wiredOuter
  exec (wiredPeers VeClaimNFT.acceptingPort wiredAnswers) (marketCall 299 7)
    { deployedBundle with outer := outer }
    (.createBonusTargetEscrowWithTarget 100 (10000 * 10 ^ 18) 604800 false 0 0 100)

theorem offeredRun_reachable {w : RouterWorld (Bundle Unit)} (h : offeredRun = .ok w) :
    (bundleSystem VeClaimNFT.acceptingPort).Reachable ⟨300, 300, w, {3, 0}⟩ := by
  obtain ⟨outer, houter, h⟩ := bind_eq_ok_iff.mp h
  refine (wiredOuter_reachable houter).2.step (.router (marketCall 299 7) wiredAnswers _
    (by simp [marketCall]) (by simp [marketCall]) (by simp [marketCall])
    (by decide : (7 : ℕ) ≠ 6) h)

/-- An offer of 10000 CLAIM, which its buyer can cancel now and anybody can later. -/
theorem escrow_solvent_offered : ∃ c : Config (Bundle Unit),
    (c.world.router.offers 1).fundsRemaining = 10000 * 10 ^ 18 ∧
      total (fun id ↦ (c.world.router.offers id).fundsRemaining) ≤
        c.world.outer.claim.balanceOf c.world.router.self ∧
      (∃ w', cancelBonusTargetEscrow (marketCall 399 7) c.world 1 = .ok w' ∧
        Refunded 1 c.world w') ∧
      (∃ w', cancelExpiredBonusTargetEscrow (marketCall 99999999 8) c.world 1 = .ok w' ∧
        Refunded 1 c.world w') ∧
      ∃ e, executeAutoFurnace (wiredPeers VeClaimNFT.acceptingPort wiredAnswers)
        (marketCall 99999999 9) c.world 1 100000000 = .error e := by
  have hok : (offeredRun.toOption.any fun w ↦ (w.router.offers 1).active ∧
      (w.router.offers 1).buyer = 7 ∧ (w.router.offers 1).fundsRemaining = 10000 * 10 ^ 18 ∧
      (w.router.offers 1).expiresAt ≤ 100000000 ∧ w.router.self = 6 ∧
      w.outer.claim.isRestrictedRecipient 7 = false) = true := by
    decide +kernel
  obtain ⟨w, hrun, hoffer⟩ := exists_ok_of_any hok
  obtain ⟨hactive, hbuyer, hfunds, hexpired, hself, hallowed⟩ := of_decide_eq_true hoffer
  obtain ⟨-, hcovered, -, hrefunds, hexecutes⟩ := escrow_solvent (offeredRun_reachable hrun)
  have hself : w.router.self ≠ 0 := by rw [hself]; decide
  have hallowed : w.outer.claim.isRestrictedRecipient (w.router.offers 1).buyer = false := by
    rw [hbuyer]
    exact hallowed
  refine ⟨_, hfunds, hcovered, ?_, ?_, hexecutes 1 (marketCall 99999999 9) wiredAnswers _ hexpired⟩
  · exact (hrefunds 1 (marketCall 399 7) hactive hself hallowed).1 hbuyer.symm
  · exact (hrefunds 1 (marketCall 99999999 8) hactive hself hallowed).2 hexpired

end ClaimRush.MarketRouter
