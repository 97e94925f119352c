import ClaimRush.Furnace.Splitting

/-!
# Quotes of sales

A quote previews the drip that the sale takes first.  After the drip the preview
is the reserve itself, and everything else a quote reads is still there.
-/

open Function

namespace ClaimRush.Furnace

open Constants

variable {S : Type} {call : Call} {w w' : World S}

namespace Quoter

/-! ## The previewed reserve -/

theorem previewReserve_idle (h : call.timestamp ≤ w.furnace.lastLpOverflowDripUpdate) :
    previewReserveAfterLpOverflowDrip call w = .ok (w.furnace.furnaceReserve, 0) := by
  unfold previewReserveAfterLpOverflowDrip
  exact if_pos h

theorem previewReserve_of_drip (call : Call) (w : World S) :
    Returns (fun f ↦ ∃ dripped,
        previewReserveAfterLpOverflowDrip call w = .ok (f.furnaceReserve, dripped))
      (overflowDrip call w.furnace) := by
  unfold overflowDrip previewReserveAfterLpOverflowDrip
  dsimp only
  apply Returns.ite
  · exact fun hpast ↦ ⟨0, if_pos hpast⟩
  intro hpast
  rw [if_neg hpast]
  apply Returns.ite
  · exact fun hvault ↦ ⟨0, if_pos hvault⟩
  intro hvault
  rw [if_neg hvault]
  apply Returns.ite
  · intro hlow
    refine ⟨0, bind_eq_ok_iff.mpr ⟨{}, if_pos hlow, ?_⟩⟩
    exact if_pos (.inl rfl)
  intro hhigh
  refine Returns.seq fun p hp ↦ ?_
  change previewOverflowDrip call w.furnace.mineCore w.furnace.deploymentTime
    w.furnace.furnaceReserve = .ok p at hp
  rw [hp]
  apply Returns.ite
  · exact fun hnone ↦ ⟨0, if_pos (.inl hnone)⟩
  intro hrate
  refine Returns.seq fun accrued haccrued ↦ ?_
  obtain ⟨-, rfl⟩ := uint256_eq_ok.mp haccrued
  apply Returns.ite
  · exact fun hnone ↦ ⟨0, if_pos (.inr hnone)⟩
  intro hsome
  refine Outcome.bind (fundLpStreamInternal_rest call _ _) ?_
  rintro f' ⟨stream, events, ghost, rfl⟩
  refine Returns.guard fun _ ↦ ?_
  exact Exists.intro _ ((if_neg (not_or.mpr ⟨hrate, hsome⟩)).trans (if_neg hhigh))

/-! ## What a quote reads -/

/-- Two storages with the same inputs of a sale besides the reserve. -/
structure SameSale (w w' : World S) : Prop where
  furnace : ∃ stream events ghost reserve last pending,
    w'.furnace = { w.furnace with
      stream := stream
      events := events
      ghost := ghost
      furnaceReserve := reserve
      lastLpOverflowDripUpdate := last
      pendingSellSeller := pending }
  totalSupply : w'.claim.totalSupply = w.claim.totalSupply
  lockedSupply : w'.ve.totalLockedClaim = w.ve.totalLockedClaim

theorem SameSale.sellLockMath (h : SameSale w w')
    (lockAmount remainingSec lockedSupplyExcl reserveBefore elapsed : ℕ) :
    sellLockMath call w' lockAmount remainingSec lockedSupplyExcl reserveBefore elapsed =
      sellLockMath call w lockAmount remainingSec lockedSupplyExcl reserveBefore elapsed := by
  obtain ⟨⟨stream, events, ghost, reserve, last, pending, hfurnace⟩, hsupply, -⟩ := h
  unfold Quoter.sellLockMath previewSellImpactVolumeAt
  rw [hfurnace, hsupply]

theorem SameSale.sellLockFigures (h : SameSale w w') {reserve dripped dripped' : ℕ}
    (hpreview : previewReserveAfterLpOverflowDrip call w = .ok (reserve, dripped))
    (hpreview' : previewReserveAfterLpOverflowDrip call w' = .ok (reserve, dripped'))
    (lockAmount lockEnd : ℕ) (autoMax : Bool) :
    sellLockFigures call w' lockAmount lockEnd autoMax =
      sellLockFigures call w lockAmount lockEnd autoMax := by
  have helapsed : timeSinceLaunch call w' = timeSinceLaunch call w := by
    obtain ⟨stream, events, ghost, reserve, last, pending, hfurnace⟩ := h.furnace
    unfold timeSinceLaunch
    rw [hfurnace]
  unfold Quoter.sellLockFigures
  rw [h.lockedSupply, helapsed, hpreview, hpreview']
  simp only [h.sellLockMath]
  rfl

theorem SameSale.whenLockingEnabled (h : SameSale w w') :
    Quoter.whenLockingEnabled w' = Quoter.whenLockingEnabled w := by
  obtain ⟨stream, events, ghost, reserve, last, pending, hfurnace⟩ := h.furnace
  unfold Quoter.whenLockingEnabled
  rw [hfurnace]

theorem SameSale.quote (h : SameSale w w') {reserve dripped dripped' : ℕ}
    (hpreview : previewReserveAfterLpOverflowDrip call w = .ok (reserve, dripped))
    (hpreview' : previewReserveAfterLpOverflowDrip call w' = .ok (reserve, dripped'))
    (lockAmount lockEnd : ℕ) (autoMax : Bool) :
    quoteSellLockToFurnaceFromInfo call w' lockAmount lockEnd autoMax =
      quoteSellLockToFurnaceFromInfo call w lockAmount lockEnd autoMax := by
  unfold quoteSellLockToFurnaceFromInfo
  rw [h.whenLockingEnabled, h.sellLockFigures hpreview hpreview']

/-! ## The figures of a sale -/

theorem lpSaleShareBps_le (userSpotBonusBps : ℕ) :
    lpSaleShareBps userSpotBonusBps ≤ BPS_DENOM := by
  have hmax : LP_SALE_MAX_BPS ≤ BPS_DENOM := by
    simp [LP_SALE_MAX_BPS, BPS_DENOM]
  simp only [lpSaleShareBps]
  split <;> omega

theorem lpScaleBps_le (lockedSupply totalSupply reserve elapsed : ℕ) :
    lpScaleBps lockedSupply totalSupply reserve elapsed ≤ BPS_DENOM := by
  simp only [lpScaleBps]
  split <;> omega

theorem share_le {amount share : ℕ} (h : share ≤ BPS_DENOM) :
    amount * share / BPS_DENOM ≤ amount := by
  calc amount * share / BPS_DENOM ≤ amount * BPS_DENOM / BPS_DENOM :=
        Nat.div_le_div_right (Nat.mul_le_mul_left _ h)
    _ = amount := Nat.mul_div_cancel _ BPS_DENOM_pos

/-- The three outputs share out the lock, and the LP part keeps to the cap. -/
def SellLockMath.Shares (call : Call) (f : FurnaceState) (lockAmount : ℕ) (m : SellLockMath) :
    Prop :=
  m.claimOut + m.lpReward + m.reserveAdd = lockAmount ∧
    ∀ cap, lpSaleRewardCapRemaining call f.mineCore f.lpSaleFundedDay f.lpSaleFundedToday =
      .ok cap → m.lpReward ≤ cap

theorem sellLockMath_shares (call : Call) (w : World S)
    (lockAmount remainingSec lockedSupplyExcl reserveBefore elapsed : ℕ) :
    Returns (SellLockMath.Shares call w.furnace lockAmount)
      (sellLockMath call w lockAmount remainingSec lockedSupplyExcl reserveBefore elapsed) := by
  unfold sellLockMath
  apply Returns.ite
  · intro hzero
    exact ⟨hzero.symm, fun _ _ ↦ Nat.zero_le _⟩
  intro _
  refine Returns.guard fun _ ↦ ?_
  dsimp only
  generalize (if sellImpactBps _ elapsed ≠ 0 then _ else _) = spreadBps
  have hclaim : (if spreadBps ≥ BPS_DENOM then 0
      else lockAmount * (BPS_DENOM - spreadBps) / BPS_DENOM) ≤ lockAmount := by
    split
    · exact Nat.zero_le _
    · exact share_le (Nat.sub_le _ _)
  generalize (if spreadBps ≥ BPS_DENOM then 0
    else lockAmount * (BPS_DENOM - spreadBps) / BPS_DENOM) = claimOut at hclaim ⊢
  generalize (if _ < baseUserBps lockedSupplyExcl _ then _ else _) = bonusRef
  apply Returns.ite
  · intro _
    refine Returns.seq fun cap hcap ↦ ?_
    have hshare := @share_le (lockAmount - claimOut) _ ((share_le (lpScaleBps_le
      lockedSupplyExcl w.claim.totalSupply reserveBefore elapsed)).trans
      (lpSaleShareBps_le bonusRef))
    constructor
    · dsimp only
      omega
    · intro cap' hcap'
      obtain rfl := Except.ok.inj (hcap.symm.trans hcap')
      exact min_le_right _ _
  · intro _
    exact ⟨by simpa using Nat.add_sub_of_le hclaim, fun _ _ ↦ Nat.zero_le _⟩

/-- The two quotes show the same figures. -/
theorem quoteSellLockForExecution_figures (call : Call) (w : World S) (lockAmount lockEnd : ℕ)
    (autoMax : Bool) :
    Returns (fun q ↦ ∃ m dripped,
        quoteSellLockToFurnaceFromInfo call w lockAmount lockEnd autoMax = .ok m ∧
        previewReserveAfterLpOverflowDrip call w = .ok (q.reserveBefore, dripped) ∧
        m.Shares call w.furnace lockAmount ∧ q.claimOut = m.claimOut ∧
        q.spreadBps = m.spreadBps ∧ q.lpReward = m.lpReward ∧ q.reserveAdd = m.reserveAdd ∧
        q.bonusBpsUsed = m.bonusRefBpsUsed)
      (quoteSellLockForExecution call w lockAmount lockEnd autoMax) := by
  unfold quoteSellLockForExecution
  refine Returns.seq fun _ henabled ↦ Returns.seq fun _ hamount ↦ ?_
  refine Returns.seq fun ⟨m, reserve⟩ hfigures ↦ ?_
  have hquote : quoteSellLockToFurnaceFromInfo call w lockAmount lockEnd autoMax = .ok m :=
    bind_eq_ok_iff.mpr ⟨_, henabled, bind_eq_ok_iff.mpr ⟨_, hamount,
      bind_eq_ok_iff.mpr ⟨_, hfigures, rfl⟩⟩⟩
  obtain ⟨_, -, hfigures⟩ := bind_eq_ok_iff.mp hfigures
  obtain ⟨_, -, hfigures⟩ := bind_eq_ok_iff.mp hfigures
  obtain ⟨⟨reserve', dripped⟩, hpreview, hfigures⟩ := bind_eq_ok_iff.mp hfigures
  obtain ⟨m', hmath, hfigures⟩ := bind_eq_ok_iff.mp hfigures
  obtain ⟨rfl, rfl⟩ := Prod.mk.inj (Except.ok.inj hfigures)
  exact ⟨_, dripped, hquote, hpreview, (sellLockMath_shares call w _ _ _ _ _).of_ok hmath,
    rfl, rfl, rfl, rfl, rfl⟩

end Quoter

/-! ## Execution -/

variable (call w)

theorem quoteSellLockForExecution_figures (lockAmount lockEnd : ℕ) (autoMax : Bool) :
    Outcome (fun q ↦ Quoter.quoteSellLockForExecution call w lockAmount lockEnd autoMax = .ok q)
      (fun e ↦ e = .ZeroAddress ∨ e = .QuoteCallFailed)
      (quoteSellLockForExecution call w lockAmount lockEnd autoMax) := by
  unfold quoteSellLockForExecution
  split
  · exact .inl rfl
  · split
    · assumption
    · exact .inr rfl

/-- The figures of an execution are those of the quote. -/
structure SellExecutionData.Quoted (m : Quoter.SellLockMath) (q : SellExecutionData) : Prop where
  claimOut : q.claimOut = m.claimOut
  spreadBps : q.spreadBps = m.spreadBps
  lpReward : q.lpReward = m.lpReward
  reserveAdd : q.reserveAdd = m.reserveAdd
  bonusBpsUsed : q.bonusBpsUsed = m.bonusRefBpsUsed

theorem lpSaleRewardCapRemaining_error (core : Address) (fundedDay fundedToday : ℕ) :
    Outcome (fun _ ↦ True) (fun e ↦ e = .ExternalCallFailed ∨ e = .Panic)
      (lpSaleRewardCapRemaining call core fundedDay fundedToday) := by
  unfold lpSaleRewardCapRemaining lpSaleRewardCapPerDay furnaceInflowPerDay
  simp only [Outcome.bind_iff, Outcome.pure_iff, Outcome.ite_iff, Outcome.ok_iff,
    outcome_externalCall, outcome_uint256, hasPanic_arithmetic]
  simp

/-- Once the drip of the block is taken, the execution takes over the quote, and its
assertions hold. -/
theorem normalizeSellExecutionQuote_quoted
    (hidle : call.timestamp ≤ w.furnace.lastLpOverflowDripUpdate) (lockAmount lockEnd : ℕ)
    (autoMax : Bool) (minClaimOut : ℕ) :
    Outcome (fun r ↦ ∃ m,
        Quoter.quoteSellLockToFurnaceFromInfo call w lockAmount lockEnd autoMax = .ok m ∧
        r.1.Quoted m ∧ m.Shares call w.furnace lockAmount ∧ minClaimOut ≤ m.claimOut)
      (· ≠ .InvariantViolation)
      (normalizeSellExecutionQuote call w lockAmount lockEnd autoMax minClaimOut
        w.furnace.furnaceReserve) := by
  unfold normalizeSellExecutionQuote
  refine Outcome.bind ((quoteSellLockForExecution_figures call w lockAmount lockEnd autoMax).mono
    (fun _ ↦ id) ?_) fun raw hraw ↦ ?_
  · rintro e (rfl | rfl) <;> simp
  obtain ⟨m, dripped, hquote, hpreview, hshares, hclaim, hspread, hreward, hadd, hbonus⟩ :=
    (Quoter.quoteSellLockForExecution_figures call w lockAmount lockEnd autoMax).of_ok hraw
  obtain ⟨hreserve, -⟩ :=
    Prod.mk.inj (Except.ok.inj ((Quoter.previewReserve_idle hidle).symm.trans hpreview))
  have hsum := hshares.1
  refine Outcome.revertIf_bind (fun _ ↦ by simp) fun _ ↦ ?_
  refine Outcome.revertIf_bind (fun _ ↦ by simp) fun hmin ↦ ?_
  refine Outcome.revertIf_bind (fun h ↦ absurd h (by omega)) fun _ ↦ ?_
  refine Outcome.uint256_bind (by simp) fun _ ↦ ?_
  refine Outcome.revertIf_bind (fun h ↦ absurd h (by omega)) fun _ ↦ ?_
  refine Outcome.revertIf_bind (fun h ↦ absurd hreserve.symm h) fun _ ↦ ?_
  refine Outcome.usub_bind (by simp) fun _ ↦ ?_
  refine Outcome.bind (Q := fun cap ↦ lpSaleRewardCapRemaining call w.furnace.mineCore
    w.furnace.lpSaleFundedDay w.furnace.lpSaleFundedToday = .ok cap) ?_ fun cap hcap ↦ ?_
  · have herror := lpSaleRewardCapRemaining_error call w.furnace.mineCore
      w.furnace.lpSaleFundedDay w.furnace.lpSaleFundedToday
    cases hcap : lpSaleRewardCapRemaining call w.furnace.mineCore w.furnace.lpSaleFundedDay
      w.furnace.lpSaleFundedToday with
    | ok cap => rfl
    | error e =>
      rcases herror.of_error hcap with rfl | rfl <;> simp
  have hle := hshares.2 cap hcap
  refine ⟨m, hquote, ⟨hclaim, hspread, ?_, ?_, hbonus⟩, hshares, by omega⟩
  · dsimp only
    omega
  · dsimp only
    omega

/-- A floor that the quote meets is as good as none. -/
theorem normalizeSellExecutionQuote_floor {lockAmount lockEnd : ℕ} {autoMax : Bool}
    {m : Quoter.SellLockMath} {minClaimOut : ℕ}
    (hquote : Quoter.quoteSellLockToFurnaceFromInfo call w lockAmount lockEnd autoMax = .ok m)
    (hfloor : minClaimOut ≤ m.claimOut) (reserveNow : ℕ) :
    normalizeSellExecutionQuote call w lockAmount lockEnd autoMax minClaimOut reserveNow =
      normalizeSellExecutionQuote call w lockAmount lockEnd autoMax 0 reserveNow := by
  unfold normalizeSellExecutionQuote
  refine bind_congr_ok fun raw hraw ↦ ?_
  have hraw := (quoteSellLockForExecution_figures call w lockAmount lockEnd autoMax).of_ok hraw
  obtain ⟨m', -, hquote', -, -, hclaim, -⟩ :=
    (Quoter.quoteSellLockForExecution_figures call w lockAmount lockEnd autoMax).of_ok hraw
  obtain rfl := Except.ok.inj (hquote.symm.trans hquote')
  refine bind_congr_ok fun _ _ ↦ ?_
  have hmet {n : ℕ} (hn : n ≤ raw.claimOut) :
      revertIf (raw.claimOut < n) Error.SlippageTooHigh = .ok () := if_neg (Nat.not_lt.mpr hn)
  rw [hmet (hclaim ▸ hfloor), hmet (Nat.zero_le _)]

/-- The drip leaves a state with the same quotes. -/
structure Dripped (call : Call) (w w₁ : World S) : Prop where
  same : Quoter.SameSale w w₁
  idle : call.timestamp ≤ w₁.furnace.lastLpOverflowDripUpdate
  ve : w₁.ve = w.ve
  preview : ∃ dripped, Quoter.previewReserveAfterLpOverflowDrip call w =
    .ok (w₁.furnace.furnaceReserve, dripped)

theorem accrueLpOverflowDrip_dripped :
    Returns (fun r ↦ Dripped call w r.1) (accrueLpOverflowDrip call w) := by
  unfold accrueLpOverflowDrip
  refine Outcome.bind (accrueLpStream_rest call w) ?_
  rintro ⟨w₁, streamed⟩ ⟨stream, events, ghost, claim, hsupply, rfl⟩
  refine Outcome.bind ((overflowDrip_rest call _).and (Quoter.previewReserve_of_drip call _)) ?_
  rintro f ⟨⟨stream', events', ghost', reserve, last, hlast, -, rfl⟩, dripped, hpreview⟩
  exact ⟨⟨⟨_, _, _, _, _, _, rfl⟩, hsupply, rfl⟩, hlast, rfl, dripped, hpreview⟩

variable {call w} in
theorem Dripped.quote {w₁ : World S} (h : Dripped call w w₁) (pending : ℕ → Address)
    (lockAmount lockEnd : ℕ) (autoMax : Bool) :
    Quoter.quoteSellLockToFurnaceFromInfo call
        { w₁ with furnace := { w₁.furnace with pendingSellSeller := pending } }
        lockAmount lockEnd autoMax =
      Quoter.quoteSellLockToFurnaceFromInfo call w lockAmount lockEnd autoMax := by
  obtain ⟨⟨⟨stream, events, ghost, reserve, last, _, hfurnace⟩, hsupply, hlocked⟩, hidle, -,
    dripped, hpreview⟩ := h
  have hsame : Quoter.SameSale w
      { w₁ with furnace := { w₁.furnace with pendingSellSeller := pending } } :=
    ⟨⟨stream, events, ghost, reserve, last, pending, by rw [hfurnace]⟩, hsupply, hlocked⟩
  exact hsame.quote hpreview (Quoter.previewReserve_idle hidle) lockAmount lockEnd autoMax

theorem syncFurnaceReserve_base : (syncFurnaceReserve call w).base = w.base := by
  unfold syncFurnaceReserve
  dsimp only
  generalize (if w.claimBalance > w.furnace.stream.liability then
    w.claimBalance - w.furnace.stream.liability else 0) = cap
  split <;> rfl

/-- The CLAIM of a sale: the stream accrues, the lock contract pays the burned lock out to
the Furnace, and the Furnace pays the seller. -/
def PaysSale (seller : Address) (tokenId claimOut : ℕ) (paid : ClaimToken) : Prop :=
  ∃ r claim, accrueLpStream call w = .ok r ∧
    r.1.claim.transfer w.ve.self w.furnace.self (w.ve.locks tokenId).amount = .ok claim ∧
    claim.transfer w.furnace.self seller claimOut = .ok paid

variable {call w} in
/-- The custody of the lock makes no difference. -/
theorem PaysSale.handedOver {seller : Address} {tokenId claimOut : ℕ} {paid : ClaimToken}
    (h : PaysSale call w' seller tokenId claimOut paid) (hhanded : HandedOver w w')
    (hlock : (w'.ve.locks tokenId).amount = (w.ve.locks tokenId).amount) :
    PaysSale call w seller tokenId claimOut paid := by
  obtain ⟨r, claim, haccrue, hburned, hpaid⟩ := h
  obtain ⟨⟨pending, hfurnace⟩, hclaim, -, hself⟩ := hhanded
  have hbeside : w'.beside w = w := by
    unfold World.beside
    rw [hfurnace, hclaim]
    rfl
  rw [hlock, hself, hfurnace] at hburned
  rw [hfurnace] at hpaid
  have haccrue := accrueLpStream_beside call w' w haccrue
  rw [hbeside] at haccrue
  exact ⟨_, claim, haccrue, hburned, hpaid⟩

/-- The burned lock is paid out to the Furnace, and the seller is paid the claim of the
figures. -/
theorem settleSale_pays (port : VeClaimNFT.IShareholderRoyalties S) (seller : Address)
    (tokenId lockAmount : ℕ) (q : SellExecutionData) (cut : ℕ) :
    Returns (fun w' ↦ ∃ claim : ClaimToken,
        w.claim.transfer w.ve.self w.furnace.self (w.ve.locks tokenId).amount = .ok claim ∧
        claim.transfer w.furnace.self seller q.claimOut = .ok w'.claim)
      (settleSale port call w seller tokenId lockAmount q cut) := by
  unfold settleSale
  refine Returns.seq fun f₁ hvolume ↦ ?_
  obtain ⟨volume, hbound, hvolume⟩ := bind_eq_ok_iff.mp hvolume
  obtain rfl := Except.ok.inj hvolume
  refine Outcome.bind (trackLpSaleRewardFunding_changes call _ q.lpReward) ?_
  rintro f₂ ⟨day, funded, rfl⟩
  refine Outcome.bind (VeClaimNFT.furnaceBurnAndWithdraw_effect port _ _ tokenId _) ?_
  rintro base ⟨-, -, hout⟩
  refine Returns.seq fun reserve _ ↦ ?_
  have hpaid (f : FurnaceState) (hself : f.self = w.furnace.self) :
      Returns (fun w' ↦ ∃ claim : ClaimToken,
          w.claim.transfer w.ve.self w.furnace.self (w.ve.locks tokenId).amount = .ok claim ∧
          claim.transfer w.furnace.self seller q.claimOut = .ok w'.claim)
        (do let claim ← base.claim.transfer f.self seller q.claimOut
            return syncFurnaceReserve call
              { furnace := f, base := { base with claim := claim } }) := by
    refine Returns.seq fun claim htransfer ↦ ⟨base.claim, hout.claim, ?_⟩
    rw [World.claim, syncFurnaceReserve_base, ← hself]
    exact htransfer
  dsimp only
  apply Returns.ite
  · intro _
    refine Outcome.bind (fundLpStreamInternal_rest call _ q.lpReward) ?_
    rintro f ⟨stream, events, ghost, rfl⟩
    exact hpaid _ rfl
  · exact fun _ ↦ hpaid _ rfl

/-- The quote of the lock `tokenId`, as the market asks for it. -/
def quoteOfLock (tokenId : ℕ) : Except Error Quoter.SellLockMath :=
  let (lockAmount, lockEnd, autoMax, _) := w.ve.getLockInfo call.timestamp tokenId
  Quoter.quoteSellLockToFurnaceFromInfo call w lockAmount lockEnd autoMax

variable (port : VeClaimNFT.IShareholderRoyalties S) (seller : Address) (tokenId : ℕ)

theorem sellLockToFurnaceFromMarket_quoted (minClaimOut : ℕ) :
    Returns (fun r ↦ ∃ m, quoteOfLock call w tokenId = .ok m ∧ r.2 = m.claimOut ∧
        minClaimOut ≤ m.claimOut ∧
        m.Shares call w.furnace (w.ve.locks tokenId).amount ∧
        PaysSale call w seller tokenId r.2 r.1.claim)
      (sellLockToFurnaceFromMarket port call w seller tokenId minClaimOut) := by
  unfold sellLockToFurnaceFromMarket
  refine Returns.seq fun _ _ ↦ Returns.seq fun _ _ ↦ Returns.guard fun _ ↦ Returns.guard fun _ ↦ ?_
  refine Returns.seq fun ⟨⟨f, ve, royalties, claim₁⟩, streamed⟩ hdripped ↦ ?_
  have hdrip := (accrueLpOverflowDrip_dripped call w).of_ok hdripped
  obtain rfl : ve = w.ve := hdrip.ve
  obtain ⟨stream, events, ghost, reserve, last, pending, hfurnace⟩ := hdrip.same.furnace
  refine Returns.guard fun _ ↦ Returns.guard fun _ ↦ Returns.guard fun _ ↦ ?_
  refine Returns.guard fun _ ↦ Returns.guard fun _ ↦ Returns.guard fun _ ↦ ?_
  refine Outcome.bind (Returns.of_outcome (normalizeSellExecutionQuote_quoted call
    ⟨{ f with pendingSellSeller := update f.pendingSellSeller tokenId 0 },
      w.ve, royalties, claim₁⟩ hdrip.idle _ _ _ minClaimOut)) ?_
  rintro ⟨q, cut⟩ ⟨m, hquote, hquoted, hshares, hmin⟩
  have hquote := (hdrip.quote _ _ _ _).symm.trans hquote
  refine Outcome.bind (settleSale_pays call _ port seller tokenId _ q cut) ?_
  rintro w' ⟨claim, hburned, hpaid⟩
  dsimp only at hfurnace hshares hburned hpaid
  rw [hfurnace] at hshares hburned hpaid
  refine ⟨m, hquote, hquoted.claimOut, hmin, hshares, ?_⟩
  -- the drip itself moves no CLAIM
  obtain ⟨r, haccrue, hdripped⟩ := bind_eq_ok_iff.mp hdripped
  obtain ⟨f', -, hdripped⟩ := bind_eq_ok_iff.mp hdripped
  have hclaim : r.1.claim = claim₁ := congrArg (fun r ↦ r.1.claim) (Except.ok.inj hdripped)
  exact ⟨r, claim, haccrue, hclaim ▸ hburned, hpaid⟩

/-- A floor that the quote meets changes nothing about the sale. -/
theorem sellLockToFurnaceFromMarket_floor {m : Quoter.SellLockMath} {minClaimOut : ℕ}
    (hquote : quoteOfLock call w tokenId = .ok m) (hfloor : minClaimOut ≤ m.claimOut) :
    sellLockToFurnaceFromMarket port call w seller tokenId minClaimOut =
      sellLockToFurnaceFromMarket port call w seller tokenId 0 := by
  unfold sellLockToFurnaceFromMarket
  refine bind_congr_ok fun _ _ ↦ bind_congr_ok fun _ _ ↦ bind_congr_ok fun _ _ ↦ ?_
  refine bind_congr_ok fun _ _ ↦ bind_congr_ok fun ⟨⟨f, ve, royalties, claim⟩, streamed⟩ hdrip ↦ ?_
  have hdrip := (accrueLpOverflowDrip_dripped call w).of_ok hdrip
  obtain rfl : ve = w.ve := hdrip.ve
  refine bind_congr_ok fun _ _ ↦ bind_congr_ok fun _ _ ↦ bind_congr_ok fun _ _ ↦ ?_
  refine bind_congr_ok fun _ _ ↦ bind_congr_ok fun _ _ ↦ bind_congr_ok fun _ _ ↦ ?_
  have hquote₁ := (hdrip.quote (update f.pendingSellSeller tokenId 0) _ _ _).trans hquote
  exact congrArg (· >>= _) (normalizeSellExecutionQuote_floor call _ hquote₁ hfloor _)

/-- Every sale that goes through pays what was quoted in the state before it, and the three
outputs share out the lock; a floor up to the quote changes nothing; and no assertion about
the quote fails once the drip is taken. -/
theorem sale_executes_quote :
    (∀ minClaimOut r, sellLockToFurnaceFromMarket port call w seller tokenId minClaimOut = .ok r →
      ∃ m, quoteOfLock call w tokenId = .ok m ∧ r.2 = m.claimOut ∧ minClaimOut ≤ m.claimOut ∧
        m.claimOut + m.lpReward + m.reserveAdd = (w.ve.locks tokenId).amount ∧
        (∀ cap, lpSaleRewardCapRemaining call w.furnace.mineCore w.furnace.lpSaleFundedDay
          w.furnace.lpSaleFundedToday = .ok cap → m.lpReward ≤ cap) ∧
        PaysSale call w seller tokenId m.claimOut r.1.claim) ∧
    (∀ m minClaimOut, quoteOfLock call w tokenId = .ok m → minClaimOut ≤ m.claimOut →
      sellLockToFurnaceFromMarket port call w seller tokenId minClaimOut =
        sellLockToFurnaceFromMarket port call w seller tokenId 0) ∧
    ∀ w₁ streamed lockAmount lockEnd autoMax minClaimOut,
      accrueLpOverflowDrip call w = .ok (w₁, streamed) →
      normalizeSellExecutionQuote call w₁ lockAmount lockEnd autoMax minClaimOut
        w₁.furnace.furnaceReserve ≠ .error .InvariantViolation := by
  refine ⟨fun minClaimOut r hsale ↦ ?_, fun m minClaimOut hquote hfloor ↦ ?_, ?_⟩
  · obtain ⟨m, hquote, hpaid, hmin, hshares, htransfer⟩ :=
      (sellLockToFurnaceFromMarket_quoted call w port seller tokenId minClaimOut).of_ok hsale
    exact ⟨m, hquote, hpaid, hmin, hshares.1, hshares.2, hpaid ▸ htransfer⟩
  · exact sellLockToFurnaceFromMarket_floor call w port seller tokenId hquote hfloor
  · intro w₁ streamed lockAmount lockEnd autoMax minClaimOut hdrip hviolated
    have hidle := ((accrueLpOverflowDrip_dripped call w).of_ok hdrip).idle
    exact (normalizeSellExecutionQuote_quoted call w₁ hidle lockAmount lockEnd autoMax
      minClaimOut).of_error hviolated rfl

theorem sale_executes_quote_half : ∃ (w : World Unit) (s : Sale VeClaimNFT.acceptingPort
    (wiredCall 2 6) w) (m : Quoter.SellLockMath),
    quoteOfLock (wiredCall 2 6) w s.tokenId = .ok m ∧ s.claimOut = m.claimOut := by
  obtain ⟨w, -, s, -⟩ := splitRun_halves
  obtain ⟨m, hquote, hpaid, -⟩ := (sale_executes_quote (wiredCall 2 6) w
    VeClaimNFT.acceptingPort s.first.seller s.first.tokenId).1 s.first.minClaimOut _ s.first.sold
  exact ⟨w, s.first, m, hquote, hpaid⟩

end ClaimRush.Furnace
