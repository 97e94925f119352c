import ClaimRush.Furnace.Deployment
import ClaimRush.Furnace.Depth

/-!
# Selling in slices

The burst add-on is read at the volume after the trade.  A first slice that stays
below a step is therefore priced below the whole, and only a grown reserve makes
the second one dearer.
-/

namespace ClaimRush.Furnace

open Constants Account

namespace Quoter

/-! ## The spread grows with the reserve -/

theorem reserveFullnessBps_mono {reserve reserve' : ℕ} (h : reserve ≤ reserve') :
    reserveFullnessBps reserve ≤ reserveFullnessBps reserve' := by
  have hraw : BPS_DENOM * reserve / RESERVE_TARGET_FINAL ≤
      BPS_DENOM * reserve' / RESERVE_TARGET_FINAL :=
    Nat.div_le_div_right (Nat.mul_le_mul_left _ h)
  simp only [reserveFullnessBps]
  split <;> split <;> omega

/-- The factor below the target, and from it on. -/
theorem reserveFactorBps_eq {full alpha : ℕ} (halpha : alpha ≠ 0) :
    reserveFactorBps full alpha =
      if full < BPS_DENOM then BPS_DENOM - ceilDiv (alpha * (BPS_DENOM - full)) BPS_DENOM
      else min (BPS_DENOM + alpha * (full - BPS_DENOM) / BPS_DENOM) RESERVE_FACTOR_MAX_BPS := by
  have hmax := BPS_DENOM_le_RESERVE_FACTOR_MAX_BPS
  unfold reserveFactorBps
  rw [if_neg halpha]
  rcases lt_trichotomy full BPS_DENOM with hlt | heq | hgt
  · rw [if_neg hlt.ne, if_neg hlt.not_gt, if_pos hlt]
    dsimp only
    split <;> omega
  · subst heq
    simp [hmax]
  · rw [if_neg hgt.ne', if_pos hgt, if_neg hgt.not_gt]
    dsimp only
    split <;> omega

theorem reserveFactorBps_mono {full full' : ℕ} (alpha : ℕ) (h : full ≤ full') :
    reserveFactorBps full alpha ≤ reserveFactorBps full' alpha := by
  by_cases halpha : alpha = 0
  · rw [reserveFactorBps, reserveFactorBps, if_pos halpha, if_pos halpha]
  rw [reserveFactorBps_eq halpha, reserveFactorBps_eq halpha]
  have hdec : ceilDiv (alpha * (BPS_DENOM - full')) BPS_DENOM ≤
      ceilDiv (alpha * (BPS_DENOM - full)) BPS_DENOM :=
    ceilDiv_mono BPS_DENOM_pos (Nat.mul_le_mul_left _ (by omega))
  have hinc : alpha * (full - BPS_DENOM) / BPS_DENOM ≤ alpha * (full' - BPS_DENOM) / BPS_DENOM :=
    Nat.div_le_div_right (Nat.mul_le_mul_left _ (by omega))
  have hmax := BPS_DENOM_le_RESERVE_FACTOR_MAX_BPS
  split
  · split
    · exact Nat.sub_le_sub_left hdec _
    · exact (Nat.sub_le _ _).trans (le_min (Nat.le_add_right _ _) hmax)
  · rw [if_neg (by omega)]
    exact min_le_min_right _ (Nat.add_le_add_left hinc _)

theorem userSpotBonusBps_mono {reserve reserve' : ℕ} (lockedSupply totalSupply elapsed : ℕ)
    (h : reserve ≤ reserve') :
    userSpotBonusBps lockedSupply totalSupply reserve elapsed ≤
      userSpotBonusBps lockedSupply totalSupply reserve' elapsed := by
  have hfactor := reserveFactorBps_mono (swingAlphaBps elapsed) (reserveFullnessBps_mono h)
  have hcapped : cappedReserveFactorBps lockedSupply totalSupply reserve elapsed ≤
      cappedReserveFactorBps lockedSupply totalSupply reserve' elapsed := by
    simp only [cappedReserveFactorBps]
    split <;> split <;> omega
  have hspot : baseUserBps lockedSupply totalSupply *
      cappedReserveFactorBps lockedSupply totalSupply reserve elapsed / BPS_DENOM ≤
      baseUserBps lockedSupply totalSupply *
      cappedReserveFactorBps lockedSupply totalSupply reserve' elapsed / BPS_DENOM :=
    Nat.div_le_div_right (Nat.mul_le_mul_left _ hcapped)
  simp only [userSpotBonusBps]
  split <;> split <;> omega

/-- A fraction that is at most one grows when its two sides grow by the same
amount. -/
theorem ceilDiv_shift_le {m n loss d : ℕ} (hmn : m ≤ n) (hloss : loss ≤ d) (hd : 0 < d) :
    ceilDiv (d * (m + loss)) (d + m) ≤ ceilDiv (d * (n + loss)) (d + n) := by
  rw [ceilDiv_le_iff (Nat.add_pos_left hd m)]
  have hn := le_ceilDiv_mul (d * (n + loss)) (Nat.add_pos_left hd n)
  generalize ceilDiv (d * (n + loss)) (d + n) = q at hn ⊢
  rcases Nat.le_total d q with hq | hq
  · calc d * (m + loss) ≤ d * (d + m) := Nat.mul_le_mul_left _ (by omega)
      _ ≤ q * (d + m) := Nat.mul_le_mul_right _ hq
  · obtain ⟨r, rfl⟩ := Nat.exists_eq_add_of_le hq
    have hr : r * m ≤ r * n := Nat.mul_le_mul_left _ hmn
    nlinarith

theorem sellSystemSpreadBps_mono {bonus bonus' : ℕ} (h : bonus ≤ bonus') :
    sellSystemSpreadBps bonus ≤ sellSystemSpreadBps bonus' := by
  have hnoArb : ceilDiv (BPS_DENOM * bonus) (BPS_DENOM + bonus) ≤
      ceilDiv (BPS_DENOM * bonus') (BPS_DENOM + bonus') :=
    @ceilDiv_shift_le bonus bonus' 0 BPS_DENOM h (Nat.zero_le _) BPS_DENOM_pos
  have hb : min (bonus * BPS_DENOM / MAX_USER_BONUS_BPS) BPS_DENOM ≤
      min (bonus' * BPS_DENOM / MAX_USER_BONUS_BPS) BPS_DENOM :=
    min_le_min_right _ (Nat.div_le_div_right (Nat.mul_le_mul_right _ h))
  simp only [sellSystemSpreadBps]
  generalize min (bonus * BPS_DENOM / MAX_USER_BONUS_BPS) BPS_DENOM = b at hb ⊢
  generalize min (bonus' * BPS_DENOM / MAX_USER_BONUS_BPS) BPS_DENOM = b' at hb ⊢
  have hcurve : (SELL_SPREAD_MAX_BPS - SELL_SPREAD_MIN_BPS) * b / BPS_DENOM * b / BPS_DENOM ≤
      (SELL_SPREAD_MAX_BPS - SELL_SPREAD_MIN_BPS) * b' / BPS_DENOM * b' / BPS_DENOM :=
    Nat.div_le_div_right (Nat.mul_le_mul (Nat.div_le_div_right (Nat.mul_le_mul_left _ hb)) hb)
  split <;> split <;> omega

theorem sellRoundTripLossBps_le (remainingSec : ℕ) :
    sellRoundTripLossBps remainingSec ≤ BPS_DENOM := by
  have hmax : SELL_ROUND_TRIP_LOSS_MAX_BPS ≤ BPS_DENOM := by
    simp [SELL_ROUND_TRIP_LOSS_MAX_BPS, BPS_DENOM]
  have hrange : MIN_LOCK_DURATION ≤ MAX_LOCK_DURATION := by
    simp [MIN_LOCK_DURATION, MAX_LOCK_DURATION]
  have hclamp : clampDurationSeconds remainingSec ≤ MAX_LOCK_DURATION := by
    unfold clampDurationSeconds
    split_ifs <;> omega
  unfold sellRoundTripLossBps
  rw [ceilDiv_le_iff MAX_LOCK_DURATION_pos]
  exact Nat.mul_le_mul hmax hclamp

theorem sellRoundTripSpreadFloorBps_mono {bonus bonus' : ℕ} (remainingSec : ℕ)
    (h : bonus ≤ bonus') :
    sellRoundTripSpreadFloorBps bonus remainingSec ≤
      sellRoundTripSpreadFloorBps bonus' remainingSec := by
  have hfloor : roundTripFloorBps bonus remainingSec ≤ roundTripFloorBps bonus' remainingSec :=
    ceilDiv_shift_le (Nat.div_le_div_right (Nat.mul_le_mul_right _ h))
      (sellRoundTripLossBps_le _) BPS_DENOM_pos
  simp only [sellRoundTripSpreadFloorBps]
  split <;> split <;> omega

theorem sellBaseSpreadBps_mono {bonus bonus' : ℕ} (remainingSec : ℕ) (h : bonus ≤ bonus') :
    sellBaseSpreadBps bonus remainingSec ≤ sellBaseSpreadBps bonus' remainingSec := by
  have hsystem : sellSystemSpreadBps bonus * sellDurationFactorBps remainingSec / BPS_DENOM ≤
      sellSystemSpreadBps bonus' * sellDurationFactorBps remainingSec / BPS_DENOM :=
    Nat.div_le_div_right (Nat.mul_le_mul_right _ (sellSystemSpreadBps_mono h))
  have hfloor := sellRoundTripSpreadFloorBps_mono remainingSec h
  simp only [sellBaseSpreadBps, sellSpreadWithSize]
  split_ifs <;> omega

/-- The spread of `_sellLockMath`, from the amounts it reads. -/
def sellSpreadBps (totalSupply lockedSupplyExcl reserveBefore volAfter remainingSec
    elapsed : ℕ) : ℕ :=
  let spotBonusBps := userSpotBonusBps lockedSupplyExcl totalSupply reserveBefore elapsed
  let baseBonusBps := baseUserBps lockedSupplyExcl totalSupply
  let bonusRefBpsUsed := if spotBonusBps < baseBonusBps then baseBonusBps else spotBonusBps
  let impactBps := sellImpactBps volAfter elapsed
  let baseSpread := sellBaseSpreadBps bonusRefBpsUsed remainingSec
  if impactBps ≠ 0 then min (baseSpread + impactBps) SELL_SPREAD_MAX_BPS else baseSpread

theorem sellSpreadBps_mono {reserve reserve' : ℕ} (totalSupply lockedSupplyExcl volAfter
    remainingSec elapsed : ℕ) (h : reserve ≤ reserve') :
    sellSpreadBps totalSupply lockedSupplyExcl reserve volAfter remainingSec elapsed ≤
      sellSpreadBps totalSupply lockedSupplyExcl reserve' volAfter remainingSec elapsed := by
  have hspot := userSpotBonusBps_mono lockedSupplyExcl totalSupply elapsed h
  simp only [sellSpreadBps]
  generalize userSpotBonusBps lockedSupplyExcl totalSupply reserve elapsed = spot at hspot ⊢
  generalize userSpotBonusBps lockedSupplyExcl totalSupply reserve' elapsed = spot' at hspot ⊢
  have hbase := sellBaseSpreadBps_mono remainingSec
    (show (if spot < baseUserBps lockedSupplyExcl totalSupply then
        baseUserBps lockedSupplyExcl totalSupply else spot) ≤
      if spot' < baseUserBps lockedSupplyExcl totalSupply then
        baseUserBps lockedSupplyExcl totalSupply else spot' by split <;> split <;> omega)
  split
  · exact min_le_min_right _ (Nat.add_le_add_right hbase _)
  · exact hbase

theorem sellBaseSpreadBps_le (bonus remainingSec : ℕ) :
    sellBaseSpreadBps bonus remainingSec ≤ SELL_SPREAD_MAX_BPS := by
  have hfloor : SELL_SPREAD_FLOOR_7D_BPS ≤ SELL_SPREAD_MAX_BPS := by
    simp [SELL_SPREAD_FLOOR_7D_BPS, SELL_SPREAD_MAX_BPS]
  simp only [sellBaseSpreadBps, sellSpreadWithSize, sellRoundTripSpreadFloorBps]
  split_ifs <;> omega

/-- The bonus rate that a spread refers to. -/
def sellReferenceBps (totalSupply lockedSupplyExcl reserve elapsed : ℕ) : ℕ :=
  max (userSpotBonusBps lockedSupplyExcl totalSupply reserve elapsed)
    (baseUserBps lockedSupplyExcl totalSupply)

/-- The base spread at the reference rate and the burst add-on, up to the cap. -/
theorem sellSpreadBps_eq (totalSupply lockedSupplyExcl reserve volAfter remainingSec
    elapsed : ℕ) :
    sellSpreadBps totalSupply lockedSupplyExcl reserve volAfter remainingSec elapsed =
      min (sellBaseSpreadBps (sellReferenceBps totalSupply lockedSupplyExcl reserve elapsed)
        remainingSec + sellImpactBps volAfter elapsed) SELL_SPREAD_MAX_BPS := by
  have href (x y : ℕ) : (if x < y then y else x) = max x y := by
    split <;> omega
  simp only [sellSpreadBps, href]
  change (if sellImpactBps volAfter elapsed ≠ 0 then _ else _) = _
  split_ifs with himpact
  · rfl
  · rw [not_not.mp himpact, Nat.add_zero]
    exact (min_eq_left (sellBaseSpreadBps_le _ _)).symm

/-- `_sellLockMath` pays by the spread. -/
theorem sellLockMath_claimOut {S : Type} (call : Call) (w : World S)
    (lockAmount remainingSec lockedSupplyExcl reserveBefore elapsed : ℕ) :
    Returns (fun m ↦ m.claimOut = lockAmount *
        (BPS_DENOM - sellSpreadBps w.claim.totalSupply lockedSupplyExcl reserveBefore
          (previewSellImpactVolumeAt w call.timestamp + lockAmount) remainingSec elapsed) /
        BPS_DENOM)
      (sellLockMath call w lockAmount remainingSec lockedSupplyExcl reserveBefore elapsed) := by
  unfold sellLockMath
  apply Returns.ite
  · intro hzero
    simp [hzero]
  intro _
  refine Returns.guard fun _ ↦ ?_
  dsimp only
  have hpaid (spread : ℕ) :
      (if spread ≥ BPS_DENOM then 0 else lockAmount * (BPS_DENOM - spread) / BPS_DENOM) =
        lockAmount * (BPS_DENOM - spread) / BPS_DENOM := by
    split
    · next h => rw [Nat.sub_eq_zero_of_le h, Nat.mul_zero, Nat.zero_div]
    · rfl
  apply Returns.ite
  · exact fun _ ↦ Returns.seq fun _ _ ↦ hpaid _
  · exact fun _ ↦ hpaid _

end Quoter

/-! ## What the price of a sale depends on -/

/-- The inputs of a sale's spread besides the lock. -/
structure SaleMarket where
  totalSupply : ℕ
  lockedSupply : ℕ
  reserve : ℕ
  volume : ℕ
  elapsed : ℕ

/-- The spread for a lock of this amount and remaining time. -/
def SaleMarket.spreadBps (m : SaleMarket) (lockAmount remainingSec : ℕ) : ℕ :=
  Quoter.sellSpreadBps m.totalSupply (m.lockedSupply - lockAmount) m.reserve
    (m.volume + lockAmount) remainingSec m.elapsed

theorem SaleMarket.spreadBps_le (m : SaleMarket) (lockAmount remainingSec : ℕ) :
    m.spreadBps lockAmount remainingSec ≤ BPS_DENOM := by
  have hmax : SELL_SPREAD_MAX_BPS ≤ BPS_DENOM := by
    simp [SELL_SPREAD_MAX_BPS, BPS_DENOM]
  rw [SaleMarket.spreadBps, Quoter.sellSpreadBps_eq]
  exact (min_le_right _ _).trans hmax

/-- The base spread and the burst add-on at the volume and the locked supply that a
sale of this amount would leave, before the cap. -/
def SaleMarket.uncappedBps (m : SaleMarket) (lockAmount remainingSec : ℕ) : ℕ :=
  Quoter.sellBaseSpreadBps (Quoter.sellReferenceBps m.totalSupply (m.lockedSupply - lockAmount)
    m.reserve m.elapsed) remainingSec + Quoter.sellImpactBps (m.volume + lockAmount) m.elapsed

/-- In the market before the sales, a slice of `a` takes the base rate and the burst
add-on as far as the whole of `a + b` does, or to the cap. -/
def SaleMarket.ReachesWhole (m : SaleMarket) (a b remainingSec : ℕ) : Prop :=
  min (m.uncappedBps (a + b) remainingSec) SELL_SPREAD_MAX_BPS ≤ m.uncappedBps a remainingSec
  deriving Decidable

theorem SaleMarket.reachesWhole_iff (m : SaleMarket) (a b remainingSec : ℕ) :
    m.ReachesWhole a b remainingSec ↔
      m.spreadBps (a + b) remainingSec ≤ m.spreadBps a remainingSec := by
  unfold ReachesWhole spreadBps uncappedBps
  rw [Quoter.sellSpreadBps_eq, Quoter.sellSpreadBps_eq]
  omega

/-- Up to the reserve that a sale of the whole `a` could leave, the reserve moves no spread. -/
def SaleMarket.ReserveIdle (m : SaleMarket) (a b remainingSec : ℕ) : Prop :=
  { m with reserve := m.reserve + a }.spreadBps (a + b) remainingSec =
    m.spreadBps (a + b) remainingSec
  deriving Decidable

variable {S : Type} (port : VeClaimNFT.IShareholderRoyalties S) (call : Call) (w : World S)

def World.saleMarket : SaleMarket where
  totalSupply := w.claim.totalSupply
  lockedSupply := w.ve.totalLockedClaim
  reserve := w.furnace.furnaceReserve
  volume := Quoter.previewSellImpactVolumeAt w call.timestamp
  elapsed := Quoter.timeSinceLaunch call w

/-- The market that a sale finds after its drip. -/
def World.drippedMarket : SaleMarket :=
  { w.saleMarket call with reserve := drippedReserve call w.furnace }

theorem World.drippedMarket_idle (h : call.timestamp ≤ w.furnace.lastLpOverflowDripUpdate) :
    w.drippedMarket call = w.saleMarket call := by
  unfold World.drippedMarket
  rw [drippedReserve_idle call h]
  rfl

theorem accrueLpOverflowDrip_market :
    Returns (fun r ↦ r.1.saleMarket call = w.drippedMarket call) (accrueLpOverflowDrip call w) := by
  refine ((accrueLpOverflowDrip_rest call w).and (accrueLpOverflowDrip_reserve call w)).weaken ?_
  rintro r ⟨⟨stream, events, ghost, reserve, last, claim, -, -, hsupply, hr⟩, hreserve⟩
  rw [hr] at hreserve ⊢
  refine (SaleMarket.mk.injEq ..).mpr ⟨hsupply, rfl, hreserve, rfl, rfl⟩

/-- The remaining time that a sale prices. -/
def soldRemaining (lockEnd : ℕ) (autoMax : Bool) : ℕ :=
  if autoMax then MAX_LOCK_DURATION else lockEnd - call.timestamp

theorem quoteSellLockForExecution_paid (lockAmount lockEnd : ℕ) (autoMax : Bool) :
    Returns (fun q ↦ q.claimOut = lockAmount *
        (BPS_DENOM - { w.saleMarket call with reserve := q.reserveBefore }.spreadBps lockAmount
          (soldRemaining call lockEnd autoMax)) / BPS_DENOM)
      (Quoter.quoteSellLockForExecution call w lockAmount lockEnd autoMax) := by
  unfold Quoter.quoteSellLockForExecution
  refine Returns.seq fun _ _ ↦ Returns.guard fun _ ↦ ?_
  refine Outcome.bind (Q := fun r ↦ r.1.claimOut = lockAmount *
    (BPS_DENOM - { w.saleMarket call with reserve := r.2 }.spreadBps lockAmount
      (soldRemaining call lockEnd autoMax)) / BPS_DENOM) ?_ fun ⟨m, reserve⟩ h ↦ h
  unfold Quoter.sellLockFigures
  refine Returns.guard fun _ ↦ Returns.guard fun _ ↦ Returns.seq fun reserve _ ↦ ?_
  exact Outcome.bind (Quoter.sellLockMath_claimOut call w _ _ _ _ _) fun m h ↦ h

theorem normalizeSellExecutionQuote_paid (lockAmount lockEnd : ℕ) (autoMax : Bool)
    (minClaimOut : ℕ) :
    Returns (fun r ↦ r.1.claimOut = lockAmount *
        (BPS_DENOM - (w.saleMarket call).spreadBps lockAmount
          (soldRemaining call lockEnd autoMax)) /
        BPS_DENOM)
      (normalizeSellExecutionQuote call w lockAmount lockEnd autoMax minClaimOut
        w.furnace.furnaceReserve) := by
  unfold normalizeSellExecutionQuote
  refine Returns.seq fun raw hraw ↦ Returns.guard fun _ ↦ Returns.guard fun _ ↦ ?_
  refine Returns.guard fun _ ↦ Returns.seq fun _ _ ↦ Returns.guard fun _ ↦ ?_
  refine Returns.guard fun hreserve ↦ Returns.seq fun _ _ ↦ Returns.seq fun _ _ ↦ ?_
  have hquote : Returns (fun q : Quoter.SellExecutionQuote ↦
      q.reserveBefore = w.furnace.furnaceReserve → q.claimOut = lockAmount *
        (BPS_DENOM - (w.saleMarket call).spreadBps lockAmount
          (soldRemaining call lockEnd autoMax)) /
        BPS_DENOM) (quoteSellLockForExecution call w lockAmount lockEnd autoMax) := by
    unfold quoteSellLockForExecution
    apply Returns.ite
    · exact fun _ ↦ trivial
    intro _
    cases hq : Quoter.quoteSellLockForExecution call w lockAmount lockEnd autoMax with
    | error e => trivial
    | ok q =>
        intro hreserve
        have hpaid := (quoteSellLockForExecution_paid call w lockAmount lockEnd autoMax).of_ok hq
        rw [hreserve] at hpaid
        exact hpaid
  exact hquote.of_ok hraw (not_not.mp hreserve)

/-! ## Sales one after the other -/

theorem previewSellImpactVolumeAt_now {w' : World S} {volume : ℕ}
    (hvolume : w'.furnace.sellImpactVolume = volume)
    (hlast : w'.furnace.lastSellImpactUpdate = call.timestamp) :
    Quoter.previewSellImpactVolumeAt w' call.timestamp = volume := by
  simp only [Quoter.previewSellImpactVolumeAt, elapsedSince, hlast, hvolume, lt_irrefl, if_false,
    Nat.sub_zero, ge_iff_le, Nat.not_le.mpr BONUS_DECAY_WINDOW_pos]
  exact Nat.mul_div_cancel volume BONUS_DECAY_WINDOW_pos

theorem decayedSellImpactVolume_eq :
    decayedSellImpactVolume call w.furnace.sellImpactVolume w.furnace.lastSellImpactUpdate =
      Quoter.previewSellImpactVolumeAt w call.timestamp := by
  unfold decayedSellImpactVolume Quoter.previewSellImpactVolumeAt
  dsimp only
  split <;> split <;> first | rfl | omega

/-- What a sale leaves of the market it was priced in. -/
structure SaleMarket.Sold (m m' : SaleMarket) (lockAmount : ℕ) : Prop where
  totalSupply : m'.totalSupply = m.totalSupply
  lockedSupply : m'.lockedSupply = m.lockedSupply - lockAmount
  reserve : m.reserve ≤ m'.reserve
  reserve_le : m'.reserve ≤ m.reserve + lockAmount
  volume : m'.volume = m.volume + lockAmount
  elapsed : m'.elapsed = m.elapsed

/-- A sale in a backed state is priced after the drip and raises the reserve. -/
theorem sellLockToFurnaceFromMarket_sold (seller : Address) (tokenId minClaimOut : ℕ)
    (hself : w.furnace.self ≠ w.ve.self) (hshaped : (w.account 0).Shaped call.timestamp)
    (hbacked : (w.account 0).Backed) {lockAmount lockEnd : ℕ} {autoMax listed : Bool}
    (hlock : w.ve.getLockInfo call.timestamp tokenId = (lockAmount, lockEnd, autoMax, listed)) :
    Returns (fun r ↦ (w.drippedMarket call).Sold (r.1.saleMarket call) lockAmount ∧
        call.timestamp ≤ r.1.furnace.lastLpOverflowDripUpdate ∧
        r.2 = lockAmount * (BPS_DENOM - (w.drippedMarket call).spreadBps lockAmount
          (soldRemaining call lockEnd autoMax)) / BPS_DENOM)
      (sellLockToFurnaceFromMarket port call w seller tokenId minClaimOut) := by
  unfold sellLockToFurnaceFromMarket
  refine Returns.seq fun _ _ ↦ Returns.seq fun _ _ ↦ Returns.guard fun _ ↦ Returns.guard fun _ ↦ ?_
  refine Returns.seq fun ⟨w₁, streamed⟩ hdrip ↦ ?_
  obtain ⟨haccrue, hsettled⟩ := (accrueLpOverflowDrip_moves call w 0).of_ok hdrip
  obtain ⟨stream, events, ghost, reserve, last, claim, hlast, -, hsupply, hrest⟩ :=
    (accrueLpOverflowDrip_rest call w).of_ok hdrip
  rw [← (accrueLpOverflowDrip_market call w).of_ok hdrip]
  have hve : w₁.ve = w.ve := by
    have heq := congrArg World.ve hrest
    exact heq
  have hdripped : call.timestamp ≤ w₁.furnace.lastLpOverflowDripUpdate := by
    have heq := congrArg (fun v ↦ v.furnace.lastLpOverflowDripUpdate) hrest
    exact hlast.trans_eq heq.symm
  refine Returns.guard fun _ ↦ Returns.guard fun _ ↦ Returns.guard fun _ ↦ ?_
  have hinfo : w₁.base.ve.getLockInfo call.timestamp tokenId =
      (lockAmount, lockEnd, autoMax, listed) := by
    change w₁.ve.getLockInfo call.timestamp tokenId = _
    rw [hve, hlock]
  dsimp only [World.ve]
  rw [hinfo]
  refine Returns.guard fun _ ↦ Returns.guard fun _ ↦ Returns.guard fun _ ↦ ?_
  refine Returns.seq fun ⟨q, cut⟩ hq ↦ ?_
  have hpaid := (normalizeSellExecutionQuote_paid call _ _ _ _ _).of_ok hq
  have hsum := (normalizeSellExecutionQuote_spec call _ _ _ _ _ _).of_ok hq
  have hself₁ : w₁.furnace.self ≠ w₁.ve.self := by
    obtain ⟨hfurnace, hlock, -⟩ := Moves.fixed haccrue
    exact fun heq ↦ hself (hfurnace.symm.trans (heq.trans hlock))
  have hamount : (w₁.ve.locks tokenId).amount = lockAmount := by
    rw [hve]
    exact congrArg Prod.fst hlock
  refine Outcome.bind (settleSale_synced port call _ seller tokenId _ q cut 0 hsum hamount hself₁
    hsettled) ?_
  rintro w' ⟨pre, hmoves, ⟨day, funded, claimed, basis, stream', events', ghost', hpre⟩, hsupply',
    hlocked, rfl⟩
  have hpreBacked : (pre.account 0).Backed := Moves.backed (haccrue.trans hmoves) hshaped hbacked
  rw [syncFurnaceReserve_backed call pre hpreBacked]
  refine ⟨⟨hsupply', hlocked, ?_, ?_, ?_, ?_⟩, ?_, hpaid⟩
  · change w₁.furnace.furnaceReserve ≤ pre.furnace.furnaceReserve
    rw [hpre]
    exact Nat.le_add_right _ _
  · change pre.furnace.furnaceReserve ≤ w₁.furnace.furnaceReserve + lockAmount
    rw [hpre]
    exact Nat.add_le_add_left ((Nat.le_add_left _ _).trans_eq hsum) _
  · refine (previewSellImpactVolumeAt_now call rfl ?_).trans ?_
    · rw [hpre]
    · rw [hpre]
      exact congrArg (· + lockAmount) (decayedSellImpactVolume_eq call w₁)
  · change Quoter.timeSinceLaunch call pre = Quoter.timeSinceLaunch call w₁
    unfold Quoter.timeSinceLaunch
    rw [hpre]
  · rw [hpre]
    exact hdripped

/-- A sale that goes through. -/
structure Sale where
  seller : Address
  tokenId : ℕ
  minClaimOut : ℕ
  amount : ℕ
  lockEnd : ℕ
  autoMax : Bool
  after : World S
  claimOut : ℕ
  lock : w.ve.getLockInfo call.timestamp tokenId = (amount, lockEnd, autoMax, false)
  sold : sellLockToFurnaceFromMarket port call w seller tokenId minClaimOut = .ok (after, claimOut)

/-- The remaining time of the sold lock. -/
def Sale.remaining {port : VeClaimNFT.IShareholderRoyalties S} {call : Call} {w : World S}
    (s : Sale port call w) : ℕ :=
  soldRemaining call s.lockEnd s.autoMax

/-- The next lock comes into the custody of the Furnace. -/
structure HandedOver (w w' : World S) : Prop where
  furnace : ∃ pending, w'.furnace = { w.furnace with pendingSellSeller := pending }
  claim : w'.claim = w.claim
  lockedSupply : w'.ve.totalLockedClaim = w.ve.totalLockedClaim
  self : w'.ve.self = w.ve.self

variable {port call w}

/-- The transfer by the market with its callback hands a lock over. -/
theorem handedOver_of_transfer {w' : World S} {base : VeClaimNFT.World S} {vcall : VeClaimNFT.Call}
    {sender src operator : Address} {tokenId : ℕ}
    (htransfer : VeClaimNFT.transferFrom port vcall w.base src w.furnace.self tokenId = .ok base)
    (hreceived : onERC721Received call ⟨w.furnace, base⟩ sender operator src tokenId = .ok w') :
    HandedOver w w' := by
  have hhanded := (VeClaimNFT.transferFrom_effect port vcall w.base src _ tokenId).of_ok htransfer
  unfold onERC721Received at hreceived
  simp only [bind_eq_ok_iff] at hreceived
  obtain ⟨_, -, _, -, _, -, _, -, _, -, _, -, _, -, h⟩ := hreceived
  obtain rfl := Except.ok.inj h
  exact ⟨⟨_, rfl⟩, hhanded.claim,
    hhanded.ve.keeps VeClaimNFT.VeState.totalLockedClaim fun _ _ ↦ rfl,
    hhanded.ve.keeps VeClaimNFT.VeState.self fun _ _ ↦ rfl⟩

variable (port call w)

/-- Two locks of the same remaining time, sold one after the other; and, from the
same storage, one lock of both amounts. -/
structure SplitSale where
  first : Sale port call w
  handed : World S
  handedOver : HandedOver first.after handed
  second : Sale port call handed
  ve : VeClaimNFT.VeState
  lockedSupply : ve.totalLockedClaim = w.ve.totalLockedClaim
  self : ve.self = w.ve.self
  whole : Sale port call (w.withVe ve)
  amount : whole.amount = first.amount + second.amount
  first_remaining : first.remaining = whole.remaining
  second_remaining : second.remaining = whole.remaining

variable {port call w}

theorem HandedOver.saleMarket {w' : World S} (h : HandedOver w w') :
    w'.saleMarket call = w.saleMarket call := by
  obtain ⟨⟨pending, hfurnace⟩, hclaim, hlocked, -⟩ := h
  unfold World.saleMarket Quoter.previewSellImpactVolumeAt Quoter.timeSinceLaunch
  rw [hfurnace, hclaim, hlocked]

theorem HandedOver.account {w' : World S} (h : HandedOver w w') (k : ℕ) :
    w'.account k = w.account k := by
  obtain ⟨⟨pending, hfurnace⟩, hclaim, -, hself⟩ := h
  change w'.base.claim = w.base.claim at hclaim
  unfold World.account World.claimBalance
  rw [hfurnace, hself, hclaim]

/-- What the three sales pay. -/
theorem SplitSale.claimOut_eq (s : SplitSale port call w) (hself : w.furnace.self ≠ w.ve.self)
    (hshaped : (w.account 0).Shaped call.timestamp) (hbacked : (w.account 0).Backed) :
    let m := w.drippedMarket call
    let m' := s.first.after.saleMarket call
    m.Sold m' s.first.amount ∧
      s.first.claimOut = s.first.amount *
        (BPS_DENOM - m.spreadBps s.first.amount s.whole.remaining) / BPS_DENOM ∧
      s.second.claimOut = s.second.amount *
        (BPS_DENOM - m'.spreadBps s.second.amount s.whole.remaining) / BPS_DENOM ∧
      s.whole.claimOut = s.whole.amount *
        (BPS_DENOM - m.spreadBps s.whole.amount s.whole.remaining) / BPS_DENOM := by
  obtain ⟨hsold, hdripped, hfirstOut⟩ :=
    (sellLockToFurnaceFromMarket_sold port call w _ _ _ hself hshaped hbacked s.first.lock).of_ok
      s.first.sold
  rw [show soldRemaining call s.first.lockEnd s.first.autoMax = s.whole.remaining from
    s.first_remaining] at hfirstOut
  refine ⟨hsold, hfirstOut, ?_, ?_⟩
  · have hmoves : Moves call.timestamp (w.account 0) (s.handed.account 0) := by
      rw [s.handedOver.account]
      exact (sellLockToFurnaceFromMarket_moves port call w _ _ _ 0 hself).of_ok s.first.sold
    have hself' : s.handed.furnace.self ≠ s.handed.ve.self := by
      obtain ⟨hfurnace, hlock, -⟩ := Moves.fixed hmoves
      exact fun heq ↦ hself (hfurnace.symm.trans (heq.trans hlock))
    have hdripped' : call.timestamp ≤ s.handed.furnace.lastLpOverflowDripUpdate := by
      obtain ⟨pending, hfurnace⟩ := s.handedOver.furnace
      rw [hfurnace]
      exact hdripped
    obtain ⟨-, -, hsecondOut⟩ :=
      (sellLockToFurnaceFromMarket_sold port call s.handed _ _ _ hself'
        (Moves.shaped hmoves hshaped) (Moves.backed hmoves hshaped hbacked)
        s.second.lock).of_ok s.second.sold
    rw [show soldRemaining call s.second.lockEnd s.second.autoMax = s.whole.remaining from
      s.second_remaining, World.drippedMarket_idle call s.handed hdripped',
      s.handedOver.saleMarket] at hsecondOut
    exact hsecondOut
  · have haccount : (w.withVe s.ve).account 0 = w.account 0 := by
      unfold World.account World.withVe World.ve
      rw [show s.ve.self = w.base.ve.self from s.self]
      rfl
    obtain ⟨-, -, hwholeOut⟩ :=
      (sellLockToFurnaceFromMarket_sold port call (w.withVe s.ve) _ _ _
        (fun heq ↦ hself (heq.trans s.self)) (haccount ▸ hshaped) (haccount ▸ hbacked)
        s.whole.lock).of_ok s.whole.sold
    have hmarket : (w.withVe s.ve).drippedMarket call = w.drippedMarket call :=
      (SaleMarket.mk.injEq ..).mpr ⟨rfl, s.lockedSupply, rfl, rfl, rfl⟩
    rw [hmarket] at hwholeOut
    exact hwholeOut

/-- The second slice is never cheaper than the whole. -/
theorem SaleMarket.Sold.spreadBps_le {m m' : SaleMarket} {a : ℕ} (h : m.Sold m' a)
    (b remainingSec : ℕ) : m.spreadBps (a + b) remainingSec ≤ m'.spreadBps b remainingSec := by
  have hsupply : m.lockedSupply - (a + b) = m'.lockedSupply - b := by
    rw [h.lockedSupply, Nat.sub_sub]
  have hvolume : m.volume + (a + b) = m'.volume + b := by
    rw [h.volume, Nat.add_assoc]
  unfold SaleMarket.spreadBps
  rw [hsupply, hvolume, h.totalSupply, h.elapsed]
  exact Quoter.sellSpreadBps_mono _ _ _ _ _ h.reserve

/-- Where the reserve moves no spread, the second slice is priced as the whole. -/
theorem SaleMarket.Sold.spreadBps_eq {m m' : SaleMarket} {a b remainingSec : ℕ} (h : m.Sold m' a)
    (hidle : m.ReserveIdle a b remainingSec) :
    m'.spreadBps b remainingSec = m.spreadBps (a + b) remainingSec := by
  refine le_antisymm (le_trans ?_ hidle.le) (h.spreadBps_le b remainingSec)
  have hsupply : m'.lockedSupply - b = m.lockedSupply - (a + b) := by
    rw [h.lockedSupply, Nat.sub_sub]
  have hvolume : m'.volume + b = m.volume + (a + b) := by
    rw [h.volume, Nat.add_assoc]
  unfold SaleMarket.spreadBps
  rw [hsupply, hvolume, h.totalSupply, h.elapsed]
  exact Quoter.sellSpreadBps_mono _ _ _ _ _ h.reserve_le

/-- Payouts at no lower spreads. -/
theorem payouts_le {a b s₁ s₂ s d : ℕ} (h₁ : s ≤ s₁) (h₂ : s ≤ s₂) :
    a * (d - s₁) / d + b * (d - s₂) / d ≤ (a + b) * (d - s) / d := by
  calc a * (d - s₁) / d + b * (d - s₂) / d
    _ ≤ a * (d - s) / d + b * (d - s) / d := by
        gcongr
    _ ≤ (a * (d - s) + b * (d - s)) / d := Nat.div_add_div_le_add_div
    _ = (a + b) * (d - s) / d := by
        rw [Nat.add_mul]

/-- A lower spread on `4 d` or more is worth more than two units. -/
theorem payouts_gap {a b s₁ s d : ℕ} (hd : 0 < d) (hs : s ≤ d) (hlow : s₁ < s) (ha : 4 * d ≤ a) :
    (a + b) * (d - s) / d + 2 < a * (d - s₁) / d + b * (d - s) / d := by
  have hfirst := @Nat.lt_div_mul_add (a * (d - s₁)) d hd
  have hsecond := @Nat.lt_div_mul_add (b * (d - s)) d hd
  have hwhole := Nat.div_mul_le_self ((a + b) * (d - s)) d
  have hgain : a * (d - s) + a ≤ a * (d - s₁) := by
    rw [← Nat.mul_succ]
    exact Nat.mul_le_mul_left _ (by omega)
  by_contra hle
  have hscaled := Nat.mul_le_mul_right d (Nat.not_lt.mp hle)
  rw [Nat.add_mul, Nat.add_mul] at hscaled
  rw [Nat.add_mul] at hwhole hscaled
  omega

/-- Slices of one lock pay at most what the whole does, to within 2 wei, when the first
slice takes the spread as far as the whole.  Where the reserve that the first sale
leaves moves no spread, this is also necessary. -/
theorem sell_splitting_iff {c : Timed (World S)} (hc : (systemOf port Op.Covered).Reachable c)
    (hle : c.now ≤ call.timestamp) (s : SplitSale port call c.state) :
    let m := c.state.drippedMarket call
    let a := s.first.amount
    let b := s.second.amount
    (m.ReachesWhole a b s.whole.remaining →
        s.first.claimOut + s.second.claimOut ≤ s.whole.claimOut + 2) ∧
      (4 * BPS_DENOM ≤ a → m.ReserveIdle a b s.whole.remaining →
        (s.first.claimOut + s.second.claimOut ≤ s.whole.claimOut + 2 ↔
          m.ReachesWhole a b s.whole.remaining)) := by
  have hsound := reachable_sound (systemOf_reachable hc)
  obtain ⟨hsold, hfirst, hsecond, hwhole⟩ := s.claimOut_eq hsound.distinct
    (hsound.shaped.later hle) (reachable_backed hc)
  intro m a b
  have henough (hreaches : m.ReachesWhole a b s.whole.remaining) :
      s.first.claimOut + s.second.claimOut ≤ s.whole.claimOut + 2 := by
    rw [hfirst, hsecond, hwhole, s.amount]
    exact (payouts_le ((m.reachesWhole_iff ..).mp hreaches)
      (hsold.spreadBps_le _ _)).trans (Nat.le_add_right _ 2)
  refine ⟨henough, fun ha hidle ↦ ⟨fun hpays ↦ ?_, henough⟩⟩
  by_contra hshort
  rw [m.reachesWhole_iff] at hshort
  rw [hfirst, hsecond, hwhole, s.amount, hsold.spreadBps_eq hidle] at hpays
  exact absurd hpays (not_le.mpr (payouts_gap BPS_DENOM_pos (SaleMarket.spreadBps_le _ _ _)
    (not_le.mp hshort) ha))

theorem lockedWorld_reachable {a b : ℕ} {w : World Unit} (h : lockedWorld [a, b] = .ok w) :
    (systemOf VeClaimNFT.acceptingPort Op.Covered).Reachable ⟨3, w⟩ := by
  exact systemOf_run wiredWorld_reachable h (by simp [wiringCalls, Op.Covered, Op.brought])
    (by simp [wiringCalls, wiredCall])

theorem handTo_spec {w w' : World Unit} {tokenId : ℕ} (h : handTo w tokenId = .ok w') :
    HandedOver w w' ∧ ((systemOf VeClaimNFT.acceptingPort Op.Covered).Reachable ⟨3, w⟩ →
      (systemOf VeClaimNFT.acceptingPort Op.Covered).Reachable ⟨3, w'⟩) := by
  obtain ⟨base, htransfer, h⟩ := bind_eq_ok_iff.mp h
  obtain ⟨w₁, houtside, hreceived⟩ := bind_eq_ok_iff.mp h
  refine ⟨?_, fun hw ↦ ?_⟩
  · obtain ⟨_, -, hbase⟩ := bind_eq_ok_iff.mp houtside
    obtain ⟨_, -, hbase⟩ := bind_eq_ok_iff.mp hbase
    obtain ⟨_, -, hbase⟩ := bind_eq_ok_iff.mp hbase
    obtain rfl := Except.ok.inj hbase
    obtain ⟨_, -, hreceived⟩ := bind_eq_ok_iff.mp hreceived
    exact handedOver_of_transfer htransfer hreceived
  · have houtside' : (systemOf VeClaimNFT.acceptingPort Op.Covered).Reachable ⟨3, w₁⟩ :=
      hw.step ⟨wiredCall 2 6, .outside base, rfl, le_rfl, houtside, rfl⟩
    exact houtside'.step ⟨wiredCall 2 1, .onERC721Received 6 7 tokenId, rfl, le_rfl, hreceived, rfl⟩

/-- Two equal locks sold apart, and one of both amounts; together with what is read off
these runs and a check of the first world and of the three payouts. -/
def splitRun (half : ℕ) (check : World Unit → ℕ → ℕ → ℕ → Bool) : Except Error Bool := do
  let w ← handTo (← lockedWorld [half, half]) 1
  let (w₁, first) ← sellLockToFurnaceFromMarket VeClaimNFT.acceptingPort (wiredCall 2 6) w 7 1 0
  let handed ← handTo w₁ 2
  let (_, second) ←
    sellLockToFurnaceFromMarket VeClaimNFT.acceptingPort (wiredCall 2 6) handed 7 2 0
  let v ← handTo (← lockedWorld [2 * half]) 1
  let (_, whole) ←
    sellLockToFurnaceFromMarket VeClaimNFT.acceptingPort (wiredCall 2 6) (w.withVe v.ve) 7 1 0
  return decide (
    w.ve.getLockInfo 3 1 = (half, 2592003, false, false) ∧
    handed.ve.getLockInfo 3 2 = (half, 2592003, false, false) ∧
    v.ve.getLockInfo 3 1 = (2 * half, 2592003, false, false) ∧
    v.ve.totalLockedClaim = w.ve.totalLockedClaim ∧ v.ve.self = w.ve.self ∧
    check w first second whole = true)

theorem splitRun_facts {half : ℕ} {check : World Unit → ℕ → ℕ → ℕ → Bool}
    (hok : (splitRun half check).toOption.any id = true) :
    ∃ w, (systemOf VeClaimNFT.acceptingPort Op.Covered).Reachable ⟨3, w⟩ ∧
      ∃ s : SplitSale VeClaimNFT.acceptingPort (wiredCall 2 6) w,
        (s.first.amount = half ∧ s.second.amount = half ∧ s.whole.remaining = 2592000) ∧
          check w s.first.claimOut s.second.claimOut s.whole.claimOut = true := by
  obtain ⟨_, hrun, rfl⟩ := exists_ok_of_any hok
  obtain ⟨w₀, hlocked, hrest⟩ := bind_eq_ok_iff.mp hrun
  obtain ⟨w, hhand, hrest⟩ := bind_eq_ok_iff.mp hrest
  obtain ⟨⟨w₁, first⟩, hfirst, hrest⟩ := bind_eq_ok_iff.mp hrest
  obtain ⟨handed, hhanded, hrest⟩ := bind_eq_ok_iff.mp hrest
  obtain ⟨⟨w₂, second⟩, hsecond, hrest⟩ := bind_eq_ok_iff.mp hrest
  obtain ⟨v₀, -, hrest⟩ := bind_eq_ok_iff.mp hrest
  obtain ⟨v, -, hrest⟩ := bind_eq_ok_iff.mp hrest
  obtain ⟨⟨w₃, whole⟩, hwhole, hrest⟩ := bind_eq_ok_iff.mp hrest
  obtain ⟨hlock₁, hlock₂, hlock, htotal, hself, hcheck⟩ := of_decide_eq_true (Except.ok.inj hrest)
  refine ⟨w, (handTo_spec hhand).2 (lockedWorld_reachable hlocked), ⟨?_, ?_⟩⟩
  · exact {
      first := ⟨7, 1, 0, _, _, _, w₁, first, hlock₁, hfirst⟩
      handed := handed
      handedOver := (handTo_spec hhanded).1
      second := ⟨7, 2, 0, _, _, _, w₂, second, hlock₂, hsecond⟩
      ve := v.ve
      lockedSupply := htotal
      self := hself
      whole := ⟨7, 1, 0, _, _, _, w₃, whole, hlock, hwhole⟩
      amount := Nat.two_mul half
      first_remaining := rfl
      second_remaining := rfl }
  · exact ⟨⟨rfl, rfl, rfl⟩, hcheck⟩

/-- Two locks of 50000 CLAIM stay below the first step together, and no reserve that the
first sale leaves moves the spread of the second. -/
theorem sell_splitting_iff_below : ∃ (w : World Unit)
    (s : SplitSale VeClaimNFT.acceptingPort (wiredCall 2 6) w),
    s.first.amount = 50000 * 10 ^ 18 ∧
      (w.drippedMarket (wiredCall 2 6)).ReachesWhole s.first.amount s.second.amount
        s.whole.remaining ∧
      s.first.claimOut + s.second.claimOut ≤ s.whole.claimOut + 2 := by
  let check (w : World Unit) (_ _ _ : ℕ) : Bool :=
    let m := w.drippedMarket (wiredCall 2 6)
    decide (m.ReachesWhole (50000 * 10 ^ 18) (50000 * 10 ^ 18) 2592000 ∧
      m.ReserveIdle (50000 * 10 ^ 18) (50000 * 10 ^ 18) 2592000)
  have hok : (splitRun (50000 * 10 ^ 18) check).toOption.any id = true := by decide +kernel
  obtain ⟨w, hw, s, ⟨hfirst, hsecond, hremaining⟩, hcheck⟩ := splitRun_facts hok
  obtain ⟨hreaches, hidle⟩ := of_decide_eq_true hcheck
  rw [← hremaining] at hreaches hidle
  nth_rewrite 1 [← hfirst] at hreaches hidle
  rw [← hsecond] at hreaches hidle
  have hlarge : 4 * BPS_DENOM ≤ s.first.amount := by
    rw [hfirst, BPS_DENOM]
    decide
  exact ⟨w, s, hfirst, hreaches,
    ((sell_splitting_iff hw le_rfl s).2 hlarge hidle).mpr hreaches⟩

/-- Two locks of 270000 CLAIM, the first of which stays below the step. -/
theorem splitRun_halves : ∃ w, (systemOf VeClaimNFT.acceptingPort Op.Covered).Reachable ⟨3, w⟩ ∧
    ∃ s : SplitSale VeClaimNFT.acceptingPort (wiredCall 2 6) w,
      s.whole.claimOut + 2 < s.first.claimOut + s.second.claimOut := by
  have hok : (splitRun (270000 * 10 ^ 18) fun _ first second whole ↦
      decide (whole + 2 < first + second)).toOption.any id = true := by decide +kernel
  obtain ⟨w, hw, s, -, hlt⟩ := splitRun_facts hok
  exact ⟨w, hw, s, of_decide_eq_true hlt⟩

/-- The first half stays below the burst that the whole sets off. -/
theorem not_sell_splitting_ineffective : ¬ ∀ (c : Timed (World Unit)) (call : Call)
    (s : SplitSale VeClaimNFT.acceptingPort call c.state),
    (systemOf VeClaimNFT.acceptingPort Op.Covered).Reachable c → c.now ≤ call.timestamp →
      s.first.claimOut + s.second.claimOut ≤ s.whole.claimOut + 2 := by
  intro h
  obtain ⟨w, hw, s, hlt⟩ := splitRun_halves
  exact absurd (h ⟨3, w⟩ _ s hw le_rfl) (not_le.mpr hlt)

end ClaimRush.Furnace
