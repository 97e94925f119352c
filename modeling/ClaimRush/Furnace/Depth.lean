import ClaimRush.Furnace.Frame

/-!
# What the AMM reads and leaves

A bonus depends on the reserve after the drip, the stored depth and the supplies.
A call that pays one takes it out of the reserve and deepens the pool by the
effective principal; any other call leaves the inputs alone.
-/

namespace ClaimRush.Furnace

open Constants

variable {S : Type} (call : Call) (w : World S)

/-- The reserve after the pending drip. -/
def drippedReserve (f : FurnaceState) : ℕ :=
  if call.timestamp ≤ f.lastLpOverflowDripUpdate ∨ f.lpRewardsVault = 0 then f.furnaceReserve
  else if f.furnaceReserve ≤ RESERVE_TARGET_FINAL then f.furnaceReserve
  else
    match previewOverflowDrip call f.mineCore f.deploymentTime f.furnaceReserve with
    | .ok p =>
        f.furnaceReserve - min (p.perDay * (call.timestamp - f.lastLpOverflowDripUpdate) / DAY)
          (f.furnaceReserve - RESERVE_TARGET_FINAL)
    | .error _ => f.furnaceReserve

theorem overflowDrip_reserve (f : FurnaceState) :
    Returns (fun f' ↦ f'.furnaceReserve = drippedReserve call f) (overflowDrip call f) := by
  unfold overflowDrip drippedReserve
  apply Returns.ite
  · exact fun hpast ↦ (if_pos (.inl hpast)).symm
  intro hpast
  apply Returns.ite
  · exact fun hvault ↦ (if_pos (.inr hvault)).symm
  intro hvault
  rw [if_neg (not_or.mpr ⟨hpast, hvault⟩)]
  apply Returns.ite
  · exact fun hlow ↦ (if_pos hlow).symm
  intro hlow
  rw [if_neg hlow]
  refine Returns.seq fun p hp ↦ ?_
  rw [show previewOverflowDrip call f.mineCore f.deploymentTime f.furnaceReserve = .ok p from hp]
  apply Returns.ite
  · intro hnone
    simp [hnone]
  intro _
  refine Returns.seq fun accrued haccrued ↦ ?_
  obtain ⟨-, rfl⟩ := uint256_eq_ok.mp haccrued
  apply Returns.ite
  · intro hnone
    simp [hnone]
  intro _
  refine Outcome.bind (fundLpStreamInternal_rest call _ _) ?_
  rintro f' ⟨stream, events, ghost, rfl⟩
  refine Returns.guard fun _ ↦ ?_
  change _ - _ = _ - _
  congr 1
  dsimp only
  split <;> omega

theorem accrueLpOverflowDrip_reserve :
    Returns (fun r ↦ r.1.furnace.furnaceReserve = drippedReserve call w.furnace)
      (accrueLpOverflowDrip call w) := by
  unfold accrueLpOverflowDrip
  refine Outcome.bind (accrueLpStream_rest call w) ?_
  rintro ⟨w₁, streamed⟩ ⟨stream, events, ghost, claim, -, rfl⟩
  exact Outcome.bind (overflowDrip_reserve call _) fun _ h ↦ h

/-! ## The inputs -/

/-- What a bonus depends on besides the effective principal. -/
structure AmmInputs where
  reserve : ℕ
  depth : ℕ
  lastUpdate : ℕ
  lockedSupply : ℕ
  totalSupply : ℕ
  elapsed : ℕ
  lpEnabled : Bool

/-- The inputs that a call finds once the drip is taken. -/
def World.ammInputs : AmmInputs where
  reserve := drippedReserve call w.furnace
  depth := w.furnace.bonusVirtualDepth
  lastUpdate := w.furnace.lastBonusUpdate
  lockedSupply := w.ve.totalLockedClaim
  totalSupply := w.claim.totalSupply
  elapsed := timeSinceLaunch call w.furnace.mineCore w.furnace.deploymentTime
  lpEnabled := w.furnace.lpRewardsVault ≠ 0

/-- The rates of the AMM at its inputs. -/
def AmmInputs.rates (a : AmmInputs) (now : ℕ) : BonusAmmRates :=
  computeBonusAmmRates a.lpEnabled a.reserve a.depth a.lastUpdate
    (Quoter.userSpotBonusBps a.lockedSupply a.totalSupply a.reserve a.elapsed)
    (Quoter.lpScaleBps a.lockedSupply a.totalSupply a.reserve a.elapsed) now

/-- The gross bonus for an effective principal. -/
def AmmInputs.gross (a : AmmInputs) (now principalEff : ℕ) : ℕ :=
  if (a.rates now).grossSpotBps = 0 then 0
  else grossBonusOf a.reserve principalEff (a.rates now).virtualDepth

/-- The inputs after a bonus for an effective principal. -/
def AmmInputs.after (a : AmmInputs) (now principalEff : ℕ) : AmmInputs :=
  if (a.rates now).grossSpotBps = 0 then a
  else
    { a with
      reserve := a.reserve - a.gross now principalEff
      depth := (a.rates now).virtualDepth + principalEff
      lastUpdate := now }

theorem drippedReserve_idle {f : FurnaceState} (h : call.timestamp ≤ f.lastLpOverflowDripUpdate) :
    drippedReserve call f = f.furnaceReserve :=
  if_pos (.inl h)

/-- What a call to the AMM leaves. -/
structure Paid (principalEff : ℕ) (w w' : World S) (bonus : Bonus) : Prop where
  gross : bonus.gross = (w.ammInputs call).gross call.timestamp principalEff
  user_le : bonus.user ≤ bonus.gross
  inputs : w'.ammInputs call = (w.ammInputs call).after call.timestamp principalEff
  dripped : call.timestamp ≤ w'.furnace.lastLpOverflowDripUpdate
  bonusBasis : w'.furnace.bonusBasis = w.furnace.bonusBasis
  ve : w'.ve = w.ve

theorem computeBonusAmmPayout_grossBonus {reserve principalEff : ℕ} (userSpotBps : ℕ)
    (r : BonusAmmRates) (hreserve : reserve ≠ 0) (heff : principalEff ≠ 0) :
    (computeBonusAmmPayout reserve principalEff userSpotBps r).grossBonus =
      if r.grossSpotBps = 0 then 0 else grossBonusOf reserve principalEff r.virtualDepth := by
  simp only [computeBonusAmmPayout, hreserve, heff, false_or]
  split_ifs <;> rfl

theorem bonusAmmComputeAndUpdate_frame
    (user : Address) (principalClaim principalEff lockDurationSec : ℕ) (heff : principalEff ≠ 0)
    (hdripped : call.timestamp ≤ w.furnace.lastLpOverflowDripUpdate) :
    let a := w.ammInputs call
    Returns (fun r ↦ r.2.grossSpotBps = (a.rates call.timestamp).grossSpotBps ∧
        r.2.grossBonus = a.gross call.timestamp principalEff ∧
        r.1.ammInputs call = a.after call.timestamp principalEff)
      (bonusAmmComputeAndUpdate call w user principalClaim principalEff lockDurationSec) := by
  intro a
  have hreserve : a.reserve = w.furnace.furnaceReserve := drippedReserve_idle call hdripped
  have hrates : (bonusRates call w w.furnace.furnaceReserve).2 = a.rates call.timestamp := by
    rw [← hreserve]
    rfl
  have hspot : (bonusRates call w w.furnace.furnaceReserve).2.grossSpotBps =
      (a.rates call.timestamp).grossSpotBps := congrArg BonusAmmRates.grossSpotBps hrates
  unfold bonusAmmComputeAndUpdate
  refine Returns.guard fun _ ↦ ?_
  apply Returns.ite
  · intro hzero
    have hnone : (a.rates call.timestamp).grossSpotBps = 0 := by
      rw [← hrates]
      simp [bonusRates, computeBonusAmmRates, hzero]
    refine ⟨hnone.symm, ?_, ?_⟩
    · simp [AmmInputs.gross, hnone]
    · simp [AmmInputs.after, hnone, a]
  intro hpos
  have hpayout := computeBonusAmmPayout_grossBonus
    (bonusRates call w w.furnace.furnaceReserve).1
    (bonusRates call w w.furnace.furnaceReserve).2 hpos heff
  rw [hrates] at hpayout
  have hgross : (computeBonusAmmPayout w.furnace.furnaceReserve principalEff
      (bonusRates call w w.furnace.furnaceReserve).1 (a.rates call.timestamp)).grossBonus =
        a.gross call.timestamp principalEff := by
    rw [hpayout, ← hreserve]
    rfl
  apply Returns.ite
  · intro hnone
    have hnone : (a.rates call.timestamp).grossSpotBps = 0 := hspot.symm.trans hnone
    refine ⟨hspot, ?_, ?_⟩
    · rw [← hgross, ← hrates]
      rfl
    · simp [AmmInputs.after, hnone, a]
  intro hsome
  have hsome : (a.rates call.timestamp).grossSpotBps ≠ 0 := fun h ↦ hsome (hspot.trans h)
  refine Returns.guard fun _ ↦ ⟨hspot, ?_, ?_⟩
  · rw [← hgross, ← hrates]
    rfl
  · unfold AmmInputs.after
    rw [if_neg hsome, ← hgross, ← hrates, hreserve]
    refine (AmmInputs.mk.injEq ..).mpr ⟨?_, rfl, rfl, rfl, rfl, rfl, rfl⟩
    exact drippedReserve_idle call hdripped

/-- Changes that the AMM does not look at. -/
theorem ammInputs_congr {w w' : World S} (hfurnace : ∃ stream events ghost basis,
      w'.furnace = { w.furnace with
        stream := stream
        events := events
        ghost := ghost
        bonusBasis := basis })
    (hlocked : w'.ve.totalLockedClaim = w.ve.totalLockedClaim)
    (hsupply : w'.claim.totalSupply = w.claim.totalSupply) :
    w'.ammInputs call = w.ammInputs call := by
  obtain ⟨stream, events, ghost, basis, hfurnace⟩ := hfurnace
  unfold World.ammInputs
  rw [hfurnace, hlocked, hsupply]
  rfl

theorem splitBonusAmm_le (grossBonus lpRateBps : ℕ) :
    (splitBonusAmm grossBonus lpRateBps).1 ≤ grossBonus :=
  Nat.le_of_add_right_le (splitBonusAmm_sum grossBonus lpRateBps).le

theorem bonusAmmEmit_eq (f : FurnaceState) (frame : BonusAmmFrame) :
    ∃ events, bonusAmmEmit f frame = { f with events := events } := by
  unfold bonusAmmEmit
  split
  · exact ⟨f.events, rfl⟩
  · exact ⟨_, rfl⟩

theorem bonusAmm_paid (user : Address) (principalClaim principalEff lockDurationSec : ℕ)
    (heff : principalEff ≠ 0) (hdripped : call.timestamp ≤ w.furnace.lastLpOverflowDripUpdate) :
    Returns (fun r ↦ Paid call principalEff w r.1 r.2)
      (bonusAmm call w user principalClaim principalEff lockDurationSec) := by
  unfold bonusAmm
  rw [if_neg heff]
  refine Outcome.bind ((bonusAmmComputeAndUpdate_frame call w user principalClaim principalEff
    lockDurationSec heff hdripped).and (bonusAmmComputeAndUpdate_changes call w user principalClaim
      principalEff lockDurationSec)) ?_
  rintro ⟨w₁, frame⟩ ⟨⟨hspot, hgross, hinputs⟩, lastUpdate, reserve, depth, rfl⟩
  dsimp only at hspot hgross
  apply Returns.ite
  · intro hnone
    have hnone : ((w.ammInputs call).rates call.timestamp).grossSpotBps = 0 :=
      hspot.symm.trans hnone
    refine ⟨?_, le_rfl, hinputs, hdripped, rfl, rfl⟩
    simp [AmmInputs.gross, hnone]
  intro _
  have hle := splitBonusAmm_le frame.grossBonus frame.lpRateBps
  unfold bonusAmmSplitAndRoute
  generalize splitBonusAmm frame.grossBonus frame.lpRateBps = parts at hle ⊢
  obtain ⟨userBonus, lpBonus⟩ := parts
  dsimp only at hle ⊢
  have hpaid (f : FurnaceState) (emitted : BonusAmmFrame)
      (hf : ∃ stream events ghost, f = { w.furnace with
        lastBonusUpdate := lastUpdate
        furnaceReserve := reserve
        bonusVirtualDepth := depth
        stream := stream
        events := events
        ghost := ghost }) :
      Paid call principalEff w ⟨bonusAmmEmit f emitted, w.base⟩
        ⟨frame.grossBonus, userBonus, lpBonus⟩ := by
    obtain ⟨stream, events, ghost, rfl⟩ := hf
    obtain ⟨logged, hlogged⟩ := bonusAmmEmit_eq { w.furnace with
      lastBonusUpdate := lastUpdate
      furnaceReserve := reserve
      bonusVirtualDepth := depth
      stream := stream
      events := events
      ghost := ghost } emitted
    rw [hlogged]
    refine ⟨hgross, hle, ?_, hdripped, rfl, rfl⟩
    rw [← hinputs]
    exact ammInputs_congr call ⟨_, _, _, _, rfl⟩ rfl rfl
  by_cases hlp : lpBonus = 0
  · subst hlp
    exact hpaid _ _ ⟨_, _, _, rfl⟩
  simp only [ne_eq, hlp, not_false_eq_true, if_true, bind_assoc, pure_bind]
  refine Outcome.bind (fundLpStreamInternal_rest call _ lpBonus) ?_
  rintro f ⟨stream, events, ghost, rfl⟩
  exact hpaid _ _ ⟨_, _, _, rfl⟩

/-- The drip is part of the inputs. -/
theorem accrueLpOverflowDrip_inputs :
    Returns (fun r ↦ r.1.ammInputs call = w.ammInputs call ∧
        call.timestamp ≤ r.1.furnace.lastLpOverflowDripUpdate ∧
        r.1.furnace.bonusBasis = w.furnace.bonusBasis ∧ r.1.ve = w.ve)
      (accrueLpOverflowDrip call w) := by
  refine ((accrueLpOverflowDrip_rest call w).and (accrueLpOverflowDrip_reserve call w)).weaken ?_
  rintro r ⟨⟨stream, events, ghost, reserve, last, claim, hlast, -, hsupply, hr⟩, hreserve⟩
  rw [hr] at hreserve ⊢
  refine ⟨?_, hlast, rfl, rfl⟩
  refine (AmmInputs.mk.injEq ..).mpr ⟨?_, rfl, rfl, rfl, hsupply, rfl, rfl⟩
  exact (drippedReserve_idle call hlast).trans hreserve

theorem applyBonusAmm_paid (user : Address) (principalClaim principalEff lockDurationSec : ℕ)
    (heff : principalEff ≠ 0) :
    Returns (fun r ↦ Paid call principalEff w r.1 r.2)
      (applyBonusAmm call w user principalClaim principalEff lockDurationSec) := by
  unfold applyBonusAmm
  refine Outcome.bind (accrueLpOverflowDrip_inputs call w) ?_
  rintro ⟨w₁, streamed⟩ ⟨hinputs, hdripped, hbasis, hve⟩
  dsimp only at hinputs hdripped hbasis hve
  refine (bonusAmm_paid call w₁ user principalClaim principalEff lockDurationSec heff
    hdripped).weaken ?_
  rintro r hpaid
  exact ⟨hinputs ▸ hpaid.gross, hpaid.user_le, hinputs ▸ hpaid.inputs, hpaid.dripped,
    hpaid.bonusBasis.trans hbasis, hpaid.ve.trans hve⟩

end ClaimRush.Furnace
