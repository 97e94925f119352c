import ClaimRush.Furnace.SaleQuotes
import ClaimRush.Furnace.Slices

/-!
# Quotes of bonuses

A bonus quote previews the drip that execution takes first, and computes the bonus
with the quoter's own copies of the curve.
-/

namespace ClaimRush.Furnace

open Constants

variable {S : Type}

namespace Quoter

variable {call : Call} {w : World S}

/-- The two copies of the duration curve. -/
theorem durationWeight_eq (durationSeconds : ℕ) :
    durationWeight durationSeconds = Furnace.durationWeight durationSeconds := rfl

/-- The three outputs of a quote, read off the inputs of the AMM. -/
def bonusAt (a : AmmInputs) (now principalEff : ℕ) : ℕ × ℕ × ℕ :=
  let gross := a.gross now principalEff
  (gross, splitBonusAmm gross (a.rates now).lpRateBps)

theorem grossSpotBonusBps_eq_zero {userSpotBonusBps lpRateBps : ℕ} :
    grossSpotBonusBps userSpotBonusBps lpRateBps = 0 ↔ userSpotBonusBps = 0 := by
  constructor
  · intro h
    simp only [grossSpotBonusBps] at h
    split at h
    · exact absurd h MAX_GROSS_BONUS_BPS_pos.ne'
    · exact Nat.eq_zero_of_add_eq_zero_right h
  · rintro rfl
    simp [grossSpotBonusBps]

theorem bonusAt_idle {a : AmmInputs} {now : ℕ} (h : (a.rates now).grossSpotBps = 0)
    (principalEff : ℕ) : bonusAt a now principalEff = (0, 0, 0) := by
  have hgross : a.gross now principalEff = 0 := if_pos h
  rw [bonusAt, hgross]
  simp [splitBonusAmm]

theorem rates_eq {a : AmmInputs} {now : ℕ} (h : (a.rates now).grossSpotBps ≠ 0) :
    let spot := userSpotBonusBps a.lockedSupply a.totalSupply a.reserve a.elapsed
    let lpRate := lpTopupRateBps a.lpEnabled spot *
      lpScaleBps a.lockedSupply a.totalSupply a.reserve a.elapsed / BPS_DENOM
    a.rates now = ⟨lpRate, grossSpotBonusBps spot lpRate, previewVirtualDepth a.reserve a.depth
      a.lastUpdate (grossSpotBonusBps spot lpRate) now⟩ := by
  intro spot lpRate
  have hpos : a.reserve ≠ 0 ∧ spot ≠ 0 := not_or.mp (mt grossSpotBps_eq_zero.mpr h)
  unfold AmmInputs.rates computeBonusAmmRates
  rw [if_neg (not_or.mpr hpos)]
  exact if_neg (mt grossSpotBonusBps_eq_zero.mp hpos.2)

/-- A quote shows what the AMM pays on the previewed reserve. -/
theorem quoteBonusAmmView_eq {dripped : ℕ}
    (hpreview : previewReserveAfterLpOverflowDrip call w =
      .ok ((w.ammInputs call).reserve, dripped)) (principalEff : ℕ) :
    quoteBonusAmmView call w principalEff =
      .ok (bonusAt (w.ammInputs call) call.timestamp principalEff) := by
  set a := w.ammInputs call with ha
  set spot := userSpotBonusBps a.lockedSupply a.totalSupply a.reserve a.elapsed with hspot
  set lpRate := lpTopupRateBps a.lpEnabled spot *
    lpScaleBps a.lockedSupply a.totalSupply a.reserve a.elapsed / BPS_DENOM with hlp
  unfold quoteBonusAmmView
  by_cases hzero : principalEff = 0
  · subst hzero
    rw [if_pos rfl]
    simp [bonusAt, AmmInputs.gross, grossBonusOf, splitBonusAmm]
  rw [if_neg hzero, hpreview]
  change (if a.reserve = 0 then _ else if grossSpotBonusBps spot lpRate = 0 then _ else _) = _
  by_cases hnone : (a.rates call.timestamp).grossSpotBps = 0
  · rw [bonusAt_idle hnone]
    rcases grossSpotBps_eq_zero.mp hnone with hreserve | hspot₀
    · rw [if_pos hreserve]
      rfl
    · rw [if_pos (c := grossSpotBonusBps spot lpRate = 0) (grossSpotBonusBps_eq_zero.mpr hspot₀),
        ite_self]
      rfl
  obtain ⟨hreserve, hspot₀⟩ := not_or.mp (mt grossSpotBps_eq_zero.mpr hnone)
  have hrates := rates_eq hnone
  have hdepth : previewVirtualDepth a.reserve a.depth a.lastUpdate
      (grossSpotBonusBps spot lpRate) call.timestamp ≠ 0 := by
    have hpos := (grossSpot_pos hnone).1
    rw [hrates] at hpos
    exact hpos.ne'
  have hgross : a.gross call.timestamp principalEff = grossBonusOf a.reserve principalEff
      (previewVirtualDepth a.reserve a.depth a.lastUpdate (grossSpotBonusBps spot lpRate)
        call.timestamp) := by
    unfold AmmInputs.gross
    rw [if_neg hnone, hrates]
  rw [if_neg hreserve, if_neg (mt grossSpotBonusBps_eq_zero.mp hspot₀), bonusAt, hgross, hrates]
  apply (if_neg hdepth).trans
  generalize hpaid : grossBonusOf a.reserve principalEff (previewVirtualDepth a.reserve a.depth
    a.lastUpdate (grossSpotBonusBps spot lpRate) call.timestamp) = gross
  have hview : ∀ V : ℕ, grossBonusOf a.reserve principalEff V = gross →
      (if lpRate = 0 ∨ grossBonusOf a.reserve principalEff V = 0 then
        (Except.ok (grossBonusOf a.reserve principalEff V, grossBonusOf a.reserve principalEff V,
          0) : Except Error (ℕ × ℕ × ℕ))
      else
        let userBonus := grossBonusOf a.reserve principalEff V * BPS_DENOM / (BPS_DENOM + lpRate)
        Except.ok (grossBonusOf a.reserve principalEff V, userBonus,
          grossBonusOf a.reserve principalEff V - userBonus)) =
        Except.ok (gross, splitBonusAmm gross lpRate) := by
    rintro V rfl
    unfold splitBonusAmm
    split <;> rfl
  exact hview _ hpaid

end Quoter

variable (call : Call) (w : World S)

/-- The AMM pays what is quoted before the drip. -/
theorem applyBonusAmm_quoted (user : Address)
    (principalClaim principalEff lockDurationSec : ℕ) :
    Returns (fun r ↦ ∃ lp,
        Quoter.quoteBonusAmmView call w principalEff = .ok (r.2.gross, r.2.user, lp))
      (applyBonusAmm call w user principalClaim principalEff lockDurationSec) := by
  apply Returns.iff_forall.mpr
  intro r hr
  obtain ⟨⟨w₁, streamed⟩, hdrip, -⟩ := bind_eq_ok_iff.mp hr
  obtain ⟨dripped, hpreview⟩ := ((accrueLpOverflowDrip_dripped call w).of_ok hdrip).preview
  have hreserve := (accrueLpOverflowDrip_reserve call w).of_ok hdrip
  rw [hreserve] at hpreview
  obtain ⟨hgross, huser, -⟩ := (applyBonusAmm_slice call w user principalClaim principalEff
    lockDurationSec).of_ok hr
  rw [Quoter.quoteBonusAmmView_eq hpreview principalEff, Quoter.bonusAt, ← hgross]
  exact ⟨_, congrArg (fun u ↦ Except.ok (r.2.gross, u, _)) huser.symm⟩

/-- What the AMM writes of the storage of the Furnace. -/
theorem applyBonusAmm_rest (user : Address) (principalClaim principalEff lockDurationSec : ℕ) :
    Returns (fun r ↦ ∃ stream events ghost reserve depth lastUpdate lastDrip,
        r.1.furnace = { w.furnace with
          stream := stream
          events := events
          ghost := ghost
          furnaceReserve := reserve
          bonusVirtualDepth := depth
          lastBonusUpdate := lastUpdate
          lastLpOverflowDripUpdate := lastDrip })
      (applyBonusAmm call w user principalClaim principalEff lockDurationSec) := by
  unfold applyBonusAmm
  apply Outcome.bind (accrueLpOverflowDrip_rest call w)
  rintro ⟨w₁, streamed⟩ ⟨stream, events, ghost, reserve, lastDrip, claim, -, -, -, rfl⟩
  unfold bonusAmm
  apply Returns.ite
  · exact fun _ ↦ ⟨_, _, _, _, _, _, _, rfl⟩
  intro _
  apply Outcome.bind (bonusAmmComputeAndUpdate_changes call _ user principalClaim principalEff
    lockDurationSec)
  rintro ⟨w₂, frame⟩ ⟨lastUpdate, reserve', depth, rfl⟩
  apply Returns.ite
  · exact fun _ ↦ ⟨_, _, _, _, _, _, _, rfl⟩
  intro _
  unfold bonusAmmSplitAndRoute
  generalize splitBonusAmm frame.grossBonus frame.lpRateBps = parts
  have hpaid (f : FurnaceState) (hf : ∃ stream events ghost, f = { w.furnace with
      stream := stream
      events := events
      ghost := ghost
      furnaceReserve := reserve'
      bonusVirtualDepth := depth
      lastBonusUpdate := lastUpdate
      lastLpOverflowDripUpdate := lastDrip }) (frame : BonusAmmFrame) :
      ∃ stream events ghost reserve depth lastUpdate lastDrip,
        bonusAmmEmit f frame = { w.furnace with
          stream := stream
          events := events
          ghost := ghost
          furnaceReserve := reserve
          bonusVirtualDepth := depth
          lastBonusUpdate := lastUpdate
          lastLpOverflowDripUpdate := lastDrip } := by
    obtain ⟨stream, events, ghost, rfl⟩ := hf
    obtain ⟨logged, hlogged⟩ := bonusAmmEmit_eq { w.furnace with
      stream := stream
      events := events
      ghost := ghost
      furnaceReserve := reserve'
      bonusVirtualDepth := depth
      lastBonusUpdate := lastUpdate
      lastLpOverflowDripUpdate := lastDrip } frame
    rw [hlogged]
    exact ⟨_, _, _, _, _, _, _, rfl⟩
  by_cases hlp : parts.2 = 0
  · simp only [ne_eq, hlp, not_true_eq_false, if_false, pure_bind]
    exact hpaid _ ⟨_, _, _, rfl⟩ _
  · simp only [ne_eq, hlp, not_false_eq_true, if_true, bind_assoc, pure_bind]
    apply Outcome.bind (fundLpStreamInternal_rest call _ parts.2)
    rintro f ⟨stream, events, ghost, rfl⟩
    exact hpaid _ ⟨_, _, _, rfl⟩ _

end ClaimRush.Furnace
