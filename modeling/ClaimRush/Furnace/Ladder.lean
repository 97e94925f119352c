import ClaimRush.Furnace.Backing
import ClaimRush.Furnace.Deployment
import ClaimRush.Furnace.Depth
import ClaimRush.Furnace.Weights
import ClaimRush.Lib.DepthCurve

/-!
# Extensions in rungs

A lock extended in several steps of one block earns the weights of the steps on
one basis, out of a pool that each step leaves deeper.  Together the steps earn at
most what one extension earns, up to rounding.
-/

open Function

namespace ClaimRush.Furnace

open Constants Account DepthCurve

variable {S : Type}

/-! ## The pool along a ladder -/

/-- The inputs of the AMM after deposits of `deposited` in one block: unchanged, or
on the curve from the depth that the first deposit found. -/
def OnCurve (a₀ : AmmInputs) (now deposited : ℕ) (a : AmmInputs) : Prop :=
  a = a₀ ∨ (a₀.rates now).grossSpotBps ≠ 0 ∧ a.lastUpdate = now ∧
    ∃ s, s ≤ deposited ∧
      Slid a₀.reserve (a₀.rates now).virtualDepth s a.reserve a.depth

/-- What a rung leaves of the inputs: its bonus is paid, and a refund comes back. -/
structure AmmInputs.Rung (a a' : AmmInputs) (now principalEff refund : ℕ) : Prop where
  reserve : a'.reserve = (a.after now principalEff).reserve + refund
  depth : a'.depth = (a.after now principalEff).depth
  lastUpdate : a'.lastUpdate = (a.after now principalEff).lastUpdate
  unpaid : a.gross now principalEff = 0 → a' = a.after now principalEff

theorem grossSpot_pos {a : AmmInputs} {now : ℕ} (h : (a.rates now).grossSpotBps ≠ 0) :
    0 < (a.rates now).virtualDepth ∧ 4 * a.reserve ≤ 5 * (a.rates now).virtualDepth := by
  obtain ⟨hmax, hdepth⟩ := computeBonusAmmRates_spec a.lpEnabled a.reserve a.depth a.lastUpdate
    (Quoter.userSpotBonusBps a.lockedSupply a.totalSupply a.reserve a.elapsed)
    (Quoter.lpScaleBps a.lockedSupply a.totalSupply a.reserve a.elapsed) now
  have hreserve : a.reserve ≠ 0 := by
    intro hzero
    simp [AmmInputs.rates, computeBonusAmmRates, hzero] at h
  have htarget := (ceilDiv_le_iff (Nat.pos_of_ne_zero h)).mp (hdepth h).2
  have hbounds : 4 * MAX_GROSS_BONUS_BPS ≤ 5 * BPS_DENOM := by
    simp [MAX_GROSS_BONUS_BPS, BPS_DENOM]
  have hratio : 4 * a.reserve ≤ 5 * (a.rates now).virtualDepth := by
    refine Nat.le_of_mul_le_mul_right ?_ BPS_DENOM_pos
    calc 4 * a.reserve * BPS_DENOM = 4 * (a.reserve * BPS_DENOM) := by ring
      _ ≤ 4 * ((a.rates now).virtualDepth * (a.rates now).grossSpotBps) :=
          Nat.mul_le_mul_left _ htarget
      _ ≤ 4 * ((a.rates now).virtualDepth * MAX_GROSS_BONUS_BPS) :=
          Nat.mul_le_mul_left _ (Nat.mul_le_mul_left _ hmax)
      _ = (a.rates now).virtualDepth * (4 * MAX_GROSS_BONUS_BPS) := by ring
      _ ≤ (a.rates now).virtualDepth * (5 * BPS_DENOM) := Nat.mul_le_mul_left _ hbounds
      _ = 5 * (a.rates now).virtualDepth * BPS_DENOM := by ring
  exact ⟨by omega, hratio⟩

theorem le_previewVirtualDepth_now {reserve depth grossSpotBps now : ℕ} (hreserve : reserve ≠ 0)
    (hgross : grossSpotBps ≠ 0) :
    depth ≤ previewVirtualDepth reserve depth now grossSpotBps now := by
  simp only [previewVirtualDepth, hreserve, hgross, or_self, if_false, elapsedSince, lt_irrefl,
    ge_iff_le, Nat.not_le.mpr BONUS_DECAY_WINDOW_pos, Nat.sub_zero]
  generalize ceilDiv (reserve * BPS_DENOM) grossSpotBps = target
  rw [Nat.mul_div_cancel _ BONUS_DECAY_WINDOW_pos]
  split_ifs <;> omega

/-- Within a block the depth does not decay. -/
theorem depth_le_rates {a : AmmInputs} {now : ℕ} (h : (a.rates now).grossSpotBps ≠ 0)
    (hlast : a.lastUpdate = now) : a.depth ≤ (a.rates now).virtualDepth := by
  subst hlast
  unfold AmmInputs.rates computeBonusAmmRates at h ⊢
  split_ifs at h ⊢ with hnone
  · exact absurd rfl h
  · dsimp only at h ⊢
    split_ifs at h ⊢ with hgross
    · exact absurd rfl h
    · exact le_previewVirtualDepth_now (fun hzero ↦ hnone (.inl hzero)) h

/-- A rung that pays moves the pool along the curve. -/
theorem AmmInputs.Rung.slid {r v s : ℕ} {a a' : AmmInputs} {now principalEff refund : ℕ}
    (hrung : a.Rung a' now principalEff refund) (hspot : (a.rates now).grossSpotBps ≠ 0)
    (h : Slid r v s a.reserve (a.rates now).virtualDepth) :
    a'.lastUpdate = now ∧ Slid r v (s + principalEff) a'.reserve a'.depth := by
  have hafter : a.after now principalEff = { a with
      reserve := a.reserve - a.gross now principalEff
      depth := (a.rates now).virtualDepth + principalEff
      lastUpdate := now } := if_neg hspot
  have hgross : a.gross now principalEff ≤
      a.reserve * principalEff / ((a.rates now).virtualDepth + principalEff) := by
    rw [AmmInputs.gross, if_neg hspot]
    exact grossBonusOf_le_quotient _ _ _
  have hreserve := hrung.reserve
  rw [hafter] at hreserve
  have hpaid : a.reserve ≤ a'.reserve + a.gross now principalEff := by
    simp only at hreserve
    omega
  refine ⟨by rw [hrung.lastUpdate, hafter], ?_⟩
  exact h.step (mul_le_of_payout hgross hpaid) (by rw [hrung.depth, hafter])
    (grossSpot_pos hspot).1

theorem OnCurve.rung {a₀ a a' : AmmInputs} {now deposited principalEff refund : ℕ}
    (h : OnCurve a₀ now deposited a) (hrung : a.Rung a' now principalEff refund) :
    OnCurve a₀ now (deposited + principalEff) a' := by
  by_cases hspot : (a.rates now).grossSpotBps = 0
  · have hsame : a' = a := by
      rw [hrung.unpaid (if_pos hspot)]
      exact if_pos hspot
    rw [hsame]
    rcases h with heq | ⟨hspot₀, hlast, s, hs, hslid⟩
    · exact .inl heq
    · exact .inr ⟨hspot₀, hlast, s, hs.trans (Nat.le_add_right _ _), hslid⟩
  rcases h with rfl | ⟨hspot₀, hlast₁, s, hs, hslid₁⟩
  · obtain ⟨hlast, hslid⟩ := hrung.slid hspot (.refl le_rfl)
    exact .inr ⟨hspot, hlast, 0 + principalEff, by omega, hslid⟩
  · obtain ⟨hlast, hslid⟩ := hrung.slid hspot
      ⟨hslid₁.reserve, hslid₁.depth.trans (depth_le_rates hspot hlast₁)⟩
    exact .inr ⟨hspot₀, hlast, s + principalEff, by omega, hslid⟩

/-- What the rungs of a ladder take, against one extension that is worth at most
one wei less. -/
theorem OnCurve.taken_le {a₀ a : AmmInputs} {now deposited principalEff : ℕ}
    (h : OnCurve a₀ now deposited a) (hle : deposited ≤ principalEff + 1) :
    a₀.reserve ≤ a.reserve + a₀.gross now principalEff + 2 := by
  rcases h with rfl | ⟨hspot, -, s, hs, hslid⟩
  · omega
  obtain ⟨hpos, hratio⟩ := grossSpot_pos hspot
  have hgross : a₀.gross now principalEff =
      a₀.reserve * principalEff / ((a₀.rates now).virtualDepth + principalEff) := by
    rw [AmmInputs.gross, if_neg hspot]
    have hcap : a₀.reserve * principalEff / ((a₀.rates now).virtualDepth + principalEff) ≤
        a₀.reserve := by
      refine Nat.div_le_of_le_mul ?_
      rw [Nat.mul_comm]
      exact Nat.mul_le_mul_right _ (Nat.le_add_left _ _)
    simp only [grossBonusOf]
    split <;> omega
  rw [hgross]
  rcases Nat.le_total a.reserve a₀.reserve with hless | hmore
  · have htaken := hslid.taken_le hless (hs.trans hle) hratio hpos
    omega
  · omega

/-! ## Rungs -/

variable (port : VeClaimNFT.IShareholderRoyalties S) (call : Call)

/-- The figures of one extension: the principal it is priced on, the gross bonus
and what of it goes back to the reserve. -/
structure ExtensionFigures where
  principalEff : ℕ
  gross : ℕ
  refund : ℕ

/-- The figures that `_extendBody` computes on its way. -/
def extensionFigures (w : World S) (user : Address) (tokenId durationSeconds : ℕ) :
    Except Error ExtensionFigures := do
  let (lockAmount, d, principalEff) ← resolveExtendWithBonus call w user tokenId durationSeconds
  let basis := basisOf w.furnace tokenId lockAmount
  let f := { w.furnace with bonusBasis := update w.furnace.bonusBasis tokenId basis }
  let principalEff := basisPrincipalEff principalEff basis lockAmount
  if principalEff > 0 then do
    let (_, bonus) ← applyBonusAmm call { w with furnace := f } user lockAmount principalEff d
    return ⟨principalEff, bonus.gross,
      if bonus.user ≥ MIN_TOPUP_AMOUNT then 0 else bonus.user⟩
  else return ⟨0, 0, 0⟩

/-- Extensions one after the other, each to a duration with a minimal bonus. -/
def extendLadder (user : Address) (tokenId : ℕ) :
    List (ℕ × ℕ) → World S → Except Error (World S × List ExtensionFigures)
  | [], w => .ok (w, [])
  | (durationSeconds, minBonusOut) :: rungs, w => do
      let figures ← extensionFigures call w user tokenId durationSeconds
      let (w, _) ← extendBody port call w user tokenId durationSeconds minBonusOut
      let (w, rest) ← extendLadder user tokenId rungs w
      return (w, figures :: rest)

/-- A lock that can be extended: its amount, its remaining time and its basis. -/
structure Extendable (w : World S) (user : Address) (tokenId amount remaining basis : ℕ) :
    Prop where
  lock : w.ve.getLockInfo call.timestamp tokenId =
    (amount, call.timestamp + remaining, false, false)
  basis_eq : w.furnace.bonusBasis tokenId = basis

/-- What an extension is priced on, and what it takes from the AMM. -/
structure ExtensionFigures.Priced (figures : ExtensionFigures) (w : World S)
    (durationSeconds amount remaining basis : ℕ) : Prop where
  longer : remaining < clampDuration durationSeconds
  principalEff : figures.principalEff = basisPrincipalEff
    (amount * weightDelta (clampDuration durationSeconds) remaining / WEIGHT_DENOM) basis amount
  gross : figures.gross = if figures.principalEff = 0 then 0
    else (w.ammInputs call).gross call.timestamp figures.principalEff

/-- What one extension does to the lock and to the inputs of the AMM. -/
structure Climbed (user : Address) (tokenId durationSeconds amount remaining basis : ℕ)
    (w w' : World S) (figures : ExtensionFigures) : Prop where
  priced : figures.Priced call w durationSeconds amount remaining basis
  rung : figures.principalEff = 0 ∧ figures.refund = 0 ∧ w'.ammInputs call = w.ammInputs call ∨
    (w.ammInputs call).Rung (w'.ammInputs call) call.timestamp figures.principalEff figures.refund
  next : ∃ delivered, Extendable call w' user tokenId (amount + delivered)
    (clampDuration durationSeconds) basis

variable {w : World S} {user : Address} {tokenId amount remaining basis : ℕ}

theorem resolveExtendWithBonus_spec
    (h : w.ve.getLockInfo call.timestamp tokenId =
      (amount, call.timestamp + remaining, false, false)) (durationSeconds : ℕ) :
    Returns (fun r ↦ amount ≠ 0 ∧ remaining < clampDuration durationSeconds ∧
        r = (amount, clampDuration durationSeconds,
          amount * weightDelta (clampDuration durationSeconds) remaining / WEIGHT_DENOM))
      (resolveExtendWithBonus call w user tokenId durationSeconds) := by
  unfold resolveExtendWithBonus
  rw [h]
  refine Returns.guard fun hamount ↦ Returns.guard fun _ ↦ Returns.guard fun _ ↦ ?_
  refine Returns.guard fun _ ↦ Returns.guard fun _ ↦ Returns.guard fun _ ↦ ?_
  dsimp only
  rw [Nat.add_sub_cancel_left]
  exact Returns.guard fun hlonger ↦ ⟨hamount, not_le.mp hlonger, rfl⟩

/-- The bonus that the helper is paid. -/
def HelperPaid (principalEff : ℕ) (w w' : World S) (userBonus : ℕ) : Prop :=
  principalEff = 0 ∧ w' = w ∧ userBonus = 0 ∨
    principalEff ≠ 0 ∧ ∃ bonus, Paid call principalEff w w' bonus ∧ userBonus = bonus.user

theorem bonusFromHelper_paid (user : Address) (principalClaim principalEff lockDurationSec : ℕ) :
    Returns (fun r ↦ HelperPaid call principalEff w r.1 r.2)
      (bonusFromHelper call w user principalClaim principalEff lockDurationSec) := by
  unfold bonusFromHelper
  apply Returns.ite
  · intro hpos
    refine Outcome.bind (applyBonusAmm_paid call w user principalClaim principalEff
      lockDurationSec hpos.ne') ?_
    rintro ⟨w₁, bonus⟩ hpaid
    exact .inr ⟨hpos.ne', bonus, hpaid, rfl⟩
  · exact fun hzero ↦ .inl ⟨Nat.eq_zero_of_not_pos hzero, rfl, rfl⟩

/-- Recording a recorded basis changes nothing. -/
theorem recordBasis_recorded (hbasis : w.furnace.bonusBasis tokenId ≠ 0) :
    { w with furnace := { w.furnace with
      bonusBasis := update w.furnace.bonusBasis tokenId
        (basisOf w.furnace tokenId amount) } } = w := by
  have hbasisOf : basisOf w.furnace tokenId amount = w.furnace.bonusBasis tokenId := if_neg hbasis
  rw [hbasisOf, update_eq_self]

/-- The bonus of the helper is the bonus of the figures. -/
theorem extensionFigures_spec {durationSeconds : ℕ} {figures : ExtensionFigures}
    (h : Extendable call w user tokenId amount remaining basis) (hbasis : basis ≠ 0)
    (hfigures : extensionFigures call w user tokenId durationSeconds = .ok figures) :
    amount ≠ 0 ∧ figures.Priced call w durationSeconds amount remaining basis ∧
      ∀ r, bonusFromHelper call w user amount figures.principalEff
          (clampDuration durationSeconds) = .ok r →
        figures.refund = if r.2 ≥ MIN_TOPUP_AMOUNT then 0 else r.2 := by
  obtain ⟨r, hresolved, hrest⟩ := bind_eq_ok_iff.mp hfigures
  obtain ⟨hamount, hlonger, rfl⟩ := (resolveExtendWithBonus_spec call h.lock durationSeconds).of_ok
    hresolved
  have hbasisOf : basisOf w.furnace tokenId amount = basis := by
    rw [basisOf, h.basis_eq, if_neg hbasis]
  dsimp only at hrest
  rw [recordBasis_recorded (h.basis_eq ▸ hbasis), hbasisOf] at hrest
  refine ⟨hamount, ?_⟩
  split at hrest
  · next hpos =>
    obtain ⟨⟨w₁, bonus⟩, hbonus, hreturn⟩ := bind_eq_ok_iff.mp hrest
    obtain rfl := Except.ok.inj hreturn
    have hpaid := (applyBonusAmm_paid call w user amount _ _ hpos.ne').of_ok hbonus
    refine ⟨⟨hlonger, rfl, ?_⟩, ?_⟩
    · rw [if_neg hpos.ne']
      exact hpaid.gross
    · intro r hr
      rw [bonusFromHelper, if_pos hpos, hbonus] at hr
      obtain rfl := Except.ok.inj hr
      rfl
  · next hzero =>
    obtain rfl := Except.ok.inj hrest
    refine ⟨⟨hlonger, (Nat.eq_zero_of_not_pos hzero).symm, rfl⟩, ?_⟩
    intro r hr
    obtain rfl := Except.ok.inj hr
    exact (if_neg (Nat.not_le.mpr MIN_TOPUP_AMOUNT_pos)).symm

/-! ## One rung -/

/-- The lock of a token, seen through what the lock contract changed. -/
theorem getLockInfo_follows {s s' : VeClaimNFT.VeState} (h : s.Follows s') (now : ℕ) :
    s'.getLockInfo now tokenId = s.getLockInfo now tokenId :=
  h.keeps (fun s ↦ s.getLockInfo now tokenId) fun _ _ ↦ rfl

theorem getLockInfo_plain {s : VeClaimNFT.VeState} {now lockEnd : ℕ}
    (h : s.getLockInfo now tokenId = (amount, lockEnd, false, false)) :
    (s.locks tokenId).amount = amount ∧ (s.locks tokenId).lockEnd = lockEnd ∧
      (s.locks tokenId).autoMax = false ∧ (s.locks tokenId).listed = false := by
  simp only [VeClaimNFT.VeState.getLockInfo, Prod.mk.injEq] at h
  obtain ⟨hamount, hend, hauto, hlisted⟩ := h
  rw [hauto] at hend
  exact ⟨hamount, by simpa using hend, hauto, hlisted⟩

theorem getLockInfo_extended {w w' : VeClaimNFT.World S} {now newEnd e : ℕ}
    (h : w.ve.getLockInfo now tokenId = (amount, e, false, false))
    (hextended : VeClaimNFT.Extended now user tokenId newEnd w w') :
    w'.ve.getLockInfo now tokenId = (amount, newEnd, false, false) := by
  obtain ⟨hamount, -, hauto, hlisted⟩ := getLockInfo_plain h
  rw [getLockInfo_follows hextended.ve]
  simp [VeClaimNFT.VeState.getLockInfo, VeClaimNFT.VeState.setLock, VeClaimNFT.extendedEnd,
    hamount, hauto, hlisted]

theorem getLockInfo_toppedUp {s s' : VeClaimNFT.VeState} {now added lockEnd : ℕ}
    (h : s.getLockInfo now tokenId = (amount, lockEnd, false, false))
    (htopped : (s.toppedUp now tokenId added).Follows s') :
    s'.getLockInfo now tokenId = (amount + added, lockEnd, false, false) := by
  obtain ⟨hamount, hend, hauto, hlisted⟩ := getLockInfo_plain h
  rw [getLockInfo_follows htopped]
  simp [VeClaimNFT.VeState.getLockInfo, VeClaimNFT.VeState.setLock, VeClaimNFT.VeState.toppedUp,
    hamount, hauto, hlisted, hend]

theorem addToLockDelegated_lock {lockEnd added : ℕ}
    (h : w.ve.getLockInfo call.timestamp tokenId = (amount, lockEnd, false, false)) :
    Returns (fun w' ↦ w'.furnace = w.furnace ∧
        w'.ve.getLockInfo call.timestamp tokenId = (amount + added, lockEnd, false, false))
      (addToLockDelegated port call w user tokenId added) := by
  unfold addToLockDelegated
  refine Outcome.bind (VeClaimNFT.exec_effect port (call.byFurnace w.furnace) _
    (.addToLockFor user tokenId added)) ?_
  rintro base ⟨-, htopped⟩
  exact ⟨rfl, getLockInfo_toppedUp h htopped.ve⟩

/-- The bonus goes to the lock, or back to the reserve. -/
theorem deliverOrRefund_spec {lockEnd userBonus : ℕ}
    (h : w.ve.getLockInfo call.timestamp tokenId = (amount, lockEnd, false, false)) :
    Returns (fun r ↦ r.1.furnace = { w.furnace with
          furnaceReserve := w.furnace.furnaceReserve +
            if userBonus ≥ MIN_TOPUP_AMOUNT then 0 else userBonus } ∧
        (userBonus = 0 → r.1.base = w.base) ∧
        r.1.ve.getLockInfo call.timestamp tokenId = (amount + r.2, lockEnd, false, false))
      (deliverOrRefund w (addToLockDelegated port call w user tokenId userBonus) userBonus) := by
  unfold deliverOrRefund
  apply Returns.ite
  · intro hbig
    rw [if_pos hbig]
    refine Outcome.bind (addToLockDelegated_lock port call h) ?_
    rintro w' ⟨hfurnace, hlock⟩
    refine ⟨hfurnace, fun hzero ↦ ?_, hlock⟩
    rw [hzero] at hbig
    exact absurd hbig (Nat.not_le.mpr MIN_TOPUP_AMOUNT_pos)
  · intro hsmall
    rw [if_neg hsmall]
    exact ⟨rfl, fun _ ↦ rfl, h⟩

/-- The inputs after a refund, for a Furnace that has dripped. -/
theorem ammInputs_refunded {w' : World S} {refund : ℕ}
    (hdripped : call.timestamp ≤ w.furnace.lastLpOverflowDripUpdate)
    (hfurnace : w'.furnace = { w.furnace with
      furnaceReserve := w.furnace.furnaceReserve + refund }) :
    (w'.ammInputs call).reserve = (w.ammInputs call).reserve + refund ∧
      (w'.ammInputs call).depth = (w.ammInputs call).depth ∧
      (w'.ammInputs call).lastUpdate = (w.ammInputs call).lastUpdate := by
  refine ⟨?_, ?_, ?_⟩
  · change drippedReserve call w'.furnace = drippedReserve call w.furnace + refund
    rw [hfurnace, drippedReserve_idle call hdripped]
    exact drippedReserve_idle call hdripped
  · simp only [World.ammInputs, hfurnace]
  · simp only [World.ammInputs, hfurnace]

/-- One extension, applied to a backed Furnace. -/
theorem extendBody_climbed {durationSeconds : ℕ} (minBonusOut : ℕ) {figures : ExtensionFigures}
    (h : Extendable call w user tokenId amount remaining basis) (hbasis : basis ≠ 0)
    (hshaped : (w.account 0).Shaped call.timestamp) (hbacked : (w.account 0).Backed)
    (hfigures : extensionFigures call w user tokenId durationSeconds = .ok figures) :
    Returns (fun r ↦ Climbed call user tokenId durationSeconds amount remaining basis w r.1 figures)
      (extendBody port call w user tokenId durationSeconds minBonusOut) := by
  obtain ⟨-, hpriced, hrefund⟩ := extensionFigures_spec call h hbasis hfigures
  have hbasisOf : basisOf w.furnace tokenId amount = basis := by
    rw [basisOf, h.basis_eq, if_neg hbasis]
  unfold extendBody
  refine Outcome.bind (resolveExtendWithBonus_spec call h.lock durationSeconds) ?_
  rintro _ ⟨-, -, rfl⟩
  dsimp only
  rw [recordBasis_recorded (h.basis_eq ▸ hbasis), hbasisOf, ← hpriced.principalEff]
  refine Returns.seq fun ⟨w₁, userBonus⟩ hbonus ↦ ?_
  have hpaid := (bonusFromHelper_paid call user amount _ _).of_ok hbonus
  have hmoved := (bonusFromHelper_moves call w user amount _ _ 0).of_ok hbonus
  have hback := hrefund _ hbonus
  dsimp only at hpaid hmoved hback ⊢
  have hve : w₁.ve = w.ve := by
    rcases hpaid with ⟨-, rfl, -⟩ | ⟨-, bonus, hpaid, -⟩
    · rfl
    · exact hpaid.ve
  refine Outcome.bind (VeClaimNFT.exec_effect port (call.byFurnace w₁.furnace) w₁.base
    (.extendLockToFor user tokenId (call.timestamp + clampDuration durationSeconds))) ?_
  rintro base ⟨-, hextended⟩
  have hlock : base.ve.getLockInfo call.timestamp tokenId =
      (amount, call.timestamp + clampDuration durationSeconds, false, false) := by
    refine getLockInfo_extended (e := call.timestamp + remaining) ?_ hextended
    have hsame := h.lock
    rw [← hve] at hsame
    exact hsame
  have hkeep : (World.mk w₁.furnace base).account (0 + userBonus) =
      w₁.account (0 + userBonus) := by
    have hself : base.ve.self = w₁.base.ve.self :=
      hextended.ve.keeps VeClaimNFT.VeState.self fun _ _ ↦ rfl
    simp only [World.account, World.ve, World.claimBalance, hself, hextended.claim]
  refine Outcome.bind ((deliverOrRefund_spec port call (w := ⟨w₁.furnace, base⟩) hlock).and
    (deliverOrRefund_moves call ⟨w₁.furnace, base⟩ userBonus 0
      (addToLockDelegated_moves port call ⟨w₁.furnace, base⟩ user tokenId userBonus 0))) ?_
  rintro ⟨w₂, bonusClaim⟩ ⟨⟨hfurnace, hbase, hinfo⟩, hdelivered⟩
  rw [hkeep] at hdelivered
  rw [← hback] at hfurnace
  dsimp only at hfurnace hbase hinfo hdelivered ⊢
  refine Returns.guard fun _ ↦ ?_
  rw [syncFurnaceReserve_backed call _ (Moves.backed (hmoved.trans hdelivered) hshaped hbacked)]
  have hsame : userBonus = 0 → w₂.ammInputs call = w₁.ammInputs call := by
    intro hzero
    have hnone : figures.refund = 0 := by
      rw [hback, hzero, if_neg (Nat.not_le.mpr MIN_TOPUP_AMOUNT_pos)]
    have hw₂ : w₂.base = base := hbase hzero
    refine ammInputs_congr call ⟨w₁.furnace.stream, w₁.furnace.events, w₁.furnace.ghost,
      w₁.furnace.bonusBasis, ?_⟩ ?_ ?_
    · rw [hfurnace, hnone]
      rfl
    · change w₂.base.ve.totalLockedClaim = _
      rw [hw₂]
      exact hextended.ve.keeps VeClaimNFT.VeState.totalLockedClaim fun _ _ ↦ rfl
    · change w₂.base.claim.totalSupply = _
      rw [hw₂, hextended.claim]
      rfl
  have hemit (e : Event) : (w₂.emit e).ammInputs call = w₂.ammInputs call :=
    ammInputs_congr call ⟨_, _, _, _, rfl⟩ rfl rfl
  refine ⟨hpriced, ?_, bonusClaim, hinfo, ?_⟩
  · rw [hemit]
    rcases hpaid with ⟨heff, rfl, hzero⟩ | ⟨heff, bonus, hpaid, rfl⟩
    · refine .inl ⟨heff, ?_, hsame hzero⟩
      rw [hback, hzero, if_neg (Nat.not_le.mpr MIN_TOPUP_AMOUNT_pos)]
    · obtain ⟨hreserve, hdepth, hlast⟩ := ammInputs_refunded call hpaid.dripped hfurnace
      rw [hpaid.inputs] at hreserve hdepth hlast
      refine .inr ⟨hreserve, hdepth, hlast, fun hunpaid ↦ ?_⟩
      rw [hsame (Nat.le_zero.mp (hpaid.user_le.trans (hpaid.gross.trans hunpaid).le)),
        hpaid.inputs]
  · have hkept : w₁.furnace.bonusBasis = w.furnace.bonusBasis := by
      rcases hpaid with ⟨-, rfl, -⟩ | ⟨-, bonus, hpaid, -⟩
      · rfl
      · exact hpaid.bonusBasis
    change w₂.furnace.bonusBasis tokenId = basis
    rw [hfurnace, ← h.basis_eq, ← hkept]

/-! ## The ladder -/

/-- A world between two extensions of one block. -/
structure Steady (w : World S) : Prop where
  shaped : (w.account 0).Shaped call.timestamp
  backed : (w.account 0).Backed

theorem extendBody_steady {durationSeconds minBonusOut : ℕ} {r : World S × ℕ}
    (h : Steady call w)
    (hok : extendBody port call w user tokenId durationSeconds minBonusOut = .ok r) :
    Steady call r.1 := by
  have hmoves := (extendBody_moves port call w user tokenId durationSeconds minBonusOut 0).of_ok hok
  exact ⟨Moves.shaped hmoves h.shaped, Moves.backed hmoves h.shaped h.backed⟩

theorem AmmInputs.gross_le (a : AmmInputs) (now principalEff : ℕ) :
    a.gross now principalEff ≤ a.reserve := by
  unfold AmmInputs.gross grossBonusOf
  dsimp only
  split_ifs <;> omega

theorem AmmInputs.Rung.reserve_add {a a' : AmmInputs} {now principalEff refund : ℕ}
    (h : a.Rung a' now principalEff refund) :
    a'.reserve + a.gross now principalEff = a.reserve + refund := by
  have hle := a.gross_le now principalEff
  have hreserve := h.reserve
  unfold AmmInputs.after at hreserve
  split at hreserve
  · next hnone =>
    rw [AmmInputs.gross, if_pos hnone]
    omega
  · dsimp only at hreserve
    omega

/-- The remaining duration at the top of a ladder. -/
def topOf (remaining : ℕ) : List (ℕ × ℕ) → ℕ
  | [] => remaining
  | (durationSeconds, _) :: rungs => topOf (clampDuration durationSeconds) rungs

theorem topOf_concat (remaining : ℕ) (rungs : List (ℕ × ℕ)) (last : ℕ × ℕ) :
    topOf remaining (rungs ++ [last]) = clampDuration last.1 := by
  induction rungs generalizing remaining with
  | nil => rfl
  | cons rung rungs ih => exact ih _

/-- What a whole ladder takes. -/
structure Ascent (a₀ : AmmInputs) (deposited remaining basis : ℕ) (rungs : List (ℕ × ℕ))
    (w w' : World S) (figures : List ExtensionFigures) : Prop where
  rises : remaining ≤ topOf remaining rungs
  principalEff : (figures.map ExtensionFigures.principalEff).sum * WEIGHT_DENOM ≤
    basis * weightDelta (topOf remaining rungs) remaining
  curve : OnCurve a₀ call.timestamp
    (deposited + (figures.map ExtensionFigures.principalEff).sum) (w'.ammInputs call)
  reserve : (w'.ammInputs call).reserve + (figures.map ExtensionFigures.gross).sum =
    (w.ammInputs call).reserve + (figures.map ExtensionFigures.refund).sum

theorem Climbed.curve {durationSeconds deposited : ℕ} {w' : World S} {figures : ExtensionFigures}
    {a₀ : AmmInputs}
    (h : Climbed call user tokenId durationSeconds amount remaining basis w w' figures)
    (hcurve : OnCurve a₀ call.timestamp deposited (w.ammInputs call)) :
    OnCurve a₀ call.timestamp (deposited + figures.principalEff) (w'.ammInputs call) := by
  rcases h.rung with ⟨hzero, -, hsame⟩ | hrung
  · rw [hzero, hsame]
    exact hcurve
  · exact hcurve.rung hrung

theorem Climbed.reserve {durationSeconds : ℕ} {w' : World S} {figures : ExtensionFigures}
    (h : Climbed call user tokenId durationSeconds amount remaining basis w w' figures) :
    (w'.ammInputs call).reserve + figures.gross = (w.ammInputs call).reserve + figures.refund := by
  have hgross := h.priced.gross
  rcases h.rung with ⟨hzero, hrefund, hsame⟩ | hrung
  · rw [hgross, if_pos hzero, hrefund, hsame]
  · have hsum := hrung.reserve_add
    split at hgross
    · next hzero =>
      rw [hzero] at hsum
      have hnone : (w.ammInputs call).gross call.timestamp 0 = 0 := by
        simp [AmmInputs.gross, grossBonusOf]
      omega
    · omega

theorem extendLadder_ascent {a₀ : AmmInputs} {rungs : List (ℕ × ℕ)} {deposited : ℕ}
    {r : World S × List ExtensionFigures}
    (h : Extendable call w user tokenId amount remaining basis) (hbasis : basis ≠ 0)
    (hle : basis ≤ amount) (hsteady : Steady call w)
    (hcurve : OnCurve a₀ call.timestamp deposited (w.ammInputs call))
    (hok : extendLadder port call user tokenId rungs w = .ok r) :
    Ascent call a₀ deposited remaining basis rungs w r.1 r.2 := by
  induction rungs generalizing w amount remaining deposited r with
  | nil =>
      obtain rfl := Except.ok.inj hok
      exact ⟨le_rfl, by simp, by simpa using hcurve, rfl⟩
  | cons rung rungs ih =>
      obtain ⟨durationSeconds, minBonusOut⟩ := rung
      obtain ⟨figures, hfigures, hok⟩ := bind_eq_ok_iff.mp hok
      obtain ⟨⟨w₁, delivered⟩, hextend, hok⟩ := bind_eq_ok_iff.mp hok
      obtain ⟨⟨w₂, rest⟩, hrest, hok⟩ := bind_eq_ok_iff.mp hok
      obtain rfl := Except.ok.inj hok
      have hclimbed := (extendBody_climbed port call minBonusOut h hbasis hsteady.shaped
        hsteady.backed hfigures).of_ok hextend
      obtain ⟨delivered, hnext⟩ := hclimbed.next
      have hascent := ih hnext (hle.trans (Nat.le_add_right _ _))
        (extendBody_steady port call hsteady hextend) (hclimbed.curve call hcurve) hrest
      have hrises : remaining ≤ clampDuration durationSeconds := hclimbed.priced.longer.le
      refine ⟨hrises.trans hascent.rises, ?_, ?_, ?_⟩
      · have hfirst : figures.principalEff * WEIGHT_DENOM ≤
            basis * weightDelta (clampDuration durationSeconds) remaining := by
          rw [hclimbed.priced.principalEff]
          exact basisPrincipalEff_mul_le hle ((Nat.pos_of_ne_zero hbasis).trans_le hle)
        calc ((figures :: rest).map ExtensionFigures.principalEff).sum * WEIGHT_DENOM
            = figures.principalEff * WEIGHT_DENOM +
                (rest.map ExtensionFigures.principalEff).sum * WEIGHT_DENOM := by
              rw [List.map_cons, List.sum_cons, Nat.add_mul]
          _ ≤ basis * weightDelta (clampDuration durationSeconds) remaining +
                basis * weightDelta (topOf (clampDuration durationSeconds) rungs)
                  (clampDuration durationSeconds) :=
              Nat.add_le_add hfirst hascent.principalEff
          _ = basis * weightDelta (topOf remaining ((durationSeconds, minBonusOut) :: rungs))
                remaining := by
              rw [← Nat.mul_add, weightDelta_add hrises hascent.rises]
              rfl
      · have hlast := hascent.curve
        rw [Nat.add_assoc] at hlast
        exact hlast
      · have hfirst := hclimbed.reserve
        have hlast := hascent.reserve
        dsimp only at hfirst hlast ⊢
        simp only [List.map_cons, List.sum_cons]
        omega

theorem resolveExtendWithBonus_lock {durationSeconds : ℕ} {r : ℕ × ℕ × ℕ}
    (h : resolveExtendWithBonus call w user tokenId durationSeconds = .ok r) :
    ∃ remaining, w.ve.getLockInfo call.timestamp tokenId =
      ((w.ve.locks tokenId).amount, call.timestamp + remaining, false, false) := by
  simp only [resolveExtendWithBonus, bind_eq_ok_iff, revertIf_eq_ok] at h
  obtain ⟨-, -, -, hauto, -, hlisted, -, hunexpired, -⟩ := h
  refine ⟨(w.ve.getLockInfo call.timestamp tokenId).2.1 - call.timestamp, ?_⟩
  rw [Nat.add_sub_cancel' (not_le.mp hunexpired).le]
  refine Prod.ext rfl (Prod.ext rfl (Prod.ext ?_ ?_))
  · simpa using hauto
  · simpa using hlisted

/-- A ladder of extensions is worth no more than the extension to its top, and
takes no more from the reserve, up to rounding. -/
theorem extension_ladder_gains_nothing {c : Timed (World S)}
    (hc : (systemOf port Op.Covered).Reachable c) (hnow : c.now ≤ call.timestamp)
    {rungs : List (ℕ × ℕ)} {last : ℕ × ℕ} {w' : World S} {figures : List ExtensionFigures}
    {single : ExtensionFigures} (hrecorded : c.state.furnace.bonusBasis tokenId ≠ 0)
    (hle : c.state.furnace.bonusBasis tokenId ≤ (c.state.ve.locks tokenId).amount)
    (hladder : extendLadder port call user tokenId (rungs ++ [last]) c.state = .ok (w', figures))
    (hsingle : extensionFigures call c.state user tokenId last.1 = .ok single) :
    (figures.map ExtensionFigures.principalEff).sum ≤ single.principalEff + 1 ∧
      (figures.map ExtensionFigures.gross).sum ≤
        single.gross + (figures.map ExtensionFigures.refund).sum + 2 ∧
      drippedReserve call w'.furnace + (figures.map ExtensionFigures.gross).sum =
        drippedReserve call c.state.furnace + (figures.map ExtensionFigures.refund).sum := by
  have hsteady : Steady call c.state :=
    ⟨(reachable_sound (systemOf_reachable hc)).shaped.later hnow, reachable_backed hc⟩
  obtain ⟨_, hresolved, -⟩ := bind_eq_ok_iff.mp hsingle
  obtain ⟨remaining, hlock⟩ := resolveExtendWithBonus_lock call hresolved
  have hextendable : Extendable call c.state user tokenId _ remaining _ := ⟨hlock, rfl⟩
  have hstart : OnCurve (c.state.ammInputs call) call.timestamp 0 (c.state.ammInputs call) :=
    .inl rfl
  have hascent := extendLadder_ascent port call hextendable hrecorded hle hsteady hstart hladder
  obtain ⟨-, hpriced, -⟩ := extensionFigures_spec call hextendable hrecorded hsingle
  have hreserve : drippedReserve call w'.furnace + (figures.map ExtensionFigures.gross).sum =
      drippedReserve call c.state.furnace + (figures.map ExtensionFigures.refund).sum :=
    hascent.reserve
  have hworth : (figures.map ExtensionFigures.principalEff).sum ≤ single.principalEff + 1 := by
    have hsum := hascent.principalEff
    rw [topOf_concat] at hsum
    rw [hpriced.principalEff]
    exact ((Nat.le_div_iff_mul_le WEIGHT_DENOM_pos).mpr hsum).trans
      (mul_div_le_basisPrincipalEff hle (Nat.pos_of_ne_zero hrecorded))
  refine ⟨hworth, ?_, hreserve⟩
  have htaken := hascent.curve.taken_le (by rwa [Nat.zero_add])
  have hgross : (c.state.ammInputs call).gross call.timestamp single.principalEff =
      single.gross := by
    rw [hpriced.gross]
    split
    · next hzero => simp [hzero, AmmInputs.gross, grossBonusOf]
    · rfl
  have hlast : (c.state.ammInputs call).reserve ≤ (w'.ammInputs call).reserve + single.gross + 2 :=
    hgross ▸ htaken
  have hsum := hascent.reserve
  dsimp only at hsum
  omega

/-- A lock of 1000 CLAIM and a reserve of 10^6, for a ladder of two rungs. -/
def ladderCalls : List (Call × Op Unit) :=
  wiringCalls ++ [(wiredCall 2 7, .enterWithClaim (10 ^ 21) ⟨0, 2592000, false, 1⟩),
    (wiredCall 2 4, .mintToReserve (10 ^ 24))]

/-- The ladder to 90 and 180 days and the extension to 180 days. -/
def ladderRun : Except Error Bool := do
  let w ← runCalls (fun c w ↦ exec VeClaimNFT.acceptingPort c.1 w c.2) ladderCalls wiredWorld
  let (_, figures) ← extendLadder VeClaimNFT.acceptingPort (wiredCall 2 7) 7 1
    ([(7776000, 0)] ++ [(15552000, 0)]) w
  let single ← extensionFigures (wiredCall 2 7) w 7 1 15552000
  return decide (w.furnace.bonusBasis 1 ≠ 0 ∧
    w.furnace.bonusBasis 1 ≤ (w.ve.locks 1).amount ∧ 0 < single.gross ∧ figures.length = 2)

theorem extension_ladder_gains_nothing_twoRungs : ∃ (w w' : World Unit)
    (figures : List ExtensionFigures) (single : ExtensionFigures),
    figures.length = 2 ∧ 0 < single.gross ∧
      ((figures.map ExtensionFigures.principalEff).sum ≤ single.principalEff + 1 ∧
        (figures.map ExtensionFigures.gross).sum ≤
          single.gross + (figures.map ExtensionFigures.refund).sum + 2 ∧
        drippedReserve (wiredCall 2 7) w'.furnace + (figures.map ExtensionFigures.gross).sum =
          drippedReserve (wiredCall 2 7) w.furnace +
            (figures.map ExtensionFigures.refund).sum) := by
  have hok : ladderRun.toOption.any id = true := by decide +kernel
  obtain ⟨_, hrun, rfl⟩ := exists_ok_of_any hok
  obtain ⟨w, hcalls, hrest⟩ := bind_eq_ok_iff.mp hrun
  obtain ⟨⟨w', figures⟩, hladder, hrest⟩ := bind_eq_ok_iff.mp hrest
  obtain ⟨single, hsingle, hrest⟩ := bind_eq_ok_iff.mp hrest
  obtain ⟨hrecorded, hle, hgross, hlength⟩ := of_decide_eq_true (Except.ok.inj hrest)
  have hreach : (systemOf VeClaimNFT.acceptingPort Op.Covered).Reachable ⟨3, w⟩ :=
    systemOf_run wiredWorld_reachable hcalls
    (by simp [ladderCalls, wiringCalls, Op.Covered, Op.brought])
      (by simp [ladderCalls, wiringCalls, wiredCall])
  exact ⟨w, w', figures, single, hlength, hgross, extension_ladder_gains_nothing
    VeClaimNFT.acceptingPort (wiredCall 2 7) hreach le_rfl hrecorded hle hladder hsingle⟩

end ClaimRush.Furnace
