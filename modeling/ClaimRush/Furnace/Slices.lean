import ClaimRush.Furnace.Ladder

/-!
# Deposits in slices

Several bonus calls of one block against one call with the sum of their effective
principals.  The gross bonuses follow one curve; the split of a gross bonus follows
the LP rate, which each call reads from the reserve that it finds.
-/

namespace ClaimRush.Furnace

open Constants DepthCurve

variable {S : Type}

/-- One bonus call: its effective principal, the inputs it finds and what it pays. -/
structure Slice where
  principalEff : ℕ
  found : AmmInputs
  bonus : Bonus

/-- Bonus calls of one block; `between` relates the world after a call to the world
before the next one. -/
inductive Sliced (call : Call) (between : World S → World S → Prop) :
    World S → List Slice → World S → Prop
  | nil (w : World S) : Sliced call between w [] w
  | cons {w w₁ w₂ w₃ : World S} {slices : List Slice} {bonus : Bonus} (user : Address)
      (principalClaim principalEff lockDurationSec : ℕ)
      (hcall : applyBonusAmm call w user principalClaim principalEff lockDurationSec =
        .ok (w₁, bonus))
      (hbetween : between w₁ w₂) (hrest : Sliced call between w₂ slices w₃) :
      Sliced call between w (⟨principalEff, w.ammInputs call, bonus⟩ :: slices) w₃

/-- The locked supply may grow and nothing else that the AMM reads changes. -/
structure Grown (call : Call) (w w' : World S) : Prop where
  locked : w.ve.totalLockedClaim ≤ w'.ve.totalLockedClaim
  inputs : w'.ammInputs call =
    { w.ammInputs call with lockedSupply := w'.ve.totalLockedClaim }

def principals (slices : List Slice) : List ℕ := slices.map Slice.principalEff

def grossTotal (slices : List Slice) : ℕ := (slices.map fun s ↦ s.bonus.gross).sum

def userTotal (slices : List Slice) : ℕ := (slices.map fun s ↦ s.bonus.user).sum

/-! ## A spot rate of zero -/

theorem lockedPctBps_mono {lockedSupply lockedSupply' : ℕ} (totalSupply : ℕ)
    (h : lockedSupply ≤ lockedSupply') :
    Quoter.lockedPctBps lockedSupply totalSupply ≤
      Quoter.lockedPctBps lockedSupply' totalSupply := by
  have hraw : BPS_DENOM * lockedSupply / totalSupply ≤ BPS_DENOM * lockedSupply' / totalSupply :=
    Nat.div_le_div_right (Nat.mul_le_mul_left _ h)
  simp only [Quoter.lockedPctBps]
  split
  · exact le_rfl
  · split <;> split <;> omega

theorem baseUserBps_anti {lockedSupply lockedSupply' : ℕ} (totalSupply : ℕ)
    (h : lockedSupply ≤ lockedSupply') :
    Quoter.baseUserBps lockedSupply' totalSupply ≤ Quoter.baseUserBps lockedSupply totalSupply :=
  Nat.div_le_div_left (Nat.add_le_add_left (lockedPctBps_mono totalSupply h) _)
    (Nat.add_pos_left LOCK_PCT_TARGET_BPS_pos _)

theorem denom_le_maxReserveFactorBps (lockedPctBps : ℕ) :
    BPS_DENOM ≤ Quoter.maxReserveFactorBps lockedPctBps := by
  have hlow : BPS_DENOM ≤ RESERVE_FACTOR_MAX_BPS_LOWLOCK := by
    simp [BPS_DENOM, RESERVE_FACTOR_MAX_BPS_LOWLOCK]
  simp only [Quoter.maxReserveFactorBps]
  split
  · exact hlow
  · split
    · exact BPS_DENOM_le_RESERVE_FACTOR_MAX_BPS
    · exact hlow.trans (Nat.le_add_right _ _)

theorem baseUserBps_pos (lockedSupply totalSupply : ℕ) :
    0 < Quoter.baseUserBps lockedSupply totalSupply := by
  have hpct : Quoter.lockedPctBps lockedSupply totalSupply ≤ BPS_DENOM := by
    simp only [Quoter.lockedPctBps]
    split
    · exact Nat.zero_le _
    · split <;> omega
  have hbound : LOCK_PCT_TARGET_BPS + BPS_DENOM ≤ MAX_USER_BONUS_BPS * LOCK_PCT_TARGET_BPS := by
    simp [LOCK_PCT_TARGET_BPS, BPS_DENOM, MAX_USER_BONUS_BPS]
  exact Nat.div_pos ((Nat.add_le_add_left hpct _).trans hbound)
    (Nat.add_pos_left LOCK_PCT_TARGET_BPS_pos _)

theorem userSpotBonusBps_eq_zero {lockedSupply totalSupply reserve elapsed : ℕ} :
    Quoter.userSpotBonusBps lockedSupply totalSupply reserve elapsed = 0 ↔
      Quoter.baseUserBps lockedSupply totalSupply *
        Quoter.cappedReserveFactorBps lockedSupply totalSupply reserve elapsed < BPS_DENOM := by
  have hmax : 0 < MAX_USER_BONUS_BPS := by simp [MAX_USER_BONUS_BPS]
  rw [← Nat.div_eq_zero_iff_lt BPS_DENOM_pos]
  simp only [Quoter.userSpotBonusBps]
  split <;> omega

/-- A spot rate of zero comes from a stressed reserve, and stays zero. -/
theorem userSpotBonusBps_zero {lockedSupply lockedSupply' : ℕ} (totalSupply reserve elapsed : ℕ)
    (h : lockedSupply ≤ lockedSupply')
    (hzero : Quoter.userSpotBonusBps lockedSupply totalSupply reserve elapsed = 0) :
    Quoter.userSpotBonusBps lockedSupply' totalSupply reserve elapsed = 0 := by
  rw [userSpotBonusBps_eq_zero] at hzero ⊢
  have hbase := baseUserBps_anti totalSupply h
  have hpos := baseUserBps_pos lockedSupply totalSupply
  have hcap := denom_le_maxReserveFactorBps (Quoter.lockedPctBps lockedSupply totalSupply)
  -- a factor at its cap pays something
  have hfactor : Quoter.cappedReserveFactorBps lockedSupply totalSupply reserve elapsed =
      Quoter.reserveFactorBps (Quoter.reserveFullnessBps reserve)
        (Quoter.swingAlphaBps elapsed) := by
    simp only [Quoter.cappedReserveFactorBps] at hzero ⊢
    split at hzero
    · have hpaid := Nat.mul_le_mul hpos hcap
      omega
    · next hlow => rw [if_neg hlow]
  have hfactor' : Quoter.cappedReserveFactorBps lockedSupply' totalSupply reserve elapsed ≤
      Quoter.cappedReserveFactorBps lockedSupply totalSupply reserve elapsed := by
    rw [hfactor]
    simp only [Quoter.cappedReserveFactorBps]
    split <;> omega
  exact (Nat.mul_le_mul hbase hfactor').trans_lt hzero

theorem grossSpotBps_eq_zero {a : AmmInputs} {now : ℕ} :
    (a.rates now).grossSpotBps = 0 ↔ a.reserve = 0 ∨
      Quoter.userSpotBonusBps a.lockedSupply a.totalSupply a.reserve a.elapsed = 0 := by
  have hmax := MAX_GROSS_BONUS_BPS_pos
  unfold AmmInputs.rates computeBonusAmmRates
  split_ifs with hnone
  · simp [hnone]
  · dsimp only
    rw [not_or] at hnone
    have hgross : grossSpotBonusBps
        (Quoter.userSpotBonusBps a.lockedSupply a.totalSupply a.reserve a.elapsed)
        (lpTopupRateBps a.lpEnabled
          (Quoter.userSpotBonusBps a.lockedSupply a.totalSupply a.reserve a.elapsed) *
            Quoter.lpScaleBps a.lockedSupply a.totalSupply a.reserve a.elapsed / BPS_DENOM) ≠
          0 := by
      simp only [grossSpotBonusBps]
      split
      · exact hmax.ne'
      · exact fun hzero ↦ hnone.2 (Nat.eq_zero_of_add_eq_zero_right hzero)
    simp [hgross, hnone]

/-! ## The gross bonuses -/

/-- The bonuses of the slices come out of the reserve. -/
structure AmmInputs.Started (a₀ a : AmmInputs) (now deposited : ℕ) : Prop where
  spot : (a₀.rates now).grossSpotBps ≠ 0
  lastUpdate : a.lastUpdate = now
  slid : ∃ s, s ≤ deposited ∧
    Slid a₀.reserve (a₀.rates now).virtualDepth s a.reserve a.depth

theorem AmmInputs.rung_after (a : AmmInputs) (now principalEff : ℕ) :
    a.Rung (a.after now principalEff) now principalEff 0 :=
  ⟨rfl, rfl, rfl, fun _ ↦ rfl⟩

theorem AmmInputs.after_reserve (a : AmmInputs) (now principalEff : ℕ) :
    (a.after now principalEff).reserve + a.gross now principalEff = a.reserve := by
  have hle := a.gross_le now principalEff
  unfold AmmInputs.after
  split
  · next hspot => simp [AmmInputs.gross, hspot]
  · dsimp only
    omega

theorem AmmInputs.Started.after {a₀ a : AmmInputs} {now deposited : ℕ}
    (h : a₀.Started a now deposited) (principalEff : ℕ) :
    a₀.Started (a.after now principalEff) now (deposited + principalEff) := by
  obtain ⟨s, hs, hslid⟩ := h.slid
  by_cases hspot : (a.rates now).grossSpotBps = 0
  · rw [AmmInputs.after, if_pos hspot]
    exact ⟨h.spot, h.lastUpdate, s, hs.trans (Nat.le_add_right _ _), hslid⟩
  · obtain ⟨hlast, hslid'⟩ := (a.rung_after now principalEff).slid hspot
      ⟨hslid.reserve, hslid.depth.trans (depth_le_rates hspot h.lastUpdate)⟩
    exact ⟨h.spot, hlast, s + principalEff, by omega, hslid'⟩

theorem AmmInputs.Started.grown {a₀ a : AmmInputs} {now deposited : ℕ}
    (h : a₀.Started a now deposited) (lockedSupply : ℕ) :
    a₀.Started { a with lockedSupply := lockedSupply } now deposited :=
  ⟨h.spot, h.lastUpdate, h.slid⟩

/-- What the slices take, against one call with their sum. -/
theorem AmmInputs.Started.taken_le {a₀ a : AmmInputs} {now deposited : ℕ}
    (h : a₀.Started a now deposited) : a₀.reserve ≤ a.reserve + a₀.gross now deposited := by
  obtain ⟨s, hs, hslid⟩ := h.slid
  rcases Nat.le_total a.reserve a₀.reserve with hle | hle
  · have htaken := hslid.taken_le_single hle hs (grossSpot_pos h.spot).1
    rw [AmmInputs.gross, if_neg h.spot]
    simp only [grossBonusOf]
    split <;> omega
  · omega

/-! ## One call -/

section Call

variable (call : Call) (w : World S)

/-- The inputs after a call; a call for no principal leaves them alone. -/
def AmmInputs.next (a : AmmInputs) (now principalEff : ℕ) : AmmInputs :=
  if principalEff = 0 then a else a.after now principalEff

theorem bonusAmmComputeAndUpdate_lpRate
    (user : Address) (principalClaim principalEff lockDurationSec : ℕ)
    (hdripped : call.timestamp ≤ w.furnace.lastLpOverflowDripUpdate) :
    Returns (fun r ↦ r.2.grossSpotBps = 0 ∨
        r.2.lpRateBps = ((w.ammInputs call).rates call.timestamp).lpRateBps)
      (bonusAmmComputeAndUpdate call w user principalClaim principalEff lockDurationSec) := by
  have hrates : (bonusRates call w w.furnace.furnaceReserve).2 =
      (w.ammInputs call).rates call.timestamp := by
    rw [← drippedReserve_idle call hdripped]
    rfl
  unfold bonusAmmComputeAndUpdate
  refine Returns.guard fun _ ↦ ?_
  apply Returns.ite
  · exact fun _ ↦ .inl rfl
  intro _
  apply Returns.ite
  · exact fun hnone ↦ .inl hnone
  intro _
  exact Returns.guard fun _ ↦ .inr (congrArg BonusAmmRates.lpRateBps hrates)

/-- The user part of a bonus. -/
theorem bonusAmm_user (user : Address) (principalClaim principalEff lockDurationSec : ℕ)
    (hdripped : call.timestamp ≤ w.furnace.lastLpOverflowDripUpdate) :
    Returns (fun r ↦ r.2.user = (splitBonusAmm r.2.gross
        ((w.ammInputs call).rates call.timestamp).lpRateBps).1)
      (bonusAmm call w user principalClaim principalEff lockDurationSec) := by
  unfold bonusAmm
  apply Returns.ite
  · intro _
    simp [splitBonusAmm]
  intro _
  refine Outcome.bind (bonusAmmComputeAndUpdate_lpRate call w user principalClaim principalEff
    lockDurationSec hdripped) ?_
  rintro ⟨w₁, frame⟩ hrate
  apply Returns.ite
  · intro _
    simp [splitBonusAmm]
  intro hsome
  have hrate := hrate.resolve_left hsome
  dsimp only at hrate
  unfold bonusAmmSplitAndRoute
  rw [← hrate]
  generalize hparts : splitBonusAmm frame.grossBonus frame.lpRateBps = parts
  obtain ⟨userBonus, lpBonus⟩ := parts
  dsimp only
  by_cases hlp : lpBonus = 0
  · simp [hlp, hparts]
  · simp only [ne_eq, hlp, not_false_eq_true, if_true, bind_assoc, pure_bind]
    exact Returns.seq fun f _ ↦ by simp [hparts]

/-- What a call pays, and what it leaves. -/
theorem applyBonusAmm_slice (user : Address) (principalClaim principalEff lockDurationSec : ℕ) :
    let a := w.ammInputs call
    Returns (fun r ↦ r.2.gross = a.gross call.timestamp principalEff ∧
        r.2.user = (splitBonusAmm r.2.gross (a.rates call.timestamp).lpRateBps).1 ∧
        r.1.ammInputs call = a.next call.timestamp principalEff)
      (applyBonusAmm call w user principalClaim principalEff lockDurationSec) := by
  intro a
  unfold applyBonusAmm
  refine Outcome.bind (accrueLpOverflowDrip_inputs call w) ?_
  rintro ⟨w₁, streamed⟩ ⟨hinputs, hdripped, -⟩
  dsimp only at hinputs hdripped
  have huser := bonusAmm_user call w₁ user principalClaim principalEff lockDurationSec hdripped
  by_cases hzero : principalEff = 0
  · subst hzero
    refine ⟨?_, ?_, ?_⟩
    · simp [AmmInputs.gross, grossBonusOf]
    · simp [splitBonusAmm]
    · exact hinputs
  · refine ((bonusAmm_paid call w₁ user principalClaim principalEff lockDurationSec hzero
      hdripped).and huser).weaken ?_
    rintro r ⟨hpaid, huser⟩
    have hgross := hpaid.gross
    have hafter := hpaid.inputs
    rw [hinputs] at huser hgross hafter
    exact ⟨hgross, huser, hafter.trans (if_neg hzero).symm⟩

end Call

/-! ## Runs of slices -/

section Runs

variable {call : Call} {w w' : World S} {slices : List Slice}

theorem AmmInputs.Started.next {a₀ a : AmmInputs} {now deposited : ℕ}
    (h : a₀.Started a now deposited) (principalEff : ℕ) :
    a₀.Started (a.next now principalEff) now (deposited + principalEff) := by
  unfold AmmInputs.next
  split
  · next hzero => simpa [hzero] using h
  · exact h.after principalEff

theorem AmmInputs.next_reserve (a : AmmInputs) (now principalEff : ℕ) :
    (a.next now principalEff).reserve + a.gross now principalEff = a.reserve := by
  unfold AmmInputs.next
  split
  · next hzero => simp [hzero, AmmInputs.gross, grossBonusOf]
  · exact a.after_reserve now principalEff

theorem Sliced.started (h : Sliced call (Grown call) w slices w') {a₀ : AmmInputs} {deposited : ℕ}
    (hstarted : a₀.Started (w.ammInputs call) call.timestamp deposited) :
    a₀.Started (w'.ammInputs call) call.timestamp (deposited + (principals slices).sum) ∧
      (w'.ammInputs call).reserve + grossTotal slices = (w.ammInputs call).reserve := by
  induction h generalizing deposited with
  | nil w => exact ⟨hstarted, rfl⟩
  | @cons w w₁ w₂ w₃ slices bonus user principalClaim principalEff lockDurationSec hcall
        hgrown _ ih =>
      obtain ⟨hgross, -, hinputs⟩ := (applyBonusAmm_slice call w user principalClaim principalEff
        lockDurationSec).of_ok hcall
      have hnext := hstarted.next principalEff
      rw [← hinputs] at hnext
      have hafter := hnext.grown w₂.ve.totalLockedClaim
      rw [← hgrown.inputs] at hafter
      obtain ⟨hlast, hreserve⟩ := ih hafter
      have hpaid := (w.ammInputs call).next_reserve call.timestamp principalEff
      rw [← hinputs] at hpaid
      have hkept : (w₂.ammInputs call).reserve = (w₁.ammInputs call).reserve := by
        rw [hgrown.inputs]
      refine ⟨?_, ?_⟩
      · simpa [principals, Nat.add_assoc] using hlast
      · simp only [grossTotal, List.map_cons, List.sum_cons] at hreserve ⊢
        dsimp only at hgross hpaid
        omega

theorem AmmInputs.next_idle {a : AmmInputs} {now : ℕ} (h : (a.rates now).grossSpotBps = 0)
    (principalEff : ℕ) : a.next now principalEff = a ∧ a.gross now principalEff = 0 := by
  refine ⟨?_, if_pos h⟩
  unfold AmmInputs.next AmmInputs.after
  rw [if_pos h]
  exact ite_self a

/-- Without a rate nothing is paid, however the locked supply grows. -/
theorem Sliced.idle (h : Sliced call (Grown call) w slices w')
    (hspot : ((w.ammInputs call).rates call.timestamp).grossSpotBps = 0) :
    grossTotal slices = 0 := by
  induction h with
  | nil w => rfl
  | @cons w w₁ w₂ w₃ slices bonus user principalClaim principalEff lockDurationSec hcall
        hgrown _ ih =>
      obtain ⟨hgross, -, hinputs⟩ := (applyBonusAmm_slice call w user principalClaim principalEff
        lockDurationSec).of_ok hcall
      obtain ⟨hsame, hnone⟩ := AmmInputs.next_idle hspot principalEff
      have hlocked : w.ve.totalLockedClaim = w₁.ve.totalLockedClaim := by
        exact (congrArg AmmInputs.lockedSupply (hinputs.trans hsame)).symm
      have hrest := ih (by
        rw [hgrown.inputs, hinputs, hsame, grossSpotBps_eq_zero]
        rw [grossSpotBps_eq_zero] at hspot
        refine hspot.imp_right fun hzero ↦ ?_
        exact userSpotBonusBps_zero _ _ _ (hlocked.le.trans hgrown.locked) hzero)
      simp only [grossTotal, List.map_cons, List.sum_cons] at hrest ⊢
      rw [hrest, hgross, hnone]

theorem Sliced.gross_le (h : Sliced call (Grown call) w slices w')
    (hfirst : (principals slices).head? ≠ some 0) :
    grossTotal slices ≤ (w.ammInputs call).gross call.timestamp (principals slices).sum := by
  by_cases hspot : ((w.ammInputs call).rates call.timestamp).grossSpotBps = 0
  · rw [h.idle hspot]
    exact Nat.zero_le _
  · cases h with
    | nil => exact Nat.zero_le _
    | @cons _ w₁ w₂ _ slices bonus user principalClaim principalEff lockDurationSec hcall hgrown
        hrest =>
        have hpos : principalEff ≠ 0 := fun hzero ↦ hfirst (by simp [principals, hzero])
        obtain ⟨hgross, -, hinputs⟩ := (applyBonusAmm_slice call w user principalClaim
          principalEff lockDurationSec).of_ok hcall
        have hafter := ((w.ammInputs call).rung_after call.timestamp principalEff).slid hspot
          (.refl le_rfl)
        have hstarted : (w.ammInputs call).Started
            ((w.ammInputs call).next call.timestamp principalEff) call.timestamp principalEff := by
          rw [AmmInputs.next, if_neg hpos]
          exact ⟨hspot, hafter.1, _, (Nat.zero_add _).le, hafter.2⟩
        rw [← hinputs] at hstarted
        have hgrownStart := hstarted.grown w₂.ve.totalLockedClaim
        rw [← hgrown.inputs] at hgrownStart
        obtain ⟨hlast, hreserve⟩ := hrest.started hgrownStart
        have htaken := hlast.taken_le
        have hpaid := (w.ammInputs call).next_reserve call.timestamp principalEff
        rw [← hinputs] at hpaid
        have hkept : (w₂.ammInputs call).reserve = (w₁.ammInputs call).reserve := by
          rw [hgrown.inputs]
        simp only [principals, grossTotal, List.map_cons, List.sum_cons] at htaken hreserve ⊢
        dsimp only at hgross hpaid
        omega

/-- Bonus calls of one block, the first for a positive effective principal, pay
together at most the gross bonus of one call with their sum. -/
theorem sliced_gross_le (h : Sliced call (Grown call) w slices w')
    (hfirst : (principals slices).head? ≠ some 0) {w'' : World S} {single : Bonus} (user : Address)
    (principalClaim lockDurationSec : ℕ)
    (hsingle : applyBonusAmm call w user principalClaim (principals slices).sum lockDurationSec =
      .ok (w'', single)) :
    grossTotal slices ≤ single.gross := by
  have hgross := ((applyBonusAmm_slice call w user principalClaim (principals slices).sum
    lockDurationSec).of_ok hsingle).1
  exact (h.gross_le hfirst).trans_eq hgross.symm

/-! ## The user parts -/

theorem Sliced.grown (h : Sliced call Eq w slices w') : Sliced call (Grown call) w slices w' := by
  induction h with
  | nil w => exact .nil w
  | cons user principalClaim principalEff lockDurationSec hcall hsame _ ih =>
      subst hsame
      exact .cons user principalClaim principalEff lockDurationSec hcall ⟨le_rfl, rfl⟩ ih

/-- Calls for no principal change nothing, so the first may be one of them. -/
theorem Sliced.gross_le_of_eq (h : Sliced call Eq w slices w') :
    grossTotal slices ≤ (w.ammInputs call).gross call.timestamp (principals slices).sum := by
  induction h with
  | nil w => exact Nat.zero_le _
  | @cons w w₁ w₂ w₃ slices bonus user principalClaim principalEff lockDurationSec hcall hsame hrest
      ih =>
      subst hsame
      by_cases hzero : principalEff = 0
      · subst hzero
        obtain ⟨hgross, -, hinputs⟩ := (applyBonusAmm_slice call w user principalClaim 0
          lockDurationSec).of_ok hcall
        have hsame : w₁.ammInputs call = w.ammInputs call := hinputs.trans (if_pos rfl)
        have hnone : (w.ammInputs call).gross call.timestamp 0 = 0 := by
          simp [AmmInputs.gross, grossBonusOf]
        rw [hsame] at ih
        dsimp only at hgross
        simp only [grossTotal, principals, List.map_cons, List.sum_cons] at ih ⊢
        rwa [hgross, hnone, Nat.zero_add, Nat.zero_add]
      · refine Sliced.gross_le (Sliced.grown (.cons user principalClaim principalEff lockDurationSec
          hcall rfl hrest)) ?_
        simp [principals, hzero]

theorem splitBonusAmm_fst (grossBonus lpRateBps : ℕ) :
    (splitBonusAmm grossBonus lpRateBps).1 = grossBonus * BPS_DENOM / (BPS_DENOM + lpRateBps) := by
  unfold splitBonusAmm
  split
  · next hnone =>
      rcases hnone with rfl | rfl
      · exact (Nat.mul_div_cancel _ BPS_DENOM_pos).symm
      · simp
  · rfl

theorem Sliced.bonus {between : World S → World S → Prop} (h : Sliced call between w slices w') :
    ∀ s ∈ slices, s.bonus.gross = s.found.gross call.timestamp s.principalEff ∧
      s.bonus.user = (splitBonusAmm s.bonus.gross (s.found.rates call.timestamp).lpRateBps).1 := by
  induction h with
  | nil w => simp
  | @cons w w₁ w₂ w₃ slices bonus user principalClaim principalEff lockDurationSec hcall _ _ ih =>
      obtain ⟨hgross, huser, -⟩ := (applyBonusAmm_slice call w user principalClaim principalEff
        lockDurationSec).of_ok hcall
      rw [List.forall_mem_cons]
      exact ⟨⟨hgross, huser⟩, ih⟩

/-- The parts of gross bonuses at a common rate. -/
theorem userTotal_le {slices : List Slice} {rate : ℕ}
    (h : ∀ s ∈ slices, s.bonus.user ≤ s.bonus.gross * BPS_DENOM / (BPS_DENOM + rate)) :
    userTotal slices ≤ grossTotal slices * BPS_DENOM / (BPS_DENOM + rate) := by
  induction slices with
  | nil => exact Nat.zero_le _
  | cons s slices ih =>
      rw [List.forall_mem_cons] at h
      have hrest := ih h.2
      simp only [userTotal, grossTotal, List.map_cons, List.sum_cons] at hrest ⊢
      rw [Nat.add_mul]
      exact (Nat.add_le_add h.1 hrest).trans (Nat.div_add_div_le_add_div)

/-- When no paying slice finds a lower LP rate than the first state, the users get
together at most what one call would give its user, and a wei for each slice. -/
theorem sliced_user_le (h : Sliced call Eq w slices w')
    (hrates : ∀ s ∈ slices, s.found.gross call.timestamp s.principalEff = 0 ∨
      ((w.ammInputs call).rates call.timestamp).lpRateBps ≤
        (s.found.rates call.timestamp).lpRateBps)
    {w'' : World S} {single : Bonus} (user : Address) (principalClaim lockDurationSec : ℕ)
    (hsingle : applyBonusAmm call w user principalClaim (principals slices).sum lockDurationSec =
      .ok (w'', single)) :
    userTotal slices ≤ single.user + slices.length := by
  obtain ⟨hgross, huser, -⟩ := (applyBonusAmm_slice call w user principalClaim
    (principals slices).sum lockDurationSec).of_ok hsingle
  dsimp only at hgross huser
  have hparts : ∀ s ∈ slices, s.bonus.user ≤ s.bonus.gross * BPS_DENOM /
      (BPS_DENOM + ((w.ammInputs call).rates call.timestamp).lpRateBps) := by
    intro s hs
    obtain ⟨hsgross, hsuser⟩ := h.bonus s hs
    rw [hsuser, splitBonusAmm_fst]
    rcases hrates s hs with hnone | hrate
    · simp [hsgross, hnone]
    · exact Nat.div_le_div_left (Nat.add_le_add_left hrate _) (Nat.add_pos_left BPS_DENOM_pos _)
  have htotal := userTotal_le hparts
  have hmono := Nat.div_le_div_right (c := BPS_DENOM +
    ((w.ammInputs call).rates call.timestamp).lpRateBps)
      (Nat.mul_le_mul_right BPS_DENOM h.gross_le_of_eq)
  rw [huser, splitBonusAmm_fst, hgross]
  omega

end Runs

/-! ## Two states -/

/-- A supply of `10^27`, two months after the launch. -/
def slicedWorld (reserve lockedSupply vault : ℕ) : World Unit where
  furnace := { wiredWorld.furnace with
    furnaceReserve := reserve, mineCore := 4, furnaceQuoter := 10, lpRewardsVault := vault }
  base := { wiredWorld.base with
    ve := { wiredWorld.base.ve with totalLockedClaim := lockedSupply } }

def slicedCall : Call := wiredCall 6000000 7

/-- Locks of others enter. -/
def withLocked (w : World Unit) (lockedSupply : ℕ) : World Unit :=
  { w with base := { w.base with ve := { w.base.ve with totalLockedClaim := lockedSupply } } }

/-- A call for nothing, then the cap of the reserve factor rises by three basis
points where the base rate stands still. -/
def risenRun : Except Error Bool := do
  let w := slicedWorld (40 * 10 ^ 24) (1982 * 10 ^ 23) 0
  let (w₁, idle) ← applyBonusAmm slicedCall w 7 0 0 0
  let (_, bonus) ← applyBonusAmm slicedCall (withLocked w₁ (1983 * 10 ^ 23)) 7 (10 ^ 25) (10 ^ 25) 0
  let (_, single) ← applyBonusAmm slicedCall w 7 (10 ^ 25) (10 ^ 25) 0
  return decide (single.gross < idle.gross + bonus.gross ∧
    w₁.ve.totalLockedClaim ≤ 1983 * 10 ^ 23)

theorem not_sliced_gross_le :
    ¬ ∀ (w w' w'' : World Unit) (slices : List Slice) (single : Bonus),
      Sliced slicedCall (Grown slicedCall) w slices w' →
      applyBonusAmm slicedCall w 7 (principals slices).sum (principals slices).sum 0 =
        .ok (w'', single) → grossTotal slices ≤ single.gross := by
  have hok : risenRun.toOption.any id = true := by decide +kernel
  obtain ⟨_, hrun, rfl⟩ := exists_ok_of_any hok
  obtain ⟨⟨w₁, idle⟩, hidle, hrun⟩ := bind_eq_ok_iff.mp hrun
  obtain ⟨⟨w₂, bonus⟩, hbonus, hrun⟩ := bind_eq_ok_iff.mp hrun
  obtain ⟨⟨w₃, single⟩, hsingle, hrun⟩ := bind_eq_ok_iff.mp hrun
  obtain ⟨hless, hlocked⟩ := of_decide_eq_true (Except.ok.inj hrun)
  intro h
  have hgrown : Grown slicedCall w₁ (withLocked w₁ (1983 * 10 ^ 23)) := ⟨hlocked, rfl⟩
  have hlast : Grown slicedCall w₂ w₂ := ⟨le_rfl, rfl⟩
  have hsliced := Sliced.cons 7 0 0 0 hidle hgrown
    (.cons 7 (10 ^ 25) (10 ^ 25) 0 hbonus hlast (.nil w₂))
  have hle := h _ _ _ _ single hsliced (by
    simp only [principals, List.map_cons, List.map_nil, List.sum_cons, List.sum_nil, Nat.zero_add,
      Nat.add_zero]
    exact hsingle)
  simp only [grossTotal, List.map_cons, List.map_nil, List.sum_cons, List.sum_nil] at hle
  omega

/-- Two halves from a reserve at its target, which the first half leaves stressed. -/
def halvesRun : Except Error Bool := do
  let w := slicedWorld (20 * 10 ^ 24) (10 ^ 26) 14
  let (w₁, first) ← applyBonusAmm slicedCall w 7 (10 ^ 25) (10 ^ 25) 0
  let (_, second) ← applyBonusAmm slicedCall w₁ 7 (10 ^ 25) (10 ^ 25) 0
  let (_, single) ← applyBonusAmm slicedCall w 7 (2 * 10 ^ 25) (2 * 10 ^ 25) 0
  return decide (single.user + 2 < first.user + second.user)

theorem not_sliced_user_le :
    ¬ ∀ (w w' w'' : World Unit) (slices : List Slice) (single : Bonus),
      w.furnace.lpRewardsVault ≠ 0 → Sliced slicedCall Eq w slices w' →
      applyBonusAmm slicedCall w 7 (principals slices).sum (principals slices).sum 0 =
        .ok (w'', single) → userTotal slices ≤ single.user + slices.length := by
  have hok : halvesRun.toOption.any id = true := by decide +kernel
  obtain ⟨_, hrun, rfl⟩ := exists_ok_of_any hok
  obtain ⟨⟨w₁, first⟩, hfirst, hrun⟩ := bind_eq_ok_iff.mp hrun
  obtain ⟨⟨w₂, second⟩, hsecond, hrun⟩ := bind_eq_ok_iff.mp hrun
  obtain ⟨⟨w₃, single⟩, hsingle, hrun⟩ := bind_eq_ok_iff.mp hrun
  have hless := of_decide_eq_true (Except.ok.inj hrun)
  intro h
  have hsliced := Sliced.cons 7 (10 ^ 25) (10 ^ 25) 0 hfirst (Eq.refl w₁)
    (.cons 7 (10 ^ 25) (10 ^ 25) 0 hsecond (Eq.refl w₂) (.nil w₂))
  have hle := h _ _ _ _ single (by decide) hsliced (by
    simp only [principals, List.map_cons, List.map_nil, List.sum_cons, List.sum_nil, Nat.add_zero,
      ← Nat.two_mul]
    exact hsingle)
  simp only [userTotal, List.map_cons, List.map_nil, List.sum_cons, List.sum_nil,
    List.length_cons, List.length_nil] at hle
  omega

/-- Two slices of a full reserve, which stays full. -/
def fullRun : Except Error Bool := do
  let w := slicedWorld (60 * 10 ^ 24) (10 ^ 26) 14
  let (w₁, first) ← applyBonusAmm slicedCall w 7 (10 ^ 24) (10 ^ 24) 0
  let (_, second) ← applyBonusAmm slicedCall w₁ 7 (10 ^ 24) (10 ^ 24) 0
  let (_, single) ← applyBonusAmm slicedCall w 7 (2 * 10 ^ 24) (2 * 10 ^ 24) 0
  let rate := fun w : World Unit ↦ ((w.ammInputs slicedCall).rates slicedCall.timestamp).lpRateBps
  return decide (0 < second.user ∧ 0 < single.user ∧ rate w ≤ rate w₁ ∧ 0 < first.user)

theorem sliced_gross_le_full : ∃ (w w' : World Unit) (slices : List Slice) (single : Bonus),
    Sliced slicedCall (Grown slicedCall) w slices w' ∧ slices.length = 2 ∧ 0 < single.user ∧
      grossTotal slices ≤ single.gross := by
  have hok : fullRun.toOption.any id = true := by decide +kernel
  obtain ⟨_, hrun, rfl⟩ := exists_ok_of_any hok
  obtain ⟨⟨w₁, first⟩, hfirst, hrun⟩ := bind_eq_ok_iff.mp hrun
  obtain ⟨⟨w₂, second⟩, hsecond, hrun⟩ := bind_eq_ok_iff.mp hrun
  obtain ⟨⟨w₃, single⟩, hsingle, hrun⟩ := bind_eq_ok_iff.mp hrun
  obtain ⟨-, hpaid, -, -⟩ := of_decide_eq_true (Except.ok.inj hrun)
  have hsliced := Sliced.grown (.cons 7 (10 ^ 24) (10 ^ 24) 0 hfirst (Eq.refl w₁)
    (.cons 7 (10 ^ 24) (10 ^ 24) 0 hsecond (Eq.refl w₂) (.nil w₂)))
  refine ⟨_, _, _, single, hsliced, rfl, hpaid, ?_⟩
  refine @sliced_gross_le Unit slicedCall _ _ _ hsliced ?_ w₃ single 7 (2 * 10 ^ 24) 0 ?_
  · simp [principals]
  · simp only [principals, List.map_cons, List.map_nil, List.sum_cons, List.sum_nil, Nat.add_zero,
      ← Nat.two_mul]
    exact hsingle

theorem sliced_user_le_full : ∃ (w w' : World Unit) (slices : List Slice) (single : Bonus),
    Sliced slicedCall Eq w slices w' ∧ slices.length = 2 ∧ 0 < single.user ∧
      userTotal slices ≤ single.user + slices.length := by
  have hok : fullRun.toOption.any id = true := by decide +kernel
  obtain ⟨_, hrun, rfl⟩ := exists_ok_of_any hok
  obtain ⟨⟨w₁, first⟩, hfirst, hrun⟩ := bind_eq_ok_iff.mp hrun
  obtain ⟨⟨w₂, second⟩, hsecond, hrun⟩ := bind_eq_ok_iff.mp hrun
  obtain ⟨⟨w₃, single⟩, hsingle, hrun⟩ := bind_eq_ok_iff.mp hrun
  obtain ⟨-, hpaid, hrate, -⟩ := of_decide_eq_true (Except.ok.inj hrun)
  have hsliced := Sliced.cons 7 (10 ^ 24) (10 ^ 24) 0 hfirst (Eq.refl w₁)
    (.cons 7 (10 ^ 24) (10 ^ 24) 0 hsecond (Eq.refl w₂) (.nil w₂))
  refine ⟨_, _, _, single, hsliced, rfl, hpaid, ?_⟩
  refine @sliced_user_le Unit slicedCall _ _ _ hsliced ?_ w₃ single 7 (2 * 10 ^ 24) 0 ?_
  · simp only [List.forall_mem_cons, List.not_mem_nil, false_imp_iff, implies_true, and_true]
    exact ⟨.inr le_rfl, .inr hrate⟩
  · simp only [principals, List.map_cons, List.map_nil, List.sum_cons, List.sum_nil, Nat.add_zero,
      ← Nat.two_mul]
    exact hsingle

end ClaimRush.Furnace
