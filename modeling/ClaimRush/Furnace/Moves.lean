import ClaimRush.Furnace.Account
import ClaimRush.Furnace.Admin
import ClaimRush.Furnace.BonusCaps
import ClaimRush.Furnace.Extend
import ClaimRush.VeClaimNFT.Tables

/-!
# Calls as moves

Each function of the Furnace is a sequence of moves of its account.  The CLAIM
in hand when it starts and when it ends is an argument, so that the functions
compose.
-/

open Function

namespace ClaimRush.Furnace

open Constants Relation Account

variable {S : Type} (port : VeClaimNFT.IShareholderRoyalties S) (call : Call) (w : World S)

/-- Nothing is due to the vault at `now`. -/
def Account.Settled (now : ℕ) (a : Account) : Prop := a.vault ≠ 0 → a.stream.due now = 0

@[simp] theorem account_emit (e : Event) (k : ℕ) : (w.emit e).account k = w.account k := rfl

/-- A notification is at most logged. -/
theorem notify_eq (f : FurnaceState) (vault : Address) (amount : ℕ) :
    ∃ events, notifyLpRewardsVaultBestEffort call f vault amount = { f with events := events } := by
  unfold notifyLpRewardsVaultBestEffort
  split
  · exact ⟨f.events, rfl⟩
  · exact ⟨_, rfl⟩

/-! ## The stream -/

/-- An accrual is one payment of what is due. -/
theorem accrueLpStream_account (k : ℕ) :
    Returns (fun r ↦ w.furnace.lpRewardsVault = 0 ∧ r.1.account k = w.account k ∨
        w.furnace.lpRewardsVault ≠ 0 ∧ ∃ balance,
          (w.furnace.stream.accrue call.timestamp).2 ≤ w.claimBalance ∧
          w.claimBalance ≤ balance + (w.furnace.stream.accrue call.timestamp).2 ∧
          r.1.account k = (w.account k).accrued call.timestamp balance)
          (accrueLpStream call w) := by
  unfold accrueLpStream
  apply Returns.ite
  · exact fun hnone ↦ .inl ⟨hnone, rfl⟩
  intro hvault
  have hpaid {a : Account} {s : LinearStream} {paid balance : ℕ}
      (hacc : w.furnace.stream.accrue call.timestamp = (s, paid)) (hfunds : paid ≤ w.claimBalance)
      (hle : w.claimBalance ≤ balance + paid)
      (ha : a = { w.account k with
        stream := s
        balance := balance
        ghost := { w.furnace.ghost with streamed := w.furnace.ghost.streamed + paid } }) :
      w.furnace.lpRewardsVault ≠ 0 ∧ ∃ balance,
        (w.furnace.stream.accrue call.timestamp).2 ≤ w.claimBalance ∧
        w.claimBalance ≤ balance + (w.furnace.stream.accrue call.timestamp).2 ∧
        a = (w.account k).accrued call.timestamp balance := by
    refine ⟨hvault, balance, hacc ▸ hfunds, hacc ▸ hle, ?_⟩
    rw [ha, accrued_eq hacc]
    rfl
  apply Returns.ite
  · intro hnone
    have hacc : w.furnace.stream.accrue call.timestamp =
        ({ w.furnace.stream with last := call.timestamp }, 0) := if_pos hnone
    exact .inr (hpaid hacc (Nat.zero_le _) le_rfl rfl)
  intro hopen
  apply Returns.ite
  · intro hpast
    have hacc : w.furnace.stream.accrue call.timestamp = (w.furnace.stream, 0) := by
      simp only [LinearStream.accrue, if_neg hopen, if_pos hpast]
    exact .inr (hpaid hacc (Nat.zero_le _) le_rfl rfl)
  intro hlater
  apply Returns.ite
  · intro hpast
    have hmin : min call.timestamp w.furnace.stream.finish ≤ w.furnace.stream.last := by
      split at hpast <;> omega
    have hacc : w.furnace.stream.accrue call.timestamp = (w.furnace.stream, 0) := by
      simp only [LinearStream.accrue, if_neg hopen, if_neg hlater, if_pos hmin]
    exact .inr (hpaid hacc (Nat.zero_le _) le_rfl rfl)
  intro hlast
  have ht : (if call.timestamp < w.furnace.stream.finish then call.timestamp
      else w.furnace.stream.finish) = min call.timestamp w.furnace.stream.finish := by
    split <;> omega
  rw [ht] at hlast ⊢
  apply Returns.seq
  intro streamed hstreamed
  obtain ⟨-, rfl⟩ := uint256_eq_ok.mp hstreamed
  apply Returns.seq
  intro claim hclaim
  have hmoved := ClaimToken.transfer_eq_ok hclaim
  obtain ⟨events, hevents⟩ := notify_eq call { w.furnace with
    stream := { w.furnace.stream with
      last := min call.timestamp w.furnace.stream.finish }
    ghost := { w.furnace.ghost with
      streamed := w.furnace.ghost.streamed +
        (min call.timestamp w.furnace.stream.finish - w.furnace.stream.last) *
          w.furnace.stream.rate } } w.furnace.lpRewardsVault
    ((min call.timestamp w.furnace.stream.finish - w.furnace.stream.last) * w.furnace.stream.rate)
  rw [hevents]
  by_cases hend : w.furnace.stream.finish ≤ min call.timestamp w.furnace.stream.finish
  · have hacc : w.furnace.stream.accrue call.timestamp =
        ({ w.furnace.stream with
          rate := 0
          finish := 0
          last := min call.timestamp w.furnace.stream.finish },
        (min call.timestamp w.furnace.stream.finish - w.furnace.stream.last) *
          w.furnace.stream.rate) := by
      simp only [LinearStream.accrue, if_neg hopen, if_neg hlater, if_neg hlast, if_pos hend]
    simp only [ge_iff_le, if_pos hend]
    exact .inr (hpaid hacc hmoved.funded hmoved.balance_src rfl)
  · have hacc : w.furnace.stream.accrue call.timestamp =
        ({ w.furnace.stream with last := min call.timestamp w.furnace.stream.finish },
        (min call.timestamp w.furnace.stream.finish - w.furnace.stream.last) *
          w.furnace.stream.rate) := by
      simp only [LinearStream.accrue, if_neg hopen, if_neg hlater, if_neg hlast, if_neg hend]
    simp only [ge_iff_le, if_neg hend]
    exact .inr (hpaid hacc hmoved.funded hmoved.balance_src rfl)

theorem accrueLpStream_moves (k : ℕ) :
    Returns (fun r ↦ Moves call.timestamp (w.account k) (r.1.account k) ∧
        (r.1.account k).Settled call.timestamp) (accrueLpStream call w) := by
  refine (accrueLpStream_account call w k).weaken ?_
  rintro r (⟨hnone, heq⟩ | ⟨hvault, balance, hfunds, hpaid, heq⟩)
  · rw [heq]
    exact ⟨.refl, fun hvault ↦ absurd hnone hvault⟩
  · rw [heq]
    exact ⟨.single (.accrue hvault hfunds hpaid),
      fun _ ↦ w.furnace.stream.accrue_settled call.timestamp⟩

/-- CLAIM in hand may stay in the Furnace without a place. -/
theorem leave_moves (now k amount : ℕ) : Moves now (w.account (k + amount)) (w.account k) := by
  have hmove : Move now (w.account (k + amount))
      { w.account (k + amount) with inHand := k + amount - amount } :=
    .pay (Nat.le_add_left amount k) (Nat.le_add_right _ _)
  rw [Nat.add_sub_cancel] at hmove
  exact .single hmove

theorem computeStreamSchedule_eq_ok {amount now : ℕ} {s s' : LinearStream}
    (h : computeStreamSchedule amount s now = .ok s') :
    s' = s.fund LP_STREAM_WINDOW amount now ∧
      (s.finish - now) * s.rate + amount + s.carry < uint256Bound := by
  obtain ⟨total, htotal, h⟩ := bind_eq_ok_iff.mp h
  obtain ⟨hfits, rfl⟩ := uint256_eq_ok.mp htotal
  have hremaining : (if s.finish > now ∧ s.rate ≠ 0 then (s.finish - now) * s.rate else 0) =
      (s.finish - now) * s.rate := by
    split_ifs with hopen
    · rfl
    · rcases not_and_or.mp hopen with hpast | hrate
      · rw [Nat.sub_eq_zero_of_le (not_lt.mp hpast), Nat.zero_mul]
      · rw [not_not.mp hrate, Nat.mul_zero]
  rw [hremaining] at hfits h
  exact ⟨(Except.ok.inj h).symm, hfits⟩

theorem fundLpStream_moves (f : FurnaceState) (base : VeClaimNFT.World S) (k amount : ℕ)
    (hsettled : ((World.mk f base).account (k + amount)).Settled call.timestamp) :
    Returns (fun f' ↦ Moves call.timestamp ((World.mk f base).account (k + amount))
          ((World.mk f' base).account k) ∧
        ((World.mk f' base).account k).Settled call.timestamp)
      (fundLpStreamInternal call f amount) := by
  have hleave := leave_moves (World.mk f base) call.timestamp k amount
  unfold fundLpStreamInternal
  apply Returns.ite
  · exact fun _ ↦ ⟨hleave, hsettled⟩
  intro _
  apply Returns.ite
  · exact fun _ ↦ ⟨hleave, hsettled⟩
  intro hvault
  apply Returns.seq
  intro s hs
  obtain ⟨rfl, hfits⟩ := computeStreamSchedule_eq_ok hs
  refine ⟨.single ?_, fun _ ↦ LinearStream.fund_settled _ _ _⟩
  have hmove : Move call.timestamp ((World.mk f base).account (k + amount))
      (((World.mk f base).account (k + amount)).fund call.timestamp amount) :=
    .fund hvault (hsettled hvault) (Nat.le_add_left amount k) hfits
  simp only [Account.fund, World.account, Nat.add_sub_cancel] at hmove
  exact hmove

theorem fundLpStreamInternal_rest (f : FurnaceState) (amount : ℕ) :
    Returns (fun f' ↦ ∃ stream events ghost,
        f' = { f with stream := stream, events := events, ghost := ghost })
      (fundLpStreamInternal call f amount) := by
  unfold fundLpStreamInternal
  apply Returns.ite
  · exact fun _ ↦ ⟨_, _, _, rfl⟩
  intro _
  apply Returns.ite
  · exact fun _ ↦ ⟨_, _, _, rfl⟩
  exact fun _ ↦ Returns.seq fun _ _ ↦ ⟨_, _, _, rfl⟩

/-- Part of the reserve goes into the stream. -/
theorem drip_moves (f : FurnaceState) (base : VeClaimNFT.World S) (k : ℕ) {dripped : ℕ}
    (hle : dripped ≤ f.furnaceReserve)
    (hsettled : ((World.mk f base).account k).Settled call.timestamp) :
    Returns (fun f' ↦ Moves call.timestamp ((World.mk f base).account k)
          ((World.mk f' base).account k) ∧
        ((World.mk f' base).account k).Settled call.timestamp)
      (fundLpStreamInternal call { f with furnaceReserve := f.furnaceReserve - dripped }
        dripped) := by
  have htake : Move call.timestamp ((World.mk f base).account k)
      { (World.mk f base).account k with
        reserve := f.furnaceReserve - dripped
        inHand := k + dripped } := .take hle
  refine (fundLpStream_moves call { f with furnaceReserve := f.furnaceReserve - dripped } base k
    dripped hsettled).weaken ?_
  rintro f' ⟨hmoves, hsettled'⟩
  exact ⟨.head htake hmoves, hsettled'⟩

theorem overflowDrip_moves (f : FurnaceState) (base : VeClaimNFT.World S) (k : ℕ)
    (hsettled : ((World.mk f base).account k).Settled call.timestamp) :
    Returns (fun f' ↦ Moves call.timestamp ((World.mk f base).account k)
          ((World.mk f' base).account k) ∧
        ((World.mk f' base).account k).Settled call.timestamp) (overflowDrip call f) := by
  have hkeep : Moves call.timestamp ((World.mk f base).account k) ((World.mk f base).account k) ∧
      ((World.mk f base).account k).Settled call.timestamp := ⟨.refl, hsettled⟩
  unfold overflowDrip
  apply Returns.ite
  · exact fun _ ↦ hkeep
  intro _
  apply Returns.ite
  · exact fun _ ↦ hkeep
  intro _
  apply Returns.ite
  · exact fun _ ↦ hkeep
  intro hexcess
  apply Returns.seq
  intro p _
  apply Returns.ite
  · exact fun _ ↦ hkeep
  intro _
  apply Returns.seq
  intro accrued _
  apply Returns.ite
  · exact fun _ ↦ hkeep
  intro _
  refine Outcome.bind (drip_moves call { f with lastLpOverflowDripUpdate := call.timestamp } base k
    ?_ hsettled) ?_
  · dsimp only
    split <;> omega
  · rintro f' ⟨hmoves, hsettled'⟩
    exact Returns.guard fun _ ↦ ⟨hmoves, hsettled'⟩

theorem accrueLpOverflowDrip_moves (k : ℕ) :
    Returns (fun r ↦ Moves call.timestamp (w.account k) (r.1.account k) ∧
        (r.1.account k).Settled call.timestamp) (accrueLpOverflowDrip call w) := by
  unfold accrueLpOverflowDrip
  refine Outcome.bind (accrueLpStream_moves call w k) ?_
  rintro ⟨w₁, streamed⟩ ⟨haccrue, hsettled⟩
  refine Outcome.bind (overflowDrip_moves call w₁.furnace w₁.base k hsettled) ?_
  rintro f ⟨hdrip, hsettled'⟩
  exact ⟨haccrue.trans hdrip, hsettled'⟩

/-! ## The reserve -/

theorem syncFurnaceReserve_moves (k : ℕ) :
    Moves call.timestamp (w.account k) ((syncFurnaceReserve call w).account k) := by
  have hcap : (if w.claimBalance > w.furnace.stream.liability then
      w.claimBalance - w.furnace.stream.liability else 0) =
      w.claimBalance - w.furnace.stream.liability := by
    split <;> omega
  unfold syncFurnaceReserve
  dsimp only
  rw [hcap]
  split
  · next hover => exact .single (.clamp hover)
  · exact .refl

/-- A synchronisation after changes outside the account, with its event. -/
theorem sync_emit_moves {a : Account} {w₁ : World S} {k : ℕ} (e : Event) (h : w₁.account k = a) :
    Moves call.timestamp a (((syncFurnaceReserve call w₁).emit e).account k) :=
  h ▸ syncFurnaceReserve_moves call w₁ k

theorem tick_moves (k : ℕ) :
    Returns (fun w' ↦ Moves call.timestamp (w.account k) (w'.account k)) (tick call w) := by
  unfold tick
  refine Outcome.bind (accrueLpOverflowDrip_moves call w k) ?_
  rintro ⟨w₁, streamed⟩ ⟨haccrue, hsettled⟩
  dsimp only
  split
  · refine Outcome.bind (fundLpStream_moves call w₁.furnace w₁.base k 0 hsettled) ?_
    rintro f ⟨hfund, -⟩
    exact (haccrue.trans hfund).trans (syncFurnaceReserve_moves call _ k)
  · exact haccrue.trans (syncFurnaceReserve_moves call _ k)

/-- The credited amount must have arrived before. -/
theorem creditReserve_moves (k amount : ℕ) :
    Returns (fun w' ↦ Moves call.timestamp (w.account (k + amount)) (w'.account k))
      (creditReserve call w amount) := by
  unfold creditReserve
  apply Returns.guard
  intro _
  refine Outcome.bind (accrueLpOverflowDrip_moves call w (k + amount)) ?_
  rintro ⟨w₁, streamed⟩ ⟨haccrue, -⟩
  apply Returns.ite
  · rintro rfl
    exact haccrue
  intro _
  apply Returns.seq
  intro reserve hreserve
  obtain ⟨-, rfl⟩ := uint256_eq_ok.mp hreserve
  have hgive : Move call.timestamp (w₁.account (k + amount))
      { w₁.account (k + amount) with
        reserve := w₁.furnace.furnaceReserve + amount
        inHand := k + amount - amount } := .give (Nat.le_add_left amount k)
  rw [Nat.add_sub_cancel] at hgive
  have hsync := syncFurnaceReserve_moves call
    { w₁ with
      furnace := { w₁.furnace with furnaceReserve := w₁.furnace.furnaceReserve + amount } } k
  exact (haccrue.tail hgive).trans hsync

/-! ## The bonus -/

/-- The AMM changes its own slots only. -/
theorem bonusAmmComputeAndUpdate_changes
    (user : Address) (principalClaim principalEff lockDurationSec : ℕ) :
    Returns (fun r ↦ ∃ lastUpdate reserve depth, r.1 = { w with furnace := { w.furnace with
          lastBonusUpdate := lastUpdate
          furnaceReserve := reserve
          bonusVirtualDepth := depth } })
      (bonusAmmComputeAndUpdate call w user principalClaim principalEff lockDurationSec) := by
  unfold bonusAmmComputeAndUpdate
  apply Returns.guard
  intro _
  apply Returns.ite
  · exact fun _ ↦ ⟨_, _, _, rfl⟩
  intro _
  apply Returns.ite
  · exact fun _ ↦ ⟨_, _, _, rfl⟩
  intro _
  apply Returns.guard
  exact fun _ ↦ ⟨_, _, _, rfl⟩

theorem bonusAmmComputeAndUpdate_moves
    (user : Address) (principalClaim principalEff lockDurationSec k : ℕ)
    (hsettled : (w.account k).Settled call.timestamp) :
    Returns (fun r ↦ Moves call.timestamp (w.account k) (r.1.account (k + r.2.grossBonus)) ∧
        (r.1.account (k + r.2.grossBonus)).Settled call.timestamp)
      (bonusAmmComputeAndUpdate call w user principalClaim principalEff lockDurationSec) := by
  have hcomputed := Returns.of_outcome
    (bonusAmmComputeAndUpdate_computed call w user principalClaim principalEff lockDurationSec)
  have hchanges :=
    bonusAmmComputeAndUpdate_changes call w user principalClaim principalEff lockDurationSec
  refine (hcomputed.and hchanges).weaken ?_
  rintro ⟨w₁, frame⟩ ⟨hc, lastUpdate, reserve, depth, rfl⟩
  have heq : reserve + frame.grossBonus = w.furnace.furnaceReserve := hc.reserve_eq
  have htake : Move call.timestamp (w.account k)
      { w.account k with
        reserve := w.furnace.furnaceReserve - frame.grossBonus
        inHand := k + frame.grossBonus } :=
    .take (show frame.grossBonus ≤ w.furnace.furnaceReserve by omega)
  rw [← heq, Nat.add_sub_cancel] at htake
  exact ⟨.single htake, hsettled⟩

theorem bonusAmm_moves (user : Address) (principalClaim principalEff lockDurationSec k : ℕ)
    (hsettled : (w.account k).Settled call.timestamp) :
    Returns (fun r ↦ Moves call.timestamp (w.account k) (r.1.account (k + r.2.user)))
      (bonusAmm call w user principalClaim principalEff lockDurationSec) := by
  unfold bonusAmm
  apply Returns.ite
  · exact fun _ ↦ .refl
  intro _
  refine Outcome.bind (bonusAmmComputeAndUpdate_moves call w user principalClaim principalEff
    lockDurationSec k hsettled) ?_
  rintro ⟨w₁, frame⟩ ⟨htake, hsettled₁⟩
  dsimp only at htake hsettled₁
  apply Returns.ite
  · intro _
    exact htake.trans (leave_moves w₁ call.timestamp k frame.grossBonus)
  intro _
  have hsum := splitBonusAmm_sum frame.grossBonus frame.lpRateBps
  unfold bonusAmmSplitAndRoute
  generalize splitBonusAmm frame.grossBonus frame.lpRateBps = parts at hsum ⊢
  obtain ⟨userBonus, lpBonus⟩ := parts
  dsimp only at hsum ⊢
  rw [← hsum, ← Nat.add_assoc] at htake hsettled₁
  by_cases hlp : lpBonus = 0
  · subst hlp
    refine htake.trans ?_
    simp only [bonusAmmEmit]
    split <;> exact .refl
  simp only [ne_eq, hlp, not_false_eq_true, if_true, bind_assoc, pure_bind]
  refine Outcome.bind (fundLpStream_moves call w₁.furnace w₁.base (k + userBonus) lpBonus
    hsettled₁) ?_
  rintro f ⟨hfund, -⟩
  refine (htake.trans hfund).trans ?_
  simp only [bonusAmmEmit]
  split <;> exact .refl

theorem applyBonusAmm_moves (user : Address) (principalClaim principalEff lockDurationSec k : ℕ) :
    Returns (fun r ↦ Moves call.timestamp (w.account k) (r.1.account (k + r.2.user)))
      (applyBonusAmm call w user principalClaim principalEff lockDurationSec) := by
  unfold applyBonusAmm
  refine Outcome.bind (accrueLpOverflowDrip_moves call w k) ?_
  rintro ⟨w₁, streamed⟩ ⟨haccrue, hsettled⟩
  exact (bonusAmm_moves call w₁ user principalClaim principalEff lockDurationSec k
    hsettled).weaken fun r hbonus ↦ haccrue.trans hbonus

theorem bonusFromHelper_moves
    (user : Address) (principalClaim principalEff lockDurationSec k : ℕ) :
    Returns (fun r ↦ Moves call.timestamp (w.account k) (r.1.account (k + r.2)))
      (bonusFromHelper call w user principalClaim principalEff lockDurationSec) := by
  unfold bonusFromHelper
  apply Returns.ite
  · intro _
    refine Outcome.bind (applyBonusAmm_moves call w user principalClaim principalEff
      lockDurationSec k) ?_
    rintro ⟨w₁, bonus⟩ hbonus
    exact hbonus
  · exact fun _ ↦ .refl

/-! ## Locks -/

/-- CLAIM that the lock contract pulls from the Furnace. -/
theorem pay_moves {w' : World S} {now k amount : ℕ} {c c' : ClaimToken} {spender dst : Address}
    (htransfer : c.transferFrom spender w.furnace.self dst amount = .ok c')
    (hbefore : c.balanceOf = w.claim.balanceOf) (hafter : w'.claim.balanceOf = c'.balanceOf)
    (hfurnace : w'.furnace = w.furnace) (hlock : w'.ve.self = w.ve.self) :
    Moves now (w.account (k + amount)) (w'.account k) := by
  have hmoved := (ClaimToken.transferFrom_eq_ok htransfer).balance_src
  rw [hbefore, ← hafter] at hmoved
  have hmove : Move now (w.account (k + amount))
      { w.account (k + amount) with
        inHand := k + amount - amount
        balance := w'.claim.balanceOf w.furnace.self } :=
    .pay (Nat.le_add_left amount k) hmoved
  rw [Nat.add_sub_cancel] at hmove
  have heq : w'.account k = { w.account (k + amount) with
      inHand := k
      balance := w'.claim.balanceOf w.furnace.self } := by
    unfold World.account World.claimBalance
    rw [hfurnace, hlock]
    rfl
  rw [heq]
  exact .single hmove

theorem createLockDelegated_moves (user : Address) (amount duration k : ℕ) (autoMax : Bool) :
    Returns (fun r ↦ Moves call.timestamp (w.account (k + amount)) (r.1.account k))
      (createLockDelegated port call w user amount duration autoMax) := by
  unfold createLockDelegated
  refine Outcome.bind (VeClaimNFT.exec_effect port (call.byFurnace w.furnace) _
    (.createLockFor user amount duration autoMax)) ?_
  rintro base ⟨-, hcreated⟩
  refine pay_moves w hcreated.claim rfl rfl rfl ?_
  exact hcreated.ve.keeps VeClaimNFT.VeState.self fun _ _ ↦ rfl

theorem addToLockDelegated_moves (user : Address) (tokenId amount k : ℕ) :
    Returns (fun w' ↦ Moves call.timestamp (w.account (k + amount)) (w'.account k))
      (addToLockDelegated port call w user tokenId amount) := by
  unfold addToLockDelegated
  refine Outcome.bind (VeClaimNFT.exec_effect port (call.byFurnace w.furnace) _
    (.addToLockFor user tokenId amount)) ?_
  rintro base ⟨-, htopped⟩
  refine pay_moves w htopped.claim rfl rfl rfl ?_
  exact htopped.ve.keeps VeClaimNFT.VeState.self fun _ _ ↦ rfl

theorem delegatecall_returns {α : Type} {Q : α → Prop} {x : Except Error α} (h : Returns Q x) :
    Returns Q (delegatecall x) := by
  cases x with
  | ok a => exact h
  | error e => trivial

theorem deliverOrRefund_moves {deliver : Except Error (World S)} (userBonus k : ℕ)
    (hdeliver : Returns (fun w' ↦ Moves call.timestamp (w.account (k + userBonus)) (w'.account k))
      deliver) :
    Returns (fun r ↦ Moves call.timestamp (w.account (k + userBonus)) (r.1.account k))
      (deliverOrRefund w deliver userBonus) := by
  unfold deliverOrRefund
  apply Returns.ite
  · intro _
    exact Outcome.bind hdeliver fun _ h ↦ h
  · intro _
    have hgive : Move call.timestamp (w.account (k + userBonus))
        { w.account (k + userBonus) with
          reserve := w.furnace.furnaceReserve + userBonus
          inHand := k + userBonus - userBonus } := .give (Nat.le_add_left userBonus k)
    rw [Nat.add_sub_cancel] at hgive
    exact .single hgive

theorem lockToDestination_moves (user : Address)
    (amountLocked targetTokenId durationSeconds k : ℕ) (createAutoMax : Bool) :
    Returns (fun r ↦ Moves call.timestamp (w.account (k + amountLocked)) (r.1.account k))
      (lockToDestination port call w user amountLocked targetTokenId durationSeconds
        createAutoMax) := by
  unfold lockToDestination
  apply Returns.ite
  · intro _
    refine Returns.seq fun veOut _ ↦ ?_
    refine Outcome.bind (delegatecall_returns (createLockDelegated_moves port call w user
      amountLocked durationSeconds k createAutoMax)) ?_
    exact fun _ h ↦ h
  · intro _
    refine Returns.seq fun veOut _ ↦ ?_
    refine Outcome.bind (delegatecall_returns (addToLockDelegated_moves port call w user
      targetTokenId amountLocked k)) ?_
    exact fun _ h ↦ h

/-! ## Entries -/

theorem enterAfterPrincipal_moves (user : Address) (mode ethIn principalClaim targetTokenId
    durationSeconds : ℕ) (createAutoMax : Bool) (minVeOut k : ℕ) :
    Returns (fun r ↦ Moves call.timestamp (w.account (k + principalClaim)) (r.1.account k))
      (enterAfterPrincipal port call w user mode ethIn principalClaim targetTokenId durationSeconds
        createAutoMax minVeOut) := by
  unfold enterAfterPrincipal
  refine Returns.guard fun _ ↦ Returns.guard fun _ ↦ Returns.guard fun _ ↦ ?_
  refine Returns.seq fun ⟨d, weight⟩ _ ↦ Returns.seq fun product _ ↦ ?_
  refine Outcome.bind (applyBonusAmm_moves call w user principalClaim _ d (k + principalClaim)) ?_
  rintro ⟨w₁, bonus⟩ hbonus
  rw [Nat.add_assoc] at hbonus
  refine Outcome.bind (lockToDestination_moves port call w₁ user (principalClaim + bonus.user)
    targetTokenId d k createAutoMax) ?_
  rintro ⟨w₂, veOut, tokenIdUsed⟩ hlocked
  refine Returns.seq fun basis _ ↦ Returns.guard fun _ ↦ ?_
  refine (hbonus.trans hlocked).trans ?_
  apply sync_emit_moves
  split <;> rfl

/-- CLAIM that arrives in the Furnace. -/
theorem receive_moves (base : VeClaimNFT.World S) (now k amount : ℕ)
    (hlock : base.ve.self = w.ve.self)
    (hbalance : w.claimBalance + amount ≤ base.claim.balanceOf w.furnace.self) :
    Moves now (w.account k) ((World.mk w.furnace base).account (k + amount)) := by
  have hmove : Move now (w.account k)
      { w.account k with
        inHand := k + amount
        balance := base.claim.balanceOf w.furnace.self } := .receive hbalance
  have heq : (World.mk w.furnace base).account (k + amount) = { w.account k with
      inHand := k + amount
      balance := base.claim.balanceOf w.furnace.self } := by
    simp only [World.account, World.ve, hlock]
    rfl
  rw [heq]
  exact .single hmove

theorem enterClaim_moves (user : Address) (claimAmount k : ℕ) (dst : Destination)
    (hsender : call.sender ≠ w.furnace.self) :
    Returns (fun r ↦ Moves call.timestamp (w.account k) (r.1.account k))
      (enterClaim port call w user claimAmount dst) := by
  unfold enterClaim
  refine Returns.seq fun _ _ ↦ Returns.seq fun w₁ hpull ↦ ?_
  obtain ⟨claim, htransfer, hw₁⟩ := bind_eq_ok_iff.mp hpull
  obtain rfl := Except.ok.inj hw₁
  have hreceived := (ClaimToken.transferFrom_eq_ok htransfer).balance_dst hsender
  have hmoves := receive_moves w { w.base with claim := claim } call.timestamp k claimAmount rfl
    hreceived.ge
  exact (enterAfterPrincipal_moves port call _ user _ _ _ _ _ _ _ k).weaken fun r h ↦
    hmoves.trans h

/-- A swap that leaves the lock contract where it is. -/
def Swap.Fixed (swap : Swap S) : Prop := ∀ b b', swap b = some b' → b'.ve.self = b.ve.self

theorem enterSwapped_moves (user : Address) (mode ethIn k : ℕ) {swap : Swap S}
    (hswap : swap.Fixed) (dst : Destination) :
    Returns (fun r ↦ Moves call.timestamp (w.account k) (r.1.account k))
      (enterSwapped port call w user mode ethIn swap dst) := by
  unfold enterSwapped
  refine Returns.seq fun ⟨w₁, principalClaim⟩ hswapped ↦ ?_
  unfold swapToClaim at hswapped
  obtain ⟨_, -, hswapped⟩ := bind_eq_ok_iff.mp hswapped
  obtain ⟨base, hbase, hswapped⟩ := bind_eq_ok_iff.mp hswapped
  obtain ⟨received, hreceived, hswapped⟩ := bind_eq_ok_iff.mp hswapped
  obtain ⟨_, -, hswapped⟩ := bind_eq_ok_iff.mp hswapped
  obtain ⟨rfl, rfl⟩ := Prod.ext_iff.mp (Except.ok.inj hswapped)
  have hlock : base.ve.self = w.ve.self := by
    cases hresult : swap w.base with
    | none => simp [hresult, externalCall] at hbase
    | some b =>
        rw [hresult] at hbase
        obtain rfl := Except.ok.inj hbase
        exact hswap _ _ hresult
  obtain ⟨hle, heq⟩ := usub_eq_ok.mp hreceived
  have hheld : w.claimBalance + received ≤ base.claim.balanceOf w.furnace.self := by
    have hbalance : (World.mk w.furnace base).claimBalance = base.claim.balanceOf w.furnace.self :=
      rfl
    omega
  have hmoves := receive_moves w base call.timestamp k received hlock hheld
  exact (enterAfterPrincipal_moves port call _ user _ _ _ _ _ _ _ k).weaken fun r h ↦
    hmoves.trans h

/-! ## Extensions, merges and AutoMax bonuses -/

theorem extendBody_moves (user : Address) (tokenId durationSeconds minBonusOut k : ℕ) :
    Returns (fun r ↦ Moves call.timestamp (w.account k) (r.1.account k))
      (extendBody port call w user tokenId durationSeconds minBonusOut) := by
  unfold extendBody
  refine Returns.seq fun ⟨lockAmount, d, principalEff⟩ _ ↦ ?_
  refine Outcome.bind (bonusFromHelper_moves call
    { w with furnace := { w.furnace with
        bonusBasis := update w.furnace.bonusBasis tokenId (basisOf w.furnace tokenId lockAmount) } }
    user lockAmount _ d k) ?_
  rintro ⟨w₁, userBonus⟩ hbonus
  refine Outcome.bind (VeClaimNFT.exec_effect port (call.byFurnace w₁.furnace) w₁.base
    (.extendLockToFor user tokenId (call.timestamp + d))) ?_
  rintro base ⟨-, hextended⟩
  have hlock : base.ve.self = w₁.base.ve.self :=
    hextended.ve.keeps VeClaimNFT.VeState.self fun _ _ ↦ rfl
  have hkeep (n : ℕ) : (World.mk w₁.furnace base).account n = w₁.account n := by
    simp only [World.account, World.ve, World.claimBalance, hlock, hextended.claim]
  refine Outcome.bind (deliverOrRefund_moves call ⟨w₁.furnace, base⟩ userBonus k
    (addToLockDelegated_moves port call ⟨w₁.furnace, base⟩ user tokenId userBonus k)) ?_
  rintro ⟨w₂, bonusClaim⟩ hdelivered
  rw [hkeep] at hdelivered
  refine Returns.guard fun _ ↦ ?_
  exact (hbonus.trans hdelivered).trans (sync_emit_moves call _ rfl)

theorem mergeBody_moves (user : Address) (fromTokenId intoTokenId minBonusOut k : ℕ) :
    Returns (fun r ↦ Moves call.timestamp (w.account k) (r.1.account k))
      (mergeBody port call w user fromTokenId intoTokenId minBonusOut) := by
  unfold mergeBody
  refine Returns.seq fun r _ ↦ ?_
  refine Outcome.bind (bonusFromHelper_moves call w user (r.fromAmt + r.intoAmt) _ r.newRemaining
    k) ?_
  rintro ⟨w₁, userBonus⟩ hbonus
  refine Returns.seq fun basis _ ↦ ?_
  refine Outcome.bind (VeClaimNFT.exec_effect port (call.byFurnace w₁.furnace) w₁.base
    (.mergeLocksFor user fromTokenId intoTokenId)) ?_
  rintro base ⟨-, hmerged⟩
  have hlock : base.ve.self = w₁.base.ve.self :=
    hmerged.ve.keeps VeClaimNFT.VeState.self fun _ _ ↦ rfl
  have hkeep (b : ℕ → ℕ) (n : ℕ) :
      (World.mk { w₁.furnace with bonusBasis := b } base).account n = w₁.account n := by
    simp only [World.account, World.ve, World.claimBalance, hlock, hmerged.claim]
  refine Outcome.bind (deliverOrRefund_moves call _ userBonus k
    (addToLockDelegated_moves port call _ user intoTokenId userBonus k)) ?_
  rintro ⟨w₂, bonusClaim⟩ hdelivered
  rw [hkeep] at hdelivered
  refine Returns.guard fun _ ↦ ?_
  exact (hbonus.trans hdelivered).trans (sync_emit_moves call _ rfl)

theorem claimAutoMaxBonusCore_moves (tokenId lockAmount k : ℕ) :
    Returns (fun r ↦ Moves call.timestamp (w.account k) (r.1.account k))
      (claimAutoMaxBonusCore port call w tokenId lockAmount) := by
  unfold claimAutoMaxBonusCore
  apply Returns.ite
  · exact fun _ ↦ .refl
  intro _
  refine Returns.seq fun elapsed _ ↦ Returns.ite (fun _ ↦ .refl) fun _ ↦ ?_
  refine Returns.guard fun _ ↦ Returns.ite (fun _ ↦ .refl) fun _ ↦ Returns.guard fun _ ↦ ?_
  refine Returns.seq fun ⟨_, quoted⟩ _ ↦ Returns.ite (fun _ ↦ .refl) fun _ ↦ ?_
  refine Outcome.bind (applyBonusAmm_moves call w _ lockAmount _ MAX_LOCK_DURATION k) ?_
  rintro ⟨w₁, bonus⟩ hbonus
  apply Returns.ite
  · exact fun _ ↦ hbonus.trans (leave_moves w₁ call.timestamp k bonus.user)
  intro _
  refine Outcome.bind (deliverOrRefund_moves call w₁ bonus.user k
    (delegatecall_returns (addToLockDelegated_moves port call w₁ _ tokenId bonus.user k))) ?_
  rintro ⟨w₂, bonusClaim⟩ hdelivered
  exact hbonus.trans hdelivered

theorem claimAutoMaxBonus_moves (tokenId k : ℕ) :
    Returns (fun r ↦ Moves call.timestamp (w.account k) (r.1.account k))
      (claimAutoMaxBonus port call w tokenId) := by
  unfold claimAutoMaxBonus
  refine Returns.seq fun _ _ ↦ Returns.guard fun _ ↦ Returns.guard fun _ ↦ ?_
  refine Returns.guard fun _ ↦ Returns.guard fun _ ↦ ?_
  refine Outcome.bind (claimAutoMaxBonusCore_moves port call w tokenId _ k) ?_
  rintro ⟨w₁, bonusClaim⟩ hclaimed
  exact hclaimed.trans (syncFurnaceReserve_moves call w₁ k)

theorem claimAutoMaxBonusStep_moves (previous : Option ℕ) (tokenId totalBonus k : ℕ) :
    Returns (fun r ↦ Moves call.timestamp (w.account k) (r.1.account k))
      (claimAutoMaxBonusStep port call w previous tokenId totalBonus) := by
  unfold claimAutoMaxBonusStep
  refine Returns.ite (fun _ ↦ .refl) fun _ ↦ Returns.ite (fun _ ↦ .refl) fun _ ↦ ?_
  refine Outcome.bind (claimAutoMaxBonusCore_moves port call w tokenId _ k) ?_
  rintro ⟨w₁, bonusClaim⟩ hclaimed
  exact Returns.seq fun _ _ ↦ hclaimed

theorem claimAutoMaxBonusLoop_moves (tokenIds : List ℕ) (k : ℕ) (w : World S)
    (previous : Option ℕ) (totalBonus : ℕ) :
    Returns (fun r ↦ Moves call.timestamp (w.account k) (r.1.account k))
      (claimAutoMaxBonusLoop port call w previous tokenIds totalBonus) := by
  induction tokenIds generalizing w previous totalBonus with
  | nil => exact .refl
  | cons tokenId tokenIds ih =>
      unfold claimAutoMaxBonusLoop
      refine Outcome.bind (claimAutoMaxBonusStep_moves port call w previous tokenId totalBonus k) ?_
      rintro ⟨w₁, total⟩ hstep
      exact (ih w₁ (some tokenId) total).weaken fun r h ↦ hstep.trans h

theorem claimAutoMaxBonusBatch_moves (tokenIds : List ℕ) (maxLocks k : ℕ) :
    Returns (fun r ↦ Moves call.timestamp (w.account k) (r.1.account k))
      (claimAutoMaxBonusBatch port call w tokenIds maxLocks) := by
  unfold claimAutoMaxBonusBatch
  refine Returns.seq fun _ _ ↦ ?_
  refine Outcome.bind (claimAutoMaxBonusLoop_moves port call _ k w none 0) ?_
  rintro ⟨w₁, total⟩ hloop
  exact hloop.trans (syncFurnaceReserve_moves call w₁ k)

/-! ## Sales -/

/-- The figures of a sale add up to the lock. -/
theorem normalizeSellExecutionQuote_spec (lockAmount lockEnd : ℕ) (autoMax : Bool)
    (minClaimOut reserveNow : ℕ) :
    Returns (fun r ↦ r.1.claimOut + r.1.lpReward + r.1.reserveAdd = lockAmount)
      (normalizeSellExecutionQuote call w lockAmount lockEnd autoMax minClaimOut reserveNow) := by
  unfold normalizeSellExecutionQuote
  refine Returns.seq fun raw _ ↦ Returns.guard fun _ ↦ Returns.guard fun _ ↦ ?_
  refine Returns.guard fun hclaim ↦ Returns.seq fun sum hsum ↦ Returns.guard fun hle ↦ ?_
  obtain ⟨-, rfl⟩ := uint256_eq_ok.mp hsum
  refine Returns.guard fun _ ↦ Returns.seq fun rest hrest ↦ Returns.seq fun capRemaining _ ↦ ?_
  obtain ⟨hcut, hrest⟩ := usub_eq_ok.mp hrest
  simp only [Outcome.pure_iff]
  omega

/-- A sale counts its volume and its LP reward. -/
theorem trackLpSaleRewardFunding_changes (f : FurnaceState) (amount : ℕ) :
    Returns (fun f' ↦ ∃ day funded, f' = { f with
        lpSaleFundedDay := day
        lpSaleFundedToday := funded }) (trackLpSaleRewardFunding call f amount) := by
  unfold trackLpSaleRewardFunding
  apply Returns.ite
  · exact fun _ ↦ ⟨_, _, rfl⟩
  intro _
  refine Returns.seq fun funded _ ↦ ?_
  split
  · exact ⟨_, _, rfl⟩
  · exact ⟨_, _, rfl⟩

/-- The LP reward goes into the stream and the payout to the seller. -/
theorem payout_synced (f : FurnaceState) (base : VeClaimNFT.World S) (seller : Address)
    (k claimOut lpReward : ℕ)
    (hsettled : ((World.mk f base).account k).Settled call.timestamp) :
    Returns (fun w' ↦ ∃ stream events ghost claim, claim.totalSupply = base.claim.totalSupply ∧
        let pre := World.mk { f with stream := stream, events := events, ghost := ghost }
          { base with claim := claim }
        Moves call.timestamp ((World.mk f base).account (k + claimOut + lpReward))
          (pre.account k) ∧ w' = syncFurnaceReserve call pre)
      (do let f ← if lpReward ≠ 0 then fundLpStreamInternal call f lpReward else pure f
          let claim ← base.claim.transfer f.self seller claimOut
          return syncFurnaceReserve call
            { furnace := f, base := { base with claim := claim } }) := by
  have hrest (stream : LinearStream) (events : List Event) (ghost : Ghost)
      (hfund : Moves call.timestamp ((World.mk f base).account (k + claimOut + lpReward))
        ((World.mk { f with stream := stream, events := events, ghost := ghost } base).account
          (k + claimOut))) :
      Returns (fun w' ↦ ∃ stream events ghost claim, claim.totalSupply = base.claim.totalSupply ∧
          let pre := World.mk { f with stream := stream, events := events, ghost := ghost }
            { base with claim := claim }
          Moves call.timestamp ((World.mk f base).account (k + claimOut + lpReward))
            (pre.account k) ∧ w' = syncFurnaceReserve call pre)
        (do let claim ← base.claim.transfer f.self seller claimOut
            return syncFurnaceReserve call
              { furnace := { f with stream := stream, events := events, ghost := ghost }
                base := { base with claim := claim } }) := by
    refine Returns.seq fun claim htransfer ↦ ?_
    have hmoved := ClaimToken.transfer_eq_ok htransfer
    have hpay : Move call.timestamp
        ((World.mk { f with stream := stream, events := events, ghost := ghost } base).account
          (k + claimOut))
        { (World.mk { f with stream := stream, events := events, ghost := ghost } base).account
            (k + claimOut) with
          inHand := k + claimOut - claimOut
          balance := claim.balanceOf f.self } :=
      .pay (Nat.le_add_left _ _) hmoved.balance_src
    rw [Nat.add_sub_cancel] at hpay
    exact ⟨stream, events, ghost, claim, hmoved.totalSupply, hfund.tail hpay, rfl⟩
  dsimp only
  apply Returns.ite
  · intro _
    refine Outcome.bind ((fundLpStream_moves call f base (k + claimOut) lpReward hsettled).and
      (fundLpStreamInternal_rest call f lpReward)) ?_
    rintro f' ⟨⟨hfund, -⟩, stream, events, ghost, rfl⟩
    exact hrest stream events ghost hfund
  · intro hnone
    rw [not_not.mp hnone] at hrest ⊢
    exact hrest f.stream f.events f.ghost .refl

/-- A sale up to the synchronisation: the lock is burned, its amount comes in, and
what is not paid out goes to the reserve and into the stream. -/
theorem settleSale_synced (seller : Address) (tokenId lockAmount : ℕ) (q : SellExecutionData)
    (cut k : ℕ) (hsum : q.claimOut + q.lpReward + q.reserveAdd = lockAmount)
    (hlocked : (w.ve.locks tokenId).amount = lockAmount) (hself : w.furnace.self ≠ w.ve.self)
    (hsettled : (w.account k).Settled call.timestamp) :
    Returns (fun w' ↦ ∃ pre, Moves call.timestamp (w.account k) (pre.account k) ∧
        (∃ day funded claimed basis stream events ghost, pre.furnace = { w.furnace with
          sellImpactVolume := decayedSellImpactVolume call w.furnace.sellImpactVolume
            w.furnace.lastSellImpactUpdate + lockAmount
          lastSellImpactUpdate := call.timestamp
          lpSaleFundedDay := day
          lpSaleFundedToday := funded
          furnaceReserve := w.furnace.furnaceReserve + q.reserveAdd
          lastAutoMaxBonusClaim := claimed
          bonusBasis := basis
          stream := stream
          events := events
          ghost := ghost }) ∧
        pre.claim.totalSupply = w.claim.totalSupply ∧
        pre.ve.totalLockedClaim = w.ve.totalLockedClaim - lockAmount ∧
        w' = syncFurnaceReserve call pre)
      (settleSale port call w seller tokenId lockAmount q cut) := by
  unfold settleSale
  refine Returns.seq fun f₁ hvolume ↦ ?_
  obtain ⟨volume, hbound, hvolume⟩ := bind_eq_ok_iff.mp hvolume
  obtain ⟨-, rfl⟩ := uint256_eq_ok.mp hbound
  obtain rfl := Except.ok.inj hvolume
  refine Outcome.bind (trackLpSaleRewardFunding_changes call _ q.lpReward) ?_
  rintro f₂ ⟨day, funded, rfl⟩
  refine Outcome.bind (VeClaimNFT.exec_effect port _ w.base
    (.furnaceBurnAndWithdraw tokenId w.furnace.self)) ?_
  rintro base ⟨-, -, hout⟩
  have hlock : base.ve.self = w.base.ve.self := hout.ve.keeps VeClaimNFT.VeState.self fun _ _ ↦ rfl
  have htotal : base.ve.totalLockedClaim = w.ve.totalLockedClaim - (w.ve.locks tokenId).amount :=
    hout.ve.keeps VeClaimNFT.VeState.totalLockedClaim fun _ _ ↦ rfl
  have hmoved := ClaimToken.transfer_eq_ok hout.claim
  have hreceive := receive_moves w base call.timestamp k lockAmount hlock
    (by rw [← hlocked]; exact (hmoved.balance_dst hself.symm).ge)
  have hgive : Move call.timestamp ((World.mk w.furnace base).account (k + lockAmount))
      { (World.mk w.furnace base).account (k + lockAmount) with
        reserve := w.furnace.furnaceReserve + q.reserveAdd
        inHand := k + lockAmount - q.reserveAdd } :=
    .give (show q.reserveAdd ≤ k + lockAmount by omega)
  have hhand : k + lockAmount - q.reserveAdd = k + q.claimOut + q.lpReward := by omega
  rw [hhand] at hgive
  refine Returns.seq fun reserve hreserve ↦ ?_
  obtain ⟨-, rfl⟩ := uint256_eq_ok.mp hreserve
  refine (payout_synced call _ base seller k q.claimOut q.lpReward ?_).weaken ?_
  · exact hsettled
  · rintro w' ⟨stream, events, ghost, claim, hsupply, hmoves, rfl⟩
    refine ⟨_, (hreceive.tail hgive).trans hmoves, ⟨_, _, _, _, _, _, _, rfl⟩,
      hsupply.trans hmoved.totalSupply, ?_, rfl⟩
    rw [← hlocked]
    exact htotal

theorem sellLockToFurnaceFromMarket_moves (seller : Address) (tokenId minClaimOut k : ℕ)
    (hself : w.furnace.self ≠ w.ve.self) :
    Returns (fun r ↦ Moves call.timestamp (w.account k) (r.1.account k))
      (sellLockToFurnaceFromMarket port call w seller tokenId minClaimOut) := by
  unfold sellLockToFurnaceFromMarket
  refine Returns.seq fun _ _ ↦ Returns.seq fun _ _ ↦ Returns.guard fun _ ↦ Returns.guard fun _ ↦ ?_
  refine Outcome.bind (accrueLpOverflowDrip_moves call w k) ?_
  rintro ⟨w₁, streamed⟩ ⟨haccrue, hsettled⟩
  refine Returns.guard fun _ ↦ Returns.guard fun _ ↦ Returns.guard fun _ ↦ ?_
  refine Returns.guard fun _ ↦ Returns.guard fun _ ↦ Returns.guard fun _ ↦ ?_
  refine Returns.seq fun ⟨q, cut⟩ hq ↦ ?_
  have hsum := (normalizeSellExecutionQuote_spec call _ _ _ _ _ _).of_ok hq
  have hself₁ : w₁.furnace.self ≠ w₁.ve.self := by
    obtain ⟨hfurnace, hlock, -⟩ := Moves.fixed haccrue
    exact fun heq ↦ hself (hfurnace.symm.trans (heq.trans hlock))
  refine Outcome.bind (settleSale_synced port call _ seller tokenId _ q cut k hsum rfl hself₁
    hsettled) ?_
  rintro w' ⟨pre, hmoves, -, -, -, rfl⟩
  exact (haccrue.trans hmoves).trans (syncFurnaceReserve_moves call pre k)

/-! ## Administration -/

/-- The carry of a stream without a schedule is paid or stays. -/
theorem settleMaturedLpCarry_cases (k : ℕ) :
    (settleMaturedLpCarry call w w.furnace.lpRewardsVault).account k = w.account k ∨
      w.furnace.lpRewardsVault ≠ 0 ∧ w.furnace.stream.rate = 0 ∧ ∃ balance,
        w.claimBalance ≤ balance + w.furnace.stream.carry ∧
        (settleMaturedLpCarry call w w.furnace.lpRewardsVault).account k =
          (w.account k).settled balance := by
  unfold settleMaturedLpCarry
  dsimp only
  split
  · exact .inl rfl
  next hcarry =>
    split
    · exact .inl rfl
    next hschedule =>
      obtain ⟨hvault, -⟩ := not_or.mp hcarry
      obtain ⟨hrate, -⟩ := not_or.mp hschedule
      split
      · next claim htransfer =>
          obtain ⟨events, hevents⟩ := notify_eq call { w.furnace with
            stream := { w.furnace.stream with carry := 0 }
            ghost := { w.furnace.ghost with
              streamed := w.furnace.ghost.streamed + w.furnace.stream.carry } }
            w.furnace.lpRewardsVault w.furnace.stream.carry
          rw [hevents]
          exact .inr ⟨hvault, not_not.mp hrate, claim.balanceOf w.furnace.self,
            (ClaimToken.transfer_eq_ok htransfer).balance_src, rfl⟩
      · exact .inl rfl

/-- The liability of the vault includes the stream. -/
theorem stream_liability_le {f : FurnaceState} {liability : ℕ} (hvault : f.lpRewardsVault ≠ 0)
    (h : lpRewardsVaultLiability call f = .ok liability) : f.stream.liability ≤ liability := by
  unfold lpRewardsVaultLiability at h
  rw [if_neg hvault] at h
  split at h
  · exact (Except.ok.inj h).le
  · obtain ⟨p, -, h⟩ := bind_eq_ok_iff.mp h
    exact Except.ok.inj h ▸ Nat.le_add_right _ _

/-- The part of `setLpRewardsVault` after the checks. -/
theorem rewire_moves (vault : Address) :
    Returns (fun w' ↦ ∃ a, Moves call.timestamp (w.account 0) a ∧
        Rewire call.timestamp True False a (w'.account 0))
      (if w.furnace.lpRewardsVault ≠ vault then do
        let (w₁, _) ← accrueLpOverflowDrip call w
        let w₁ := settleMaturedLpCarry call w₁ w.furnace.lpRewardsVault
        let liability ← lpRewardsVaultLiability call w₁.furnace
        revertIf (liability ≠ 0) .LpRewardsStreamActive
        let f := { w₁.furnace with
          lastLpOverflowDripUpdate := call.timestamp
          lpRewardsVault := vault }
        return { w₁ with furnace := f.emit (.LpRewardsVaultSet w.furnace.lpRewardsVault vault) }
      else return w.emit (.LpRewardsVaultSet w.furnace.lpRewardsVault vault)) := by
  apply Returns.ite
  · intro _
    refine Outcome.bind (accrueLpOverflowDrip_moves call w 0) ?_
    rintro ⟨w₁, streamed⟩ ⟨haccrue, -⟩
    have hvault : w₁.furnace.lpRewardsVault = w.furnace.lpRewardsVault := (Moves.fixed haccrue).2.2
    have hsettle := settleMaturedLpCarry_cases call w₁ 0
    rw [hvault] at hsettle
    refine Returns.seq fun liability hliability ↦ Returns.guard fun hzero ↦ ?_
    refine ⟨_, haccrue, ?_⟩
    change Rewire call.timestamp True False (w₁.account 0)
      { (settleMaturedLpCarry call w₁ w.furnace.lpRewardsVault).account 0 with vault := vault }
    rcases hsettle with hkeep | ⟨hold, hrate, balance, hpaid, hsettled⟩
    · have hstream : (settleMaturedLpCarry call w₁ w.furnace.lpRewardsVault).furnace.stream =
          w₁.furnace.stream := congrArg Account.stream hkeep
      have hsame : (settleMaturedLpCarry call w₁ w.furnace.lpRewardsVault).furnace.lpRewardsVault =
          w₁.furnace.lpRewardsVault := congrArg Account.vault hkeep
      rw [hkeep]
      refine .change trivial vault fun hold ↦ ?_
      have hle := stream_liability_le call (hsame ▸ hold) hliability
      rw [not_not.mp hzero, hstream] at hle
      exact Nat.le_zero.mp hle
    · rw [hsettled]
      exact .settle trivial vault (fun hnone ↦ hold (hvault.symm.trans hnone)) hrate hpaid
  · exact fun _ ↦ ⟨_, .refl, .keep⟩

/-- A change of the vault pays the old one first. -/
theorem setLpRewardsVault_moves (vault : Address) :
    Returns (fun w' ↦ ∃ a, Moves call.timestamp (w.account 0) a ∧
        Rewire call.timestamp True False a (w'.account 0)) (setLpRewardsVault call w vault) := by
  unfold setLpRewardsVault
  refine Returns.seq fun _ _ ↦ ?_
  dsimp only
  apply Returns.ite
  · intro _
    refine Returns.guard fun _ ↦ Returns.seq fun _ _ ↦ ?_
    exact rewire_moves call w vault
  · intro _
    exact rewire_moves call w vault

/-- The principal of a rescued lock passes the Furnace by. -/
theorem rescuePendingSellNFT_moves (tokenId k : ℕ) (hself : w.furnace.self ≠ w.ve.self) :
    Returns (fun w' ↦ Moves call.timestamp (w.account k) (w'.account k))
      (rescuePendingSellNFT port call w tokenId) := by
  unfold rescuePendingSellNFT
  refine Returns.seq fun _ _ ↦ Returns.guard fun _ ↦ Returns.guard fun _ ↦ ?_
  refine Outcome.bind (VeClaimNFT.exec_effect port _ w.base
    (.furnaceBurnAndWithdraw tokenId (w.furnace.pendingSellSeller tokenId))) ?_
  rintro base ⟨-, -, hout⟩
  have hlock : base.ve.self = w.base.ve.self := hout.ve.keeps VeClaimNFT.VeState.self fun _ _ ↦ rfl
  have hkept := (ClaimToken.transfer_eq_ok hout.claim).balance_other hself
  exact receive_moves w base call.timestamp k 0 hlock hkept

/-- A requested rewire empties the stream. -/
theorem executeEmergencyVaultRewire_moves :
    Returns (fun w' ↦ Rewire call.timestamp False True (w.account 0) (w'.account 0))
      (executeEmergencyVaultRewire call w) := by
  unfold executeEmergencyVaultRewire
  refine Returns.seq fun _ _ ↦ Returns.guard fun _ ↦ Returns.guard fun _ ↦ Returns.guard fun _ ↦ ?_
  refine Returns.guard fun _ ↦ Returns.seq fun _ _ ↦ Returns.seq fun _ _ ↦ ?_
  exact .reset trivial w.furnace.emergencyVaultRewireTargetVault

end ClaimRush.Furnace
