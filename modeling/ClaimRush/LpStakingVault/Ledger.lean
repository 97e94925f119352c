import ClaimRush.LpStakingVault.System
import ClaimRush.Lib.FiniteTotal
import Mathlib.Logic.Relation

/-!
# The reward ledger

Every call is a sequence of a few effects on the reward ledger.  The debt totals
and the accounted balance stay in step through each of them, so no unchecked
subtraction wraps.
-/

open Function Relation

namespace ClaimRush.LpStakingVault

open Constants VeClaimNFT

/-- The event that a correct ledger never emits. -/
def NeverClamped (s : VaultState) : Prop :=
  ∀ amount accounted, .AccountedRewardBalanceClamped amount accounted ∉ s.events

theorem NeverClamped.of_events {s s' : VaultState} (hevents : s'.events = s.events)
    (h : NeverClamped s) : NeverClamped s' := by
  intro amount accounted
  rw [hevents]
  exact h amount accounted

/-- The storage of the reward ledger is the same. -/
structure SameLedger (s s' : VaultState) : Prop where
  claimBalance : s'.claimBalance = s.claimBalance
  totalStaked : s'.totalStaked = s.totalStaked
  stakedBalance : s'.stakedBalance = s.stakedBalance
  rewardPerToken : s'.rewardPerTokenStored = s.rewardPerTokenStored
  paid : s'.userRewardPerTokenPaid = s.userRewardPerTokenPaid
  rewards : s'.rewards = s.rewards
  accounted : s'.accountedRewardBalance = s.accountedRewardBalance
  queued : s'.queuedRewards = s.queuedRewards
  indexed : s'.indexedClaimOwed = s.indexedClaimOwed
  credited : s'.totalRewardsCredited = s.totalRewardsCredited
  ghost : s'.ghost = s.ghost
  clamped : NeverClamped s → NeverClamped s'

theorem SameLedger.refl (s : VaultState) : SameLedger s s :=
  ⟨rfl, rfl, rfl, rfl, rfl, rfl, rfl, rfl, rfl, rfl, rfl, id⟩

theorem SameLedger.trans {s s' s'' : VaultState} (h : SameLedger s s') (h' : SameLedger s' s'') :
    SameLedger s s'' where
  claimBalance := h'.claimBalance.trans h.claimBalance
  totalStaked := h'.totalStaked.trans h.totalStaked
  stakedBalance := h'.stakedBalance.trans h.stakedBalance
  rewardPerToken := h'.rewardPerToken.trans h.rewardPerToken
  paid := h'.paid.trans h.paid
  rewards := h'.rewards.trans h.rewards
  accounted := h'.accounted.trans h.accounted
  queued := h'.queued.trans h.queued
  indexed := h'.indexed.trans h.indexed
  credited := h'.credited.trans h.credited
  ghost := h'.ghost.trans h.ghost
  clamped hs := h'.clamped (h.clamped hs)

/-- Any event but the clamp. -/
def IsQuiet : Event → Prop
  | .AccountedRewardBalanceClamped _ _ => False
  | _ => True

theorem NeverClamped.append {s : VaultState} (h : NeverClamped s) (es : List Event)
    (hes : ∀ e ∈ es, IsQuiet e) : NeverClamped { s with events := s.events ++ es } := by
  intro amount accounted hmem
  rcases List.mem_append.mp hmem with hmem | hmem
  · exact h amount accounted hmem
  · exact hes _ hmem

theorem SameLedger.emit {s s' : VaultState} (h : SameLedger s s') {e : Event} (he : IsQuiet e) :
    SameLedger s (s'.emit e) where
  claimBalance := h.claimBalance
  totalStaked := h.totalStaked
  stakedBalance := h.stakedBalance
  rewardPerToken := h.rewardPerToken
  paid := h.paid
  rewards := h.rewards
  accounted := h.accounted
  queued := h.queued
  indexed := h.indexed
  credited := h.credited
  ghost := h.ghost
  clamped hs := (h.clamped hs).append [e] fun _ he' ↦ List.mem_singleton.mp he' ▸ he

/-- Counters, configuration and unbonding entries are not part of the ledger. -/
theorem sameLedger_config (s : VaultState) {fromFurnace fromVaultFees claimed locked lastHarvest
    minHarvest minCompound : ℕ} {cfg : Address → AutoCompoundConfig} {keeper : Address → Bool}
    {unbonds : Address → List Unbond} {nextId lastCompound lastLock : Address → ℕ} :
    SameLedger s
      { s with
        totalClaimRewardsFundedFromFurnace := fromFurnace
        totalClaimRewardsFundedFromVaultFees := fromVaultFees
        totalClaimRewardsClaimed := claimed
        totalClaimRewardsLockedViaFurnace := locked
        lastFeeHarvestTs := lastHarvest
        minHarvestClaimFloor := minHarvest
        autoCompound := cfg
        minCompoundReward := minCompound
        isHarvestKeeper := keeper
        unbonds := unbonds
        nextUnbondId := nextId
        lastCompoundTs := lastCompound
        lastUserLockTs := lastLock } :=
  ⟨rfl, rfl, rfl, rfl, rfl, rfl, rfl, rfl, rfl, rfl, rfl, id⟩

/-! ## Effects -/

namespace VaultState

variable (s : VaultState)

/-- The balance delta is recognised and waits. -/
def notice : VaultState :=
  { s with
    accountedRewardBalance := s.claimBalance
    queuedRewards := s.queuedRewards + (s.claimBalance - s.accountedRewardBalance) }

/-- One index update by `increment`, which moves `amount` out of the queue. -/
def indexBy (increment amount : ℕ) : VaultState :=
  { s with
    rewardPerTokenStored := s.rewardPerTokenStored + increment
    indexedClaimOwed := s.indexedClaimOwed + amount
    queuedRewards := s.queuedRewards - amount
    ghost := { s.ghost with
      indexUpdates := s.ghost.indexUpdates + 1
      indexed := s.ghost.indexed + amount
      allotted := fun u ↦ s.ghost.allotted u + s.stakedBalance u * increment } }

/-- The user is settled with `accrued` more rewards. -/
def credit (user : Address) (accrued : ℕ) : VaultState :=
  { s with
    totalRewardsCredited := s.totalRewardsCredited + accrued
    rewards := update s.rewards user (s.rewards user + accrued)
    userRewardPerTokenPaid := update s.userRewardPerTokenPaid user s.rewardPerTokenStored
    ghost := { s.ghost with
      credited := update s.ghost.credited user (s.ghost.credited user + accrued) } }

/-- The accrual that an update credits. -/
def accrual (user : Address) : ℕ :=
  min (s.unclampedAccrual user) (s.indexedClaimOwed - s.totalRewardsCredited)

/-- The stake of the user becomes `staked`. -/
def restake (user : Address) (staked total : ℕ) : VaultState :=
  { s with
    stakedBalance := update s.stakedBalance user staked
    totalStaked := total }

/-- The rewards of the user are paid. -/
def payOut (user : Address) : VaultState :=
  { s with
    rewards := update s.rewards user 0
    totalRewardsCredited := s.totalRewardsCredited - s.rewards user
    indexedClaimOwed := s.indexedClaimOwed - s.rewards user
    accountedRewardBalance := s.accountedRewardBalance - s.rewards user
    claimBalance := s.claimBalance - s.rewards user }

end VaultState

inductive Effect : VaultState → VaultState → Prop
  | keep {s s' : VaultState} (h : SameLedger s s') : Effect s s'
  | receive {s s' : VaultState} (amount : ℕ) (h : s.receiveClaim amount = .ok s') : Effect s s'
  | notice {s : VaultState} : Effect s s.notice
  | index {s : VaultState} (increment amount : ℕ) (hstaked : 0 < s.totalStaked)
      (hincrement : increment = s.queuedRewards * ACC / s.totalStaked)
      (hamount : amount = increment * s.totalStaked / ACC) : Effect s (s.indexBy increment amount)
  | credit {s : VaultState} (user : Address) : Effect s (s.credit user (s.accrual user))
  | restake {s : VaultState} (user : Address) (staked total : ℕ)
      (hsettled : s.userRewardPerTokenPaid user = s.rewardPerTokenStored)
      (htotal : total + s.stakedBalance user = s.totalStaked + staked) :
      Effect s (s.restake user staked total)
  | payOut {s : VaultState} (user : Address) : Effect s (s.payOut user)

/-- A sequence of effects. -/
abbrev Effects : VaultState → VaultState → Prop := ReflTransGen Effect

theorem Effects.invariant {I : VaultState → Prop} (hstep : ∀ s s', Effect s s' → I s → I s')
    {s s' : VaultState} (h : Effects s s') (hs : I s) : I s' := by
  induction h with
  | refl => exact hs
  | tail _ heffect ih => exact hstep _ _ heffect ih

/-! ## The ledger in step -/

/-- The debt totals and the accounted balance agree with what is stored and held. -/
structure Backed (s : VaultState) : Prop where
  finite : FiniteEntries s.rewards
  credited : total s.rewards = s.totalRewardsCredited
  covered : s.totalRewardsCredited ≤ s.indexedClaimOwed
  accounted : s.accountedRewardBalance =
    s.ghost.constructionBalance + s.indexedClaimOwed + s.queuedRewards
  held : s.accountedRewardBalance ≤ s.claimBalance
  bounded : s.claimBalance < uint256Bound
  clamped : NeverClamped s

namespace Backed

variable {s s' : VaultState}

theorem rewards_le (h : Backed s) (user : Address) : s.rewards user ≤ s.totalRewardsCredited := by
  rw [← h.credited]
  have hsplit := total_update h.finite user 0
  omega

theorem congr (h : Backed s) (hsame : SameLedger s s') : Backed s' where
  finite := hsame.rewards ▸ h.finite
  credited := by rw [hsame.rewards, hsame.credited, h.credited]
  covered := by rw [hsame.credited, hsame.indexed]; exact h.covered
  accounted := by rw [hsame.accounted, hsame.ghost, hsame.indexed, hsame.queued, h.accounted]
  held := by rw [hsame.accounted, hsame.claimBalance]; exact h.held
  bounded := by rw [hsame.claimBalance]; exact h.bounded
  clamped := hsame.clamped h.clamped

/-- The amount an index update moves is part of the queue. -/
theorem index_amount_le {queued increment staked : ℕ}
    (hincrement : increment = queued * ACC / staked) : increment * staked / ACC ≤ queued := by
  refine Nat.div_le_of_le_mul ?_
  rw [hincrement, Nat.mul_comm ACC]
  exact Nat.div_mul_le_self _ _

theorem effect (h : Backed s) (heffect : Effect s s') : Backed s' := by
  have haccounted := h.accounted
  have hheld := h.held
  have hcovered := h.covered
  cases heffect with
  | keep hsame => exact h.congr hsame
  | receive amount hr =>
      obtain ⟨balance, hbalance, hr⟩ := bind_eq_ok_iff.mp hr
      obtain rfl := Except.ok.inj hr
      obtain ⟨hbound, rfl⟩ := uint256_eq_ok.mp hbalance
      exact ⟨h.finite, h.credited, h.covered, h.accounted, h.held.trans (Nat.le_add_right _ _),
        hbound, h.clamped⟩
  | notice =>
      refine ⟨h.finite, h.credited, h.covered, ?_, le_rfl, h.bounded, h.clamped⟩
      simp only [VaultState.notice]
      omega
  | index increment amount hstaked hincrement hamount =>
      have hle : amount ≤ s.queuedRewards := hamount ▸ index_amount_le hincrement
      refine ⟨h.finite, h.credited, h.covered.trans (Nat.le_add_right _ _), ?_, h.held, h.bounded,
        h.clamped⟩
      simp only [VaultState.indexBy]
      omega
  | credit user =>
      have hclamped : s.accrual user ≤ s.indexedClaimOwed - s.totalRewardsCredited :=
        min_le_right _ _
      have htotal := total_update h.finite user (s.rewards user + s.accrual user)
      have hcredited := h.credited
      refine ⟨h.finite.update _ _, ?_, ?_, h.accounted, h.held, h.bounded, h.clamped⟩
      · simp only [VaultState.credit]
        omega
      · simp only [VaultState.credit]
        omega
  | restake user staked total hsettled htotal =>
      exact ⟨h.finite, h.credited, h.covered, h.accounted, h.held, h.bounded, h.clamped⟩
  | payOut user =>
      have hle := h.rewards_le user
      have htotal := total_update h.finite user 0
      have hcredited := h.credited
      refine ⟨h.finite.update _ _, ?_, ?_, ?_, ?_, (Nat.sub_le _ _).trans_lt h.bounded, h.clamped⟩
      all_goals
        simp only [VaultState.payOut]
        omega

theorem effects (h : Backed s) (heffects : Effects s s') : Backed s' :=
  heffects.invariant (fun _ _ heffect hs ↦ Backed.effect hs heffect) h

end Backed

theorem initial_backed {self owner claim ve furnace : Address} {balance : ℕ}
    (h : balance < uint256Bound) : Backed (initial self owner claim ve furnace balance) := by
  refine ⟨finiteEntries_zero, total_zero, le_rfl, rfl, le_rfl, h, ?_⟩
  intro amount accounted hmem
  cases hmem

end ClaimRush.LpStakingVault
