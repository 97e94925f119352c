import ClaimRush.LpStakingVault.Custody
import ClaimRush.LpStakingVault.ProRata

/-!
# The bound of the index

No dust stays staked, so an update of the index moves at least half of what the
increment promises, and the increments are charged to CLAIM that was received.
-/

open Function Relation

namespace ClaimRush.LpStakingVault

open Constants VeClaimNFT VaultState

variable {s : VaultState} {r : ℕ}

/-- The index, charged to the CLAIM that its updates have moved. -/
def Charged (s : VaultState) : Prop :=
  s.rewardPerTokenStored * MIN_UNBOND_AMOUNT ≤ 2 * ACC * s.ghost.indexed

/-- Nothing is staked, or more than dust. -/
def Dustless (staked : ℕ) : Prop := staked = 0 ∨ MIN_UNBOND_AMOUNT ≤ staked

/-- The index overflows only when `r` CLAIM suffices for it. -/
def Overflowing (r : ℕ) (e : Error) : Prop := e = .RewardIndexOverflow → 2 ^ 128 ≤ 2000 * r

theorem Overflowing.other {e : Error} (h : e ≠ .RewardIndexOverflow) : Overflowing r e :=
  fun heq ↦ absurd heq h

theorem Overflowing.arithmetic : Overflowing r HasPanic.arithmetic := .other (by decide)

/-! ## One update -/

theorem ACC_eq : ACC = 1000 * MIN_UNBOND_AMOUNT := by
  simp [ACC, MIN_UNBOND_AMOUNT]

theorem MIN_UNBOND_AMOUNT_pos : 0 < MIN_UNBOND_AMOUNT := by
  simp [MIN_UNBOND_AMOUNT]

/-- An increment is charged to what it moves, which is not nothing. -/
theorem increment_charged {increment staked : ℕ} (hstaked : MIN_UNBOND_AMOUNT ≤ staked)
    (hmoved : increment * staked / ACC ≠ 0) :
    increment * MIN_UNBOND_AMOUNT ≤ 2 * ACC * (increment * staked / ACC) := by
  have hlt : increment * staked < (increment * staked / ACC + 1) * ACC := by
    rw [Nat.mul_comm (_ + 1)]
    exact Nat.lt_mul_div_succ _ ACC_pos
  generalize increment * staked / ACC = moved at hmoved hlt ⊢
  calc increment * MIN_UNBOND_AMOUNT ≤ increment * staked := Nat.mul_le_mul_left _ hstaked
    _ ≤ (moved + 1) * ACC := hlt.le
    _ ≤ 2 * moved * ACC := Nat.mul_le_mul_right _ (by omega)
    _ = 2 * ACC * moved := by ring

theorem overflow_charged {rewardPerToken indexed : ℕ}
    (h : rewardPerToken * MIN_UNBOND_AMOUNT ≤ 2 * ACC * indexed) (hr : indexed ≤ r)
    (hover : 2 ^ 128 ≤ rewardPerToken) : 2 ^ 128 ≤ 2000 * r := by
  refine Nat.le_of_mul_le_mul_right ?_ MIN_UNBOND_AMOUNT_pos
  calc 2 ^ 128 * MIN_UNBOND_AMOUNT ≤ rewardPerToken * MIN_UNBOND_AMOUNT :=
        Nat.mul_le_mul_right _ hover
    _ ≤ 2 * ACC * indexed := h
    _ ≤ 2 * ACC * r := Nat.mul_le_mul_left _ hr
    _ = 2000 * r * MIN_UNBOND_AMOUNT := by rw [ACC_eq]; ring

theorem queue_charged {amount : ℕ} (h : Charged s) :
    Outcome Charged (Overflowing r) (s.queue amount) :=
  Outcome.uint256_bind .arithmetic fun _ ↦ h

theorem index_charged {amount : ℕ} (hstaked : Dustless s.totalStaked) (h : Charged s)
    (hr : s.ghost.indexed + amount ≤ r) :
    Outcome Charged (Overflowing r) (s.indexRewardsWithCarry amount) := by
  unfold VaultState.indexRewardsWithCarry
  refine (Outcome.ite_iff _ _ _).mpr ⟨fun _ ↦ h, fun _ ↦ ?_⟩
  refine (Outcome.ite_iff _ _ _).mpr ⟨fun _ ↦ queue_charged h, fun hnone ↦ ?_⟩
  have hdust := hstaked.resolve_left hnone
  rw [Outcome.bind_iff, outcome_mulDiv hnone]
  refine ⟨fun _ ↦ ?_, fun _ ↦ .arithmetic⟩
  refine (Outcome.ite_iff _ _ _).mpr ⟨fun _ ↦ queue_charged h, fun _ ↦ ?_⟩
  have hle := Backed.index_amount_le
    (rfl : amount * ACC / s.totalStaked = amount * ACC / s.totalStaked)
  generalize amount * ACC / s.totalStaked = increment at hle ⊢
  rw [Outcome.bind_iff, outcome_mulDiv ACC_pos.ne']
  refine ⟨fun _ ↦ ?_, fun _ ↦ .arithmetic⟩
  refine (Outcome.ite_iff _ _ _).mpr ⟨fun _ ↦ queue_charged h, fun hmoved ↦ ?_⟩
  have hcharged := increment_charged hdust hmoved
  generalize increment * s.totalStaked / ACC = moved at hle hmoved hcharged ⊢
  have hindex : (s.rewardPerTokenStored + increment) * MIN_UNBOND_AMOUNT ≤
      2 * ACC * (s.ghost.indexed + moved) := by
    rw [Nat.add_mul, Nat.mul_add]
    exact Nat.add_le_add h hcharged
  refine Outcome.uint256_bind .arithmetic fun _ ↦ ?_
  refine Outcome.revertIf_bind (fun hover _ ↦ overflow_charged hindex (by omega) hover) fun _ ↦ ?_
  refine Outcome.uint256_bind .arithmetic fun _ ↦ Outcome.usub_bind .arithmetic fun _ ↦ ?_
  exact queue_charged hindex

/-! ## Checkpoints -/

/-- A state from which the index is bounded. -/
structure Sturdy (s : VaultState) : Prop where
  backed : Backed s
  proRata : ProRata s
  dustless : Dustless s.totalStaked
  charged : Charged s

theorem accountDelta_charged (delta : ℕ) (countAsFurnace countAsVaultFees : Bool)
    (h : Charged s) :
    Outcome (fun n ↦ Charged n ∧ SameLedger { s with accountedRewardBalance := s.claimBalance } n)
      (Overflowing r) (s.accountDelta delta countAsFurnace countAsVaultFees) := by
  unfold VaultState.accountDelta
  dsimp only
  split_ifs
  · exact Outcome.uint256_bind .arithmetic fun _ ↦ ⟨h, sameLedger_config _⟩
  · exact Outcome.uint256_bind .arithmetic fun _ ↦ ⟨h, sameLedger_config _⟩
  · exact ⟨h, .refl _⟩

theorem distribute_charged {delta : ℕ} (hstaked : Dustless s.totalStaked) (h : Charged s)
    (hr : s.ghost.indexed + (delta + s.queuedRewards) ≤ r) :
    Outcome Charged (Overflowing r) (s.distribute delta) := by
  unfold VaultState.distribute
  refine (Outcome.ite_iff _ _ _).mpr ⟨fun _ ↦ queue_charged h, fun _ ↦ ?_⟩
  exact Outcome.uint256_bind .arithmetic fun _ ↦ index_charged hstaked h hr

theorem checkpointRewards_charged (h : Sturdy s) (hr : s.ghost.received ≤ r)
    (countAsFurnace countAsVaultFees : Bool) :
    Outcome Charged (Overflowing r)
      (s.checkpointRewardsFromBalanceDelta countAsFurnace countAsVaultFees) := by
  have hreceived := h.proRata.received
  have hrest {n : VaultState} (hn : Charged n) (hstaked : Dustless n.totalStaked)
      (hr : n.ghost.indexed + (s.claimBalance - s.accountedRewardBalance + n.queuedRewards) ≤ r) :
      Outcome Charged (Overflowing r)
        (if s.claimBalance - s.accountedRewardBalance = 0 ∧ n.queuedRewards = 0 then pure n
        else do
          let n ← n.distribute (s.claimBalance - s.accountedRewardBalance)
          return if s.claimBalance - s.accountedRewardBalance > 0
            then n.emit (.LpRewardsNotified (s.claimBalance - s.accountedRewardBalance))
            else n) := by
    refine (Outcome.ite_iff _ _ _).mpr ⟨fun _ ↦ hn, fun _ ↦ ?_⟩
    refine Outcome.bind (distribute_charged hstaked hn hr) fun n' hn' ↦ ?_
    split_ifs
    · exact hn'
    · exact hn'
  unfold VaultState.checkpointRewardsFromBalanceDelta
  dsimp only
  by_cases hdelta : s.claimBalance - s.accountedRewardBalance ≠ 0
  · rw [if_pos hdelta]
    refine Outcome.bind (accountDelta_charged _ _ _ h.charged) fun n hn ↦ ?_
    refine hrest hn.1 (hn.2.totalStaked ▸ h.dustless) ?_
    have hindexed : n.ghost.indexed = s.ghost.indexed := congrArg Ghost.indexed hn.2.ghost
    have hqueued : n.queuedRewards = s.queuedRewards := hn.2.queued
    omega
  · rw [if_neg hdelta]
    exact hrest h.charged h.dustless (by omega)

theorem earned_quiet (s : VaultState) (user : Address) :
    Outcome (fun _ ↦ True) (Overflowing r) (s.earned user) := by
  unfold VaultState.earned
  refine (Outcome.ite_iff _ _ _).mpr ⟨fun _ ↦ ?_, fun _ ↦ trivial⟩
  rw [Outcome.bind_iff, outcome_mulDiv ACC_pos.ne']
  refine ⟨fun _ ↦ ?_, fun _ ↦ .arithmetic⟩
  exact (outcome_uint256 _).mpr ⟨fun _ ↦ trivial, fun _ ↦ .arithmetic⟩

theorem updateReward_charged (h : Charged s) (user : Address) :
    Outcome Charged (Overflowing r) (s.updateReward user) := by
  unfold VaultState.updateReward
  refine Outcome.bind (earned_quiet s user) fun reward _ ↦ ?_
  split_ifs
  · exact h
  · exact h

/-- The preamble of a call leaves a state to go on from. -/
theorem checkpoint_charged (h : Sturdy s) (hr : s.ghost.received ≤ r) (user : Address) :
    Outcome (fun n ↦ Sturdy n ∧ n.totalStaked = s.totalStaked ∧ n.stakedBalance = s.stakedBalance ∧
        n.ghost.received = s.ghost.received)
      (Overflowing r) (checkpoint s user) := by
  have hprepared := checkpoint_prepared h.backed user
  have hcharged : Outcome Charged (Overflowing r) (checkpoint s user) :=
    Outcome.bind (checkpointRewards_charged h hr false false) fun n hn ↦
      updateReward_charged hn user
  refine Outcome.mono (hcharged.and_returns hprepared) ?_ fun _ he ↦ he
  rintro n ⟨hn, hprepared⟩
  exact ⟨⟨hprepared.backed, h.proRata.effects h.backed hprepared.effects,
    hprepared.totalStaked ▸ h.dustless, hn⟩, hprepared.totalStaked, hprepared.stakedBalance,
    hprepared.received⟩

/-! ## Operations -/

theorem stake_charged (h : Sturdy s) (hr : s.ghost.received ≤ r) (call : Call) (amount : ℕ)
    (transferred : Bool) :
    Outcome Charged (Overflowing r) (stake call s amount transferred) := by
  unfold stake
  refine Outcome.revertIf_bind (fun _ ↦ .other (by decide)) fun _ ↦ ?_
  refine Outcome.revertIf_bind (fun _ ↦ .other (by decide)) fun hdust ↦ ?_
  refine Outcome.bind (checkpoint_charged h hr call.sender) ?_
  rintro n ⟨hn, -, -, hreceived⟩
  refine Outcome.revertIf_bind (fun _ ↦ .other (by decide)) fun _ ↦ ?_
  refine Outcome.uint256_bind .arithmetic fun _ ↦ Outcome.uint256_bind .arithmetic fun _ ↦ ?_
  have hbound := hn.proRata.received
  dsimp only
  split_ifs
  · refine Outcome.bind (index_charged (.inr ?_) hn.charged ?_) fun n' hn' ↦ hn'
    · change MIN_UNBOND_AMOUNT ≤ n.totalStaked + amount
      omega
    · change n.ghost.indexed + n.queuedRewards ≤ r
      omega
  · exact hn.charged

theorem beginUnbond_charged (h : Sturdy s) (hr : s.ghost.received ≤ r) (call : Call) (amount : ℕ) :
    Outcome Charged (Overflowing r) (beginUnbond call s amount) := by
  unfold beginUnbond
  dsimp only
  refine Outcome.revertIf_bind (fun _ ↦ .other (by decide)) fun _ ↦ ?_
  refine Outcome.revertIf_bind (fun _ ↦ .other (by decide)) fun _ ↦ ?_
  refine Outcome.revertIf_bind (fun _ ↦ .other (by decide)) fun _ ↦ ?_
  refine Outcome.revertIf_bind (fun _ ↦ .other (by decide)) fun _ ↦ ?_
  refine Outcome.bind (checkpoint_charged h hr call.sender) ?_
  rintro n ⟨hn, -⟩
  refine Outcome.usub_bind .arithmetic fun _ ↦ Outcome.usub_bind .arithmetic fun _ ↦ ?_
  refine Outcome.uint256_bind .arithmetic fun _ ↦ Outcome.uint256_bind .arithmetic fun _ ↦ ?_
  exact hn.charged

theorem withdrawLoop_charged (nowTs : ℕ) (user : Address) (fuel : ℕ) :
    ∀ (arr : List Unbond) (i totalOut : ℕ) (events : List Event),
      Outcome (fun _ ↦ True) (Overflowing r)
        (withdrawLoop nowTs user fuel arr i totalOut events) := by
  induction fuel with
  | zero => exact fun _ _ _ _ ↦ trivial
  | succ fuel ih =>
      intro arr i totalOut events
      unfold withdrawLoop
      dsimp only
      split_ifs
      · exact Outcome.uint256_bind .arithmetic fun _ ↦ ih _ _ _ _
      · exact Outcome.uint256_bind .arithmetic fun _ ↦ ih _ _ _ _
      · exact ih _ _ _ _
      · trivial

theorem withdrawMatured_charged (h : Charged s) (call : Call) (transferred : Bool) :
    Outcome Charged (Overflowing r) (withdrawMatured call s transferred) := by
  unfold withdrawMatured
  dsimp only
  refine Outcome.bind (withdrawLoop_charged _ _ _ _ _ _ _) fun rest _ ↦ ?_
  split_ifs
  · exact h
  · exact Outcome.revertIf_bind (fun _ ↦ .other (by decide)) fun _ ↦ h

theorem decreaseAccounted_charged (h : Charged s) (amount : ℕ) (e : Event) :
    Charged ((s.decreaseAccountedRewardBalance amount).emit e) := by
  unfold VaultState.decreaseAccountedRewardBalance
  split_ifs
  · exact h
  · exact h

theorem claimRewards_charged (h : Sturdy s) (hr : s.ghost.received ≤ r) (call : Call) :
    Outcome Charged (Overflowing r) (claimRewards call s) := by
  unfold claimRewards
  dsimp only
  refine Outcome.bind (checkpoint_charged h hr call.sender) ?_
  rintro n ⟨hn, -⟩
  refine (Outcome.ite_iff _ _ _).mpr ⟨fun _ ↦ hn.charged, fun _ ↦ ?_⟩
  refine Outcome.revertIf_bind (fun _ ↦ .other (by decide)) fun _ ↦ ?_
  refine Outcome.uint256_bind .arithmetic fun _ ↦ ?_
  refine (Outcome.pure_iff _).mpr ?_
  apply decreaseAccounted_charged
  exact hn.charged

/-- The Furnace may stream CLAIM, but it does not index it. -/
theorem furnaceEnter_charged {n : VaultState} {reward : ℕ} {entry : Option FurnaceEntry}
    (hn : furnaceEnter s reward entry = some n) (h : Charged s) :
    Charged n ∧ ∃ e, entry = some e ∧ n.ghost.received = s.ghost.received + e.streamed := by
  obtain ⟨e, rfl, -, -, rfl⟩ := furnaceEnter_eq_some hn
  exact ⟨h, e, rfl, rfl⟩

theorem claimRewardsAndLock_charged (h : Sturdy s) (hr : s.ghost.received ≤ r) (call : Call)
    (targetTokenId durationSeconds : ℕ) (createAutoMax : Bool) (minVeOut : ℕ)
    (quote : Option EnterQuote) (entry : Option FurnaceEntry) :
    Outcome Charged (Overflowing r)
      (claimRewardsAndLock call s targetTokenId durationSeconds createAutoMax minVeOut quote
        entry) := by
  unfold claimRewardsAndLock
  dsimp only
  refine Outcome.bind (checkpoint_charged h hr call.sender) ?_
  rintro n ⟨hn, -⟩
  refine (Outcome.ite_iff _ _ _).mpr ⟨fun _ ↦ hn.charged, fun _ ↦ ?_⟩
  refine Outcome.revertIf_bind (fun _ ↦ .other (by decide)) fun _ ↦ ?_
  refine Outcome.revertIf_bind (fun _ ↦ .other (by decide)) fun _ ↦ ?_
  refine Outcome.revertIf_bind (fun _ ↦ .other (by decide)) fun _ ↦ ?_
  refine Outcome.revertIf_bind (fun _ ↦ .other (by decide)) fun _ ↦ ?_
  refine Outcome.uint256_bind .arithmetic fun _ ↦ ?_
  refine Outcome.revertIf_bind (fun _ ↦ .other (by decide)) fun _ ↦ ?_
  have hexternal {α : Type} (x : Option α) :
      Outcome (fun a ↦ x = some a) (Overflowing r) (externalCall x) :=
    (outcome_externalCall x).mpr ⟨fun _ ↦ id, fun _ ↦ .other (by decide)⟩
  refine Outcome.bind (hexternal quote) fun q _ ↦ ?_
  refine Outcome.bind (hexternal entry) fun e _ ↦ ?_
  refine Outcome.bind (hexternal _) fun n' hn' ↦ ?_
  have hcharged : Charged n' := by
    refine (furnaceEnter_charged hn' ?_).1
    exact hn.charged
  refine Outcome.uint256_bind .arithmetic fun _ ↦ (Outcome.pure_iff _).mpr ?_
  apply decreaseAccounted_charged
  exact hcharged

/-- The CLAIM that a Furnace call streams to the vault. -/
def streamed (entry : Option FurnaceEntry) : ℕ := (entry.map FurnaceEntry.streamed).getD 0

theorem compoundReward_charged (h : Charged s) (nowTs : ℕ) (user : Address) (reward tokenId : ℕ)
    (q : EnterQuote) (entry : Option FurnaceEntry) :
    Outcome (fun n ↦ Charged n ∧ n.ghost.received ≤ s.ghost.received + streamed entry)
      (Overflowing r) (s.compoundReward nowTs user reward tokenId q entry) := by
  unfold VaultState.compoundReward
  dsimp only
  split
  · rename_i e n hentered
    obtain ⟨hn, e', he', hreceived⟩ := furnaceEnter_charged hentered h
    refine Outcome.uint256_bind .arithmetic fun _ ↦ (Outcome.pure_iff _).mpr ⟨?_, ?_⟩
    · unfold VaultState.decreaseAccountedRewardBalance
      split_ifs
      · exact hn
      · exact hn
    · obtain rfl := Option.some.inj he'
      unfold VaultState.decreaseAccountedRewardBalance
      split_ifs
      · exact hreceived.le
      · exact hreceived.le
  · exact ⟨h, Nat.le_add_right _ _⟩

theorem compoundEligibility_quiet (nowTs : ℕ) (user : Address) (replies : CompoundReplies) :
    Outcome (fun _ ↦ True) (Overflowing r) (s.compoundEligibility nowTs user replies) := by
  unfold VaultState.compoundEligibility
  dsimp only
  refine (Outcome.ite_iff _ _ _).mpr ⟨fun _ ↦ trivial, fun _ ↦ ?_⟩
  refine (Outcome.ite_iff _ _ _).mpr ⟨fun _ ↦ trivial, fun _ ↦ ?_⟩
  refine Outcome.uint256_bind .arithmetic fun _ ↦ ?_
  refine (Outcome.ite_iff _ _ _).mpr ⟨fun _ ↦ trivial, fun _ ↦ ?_⟩
  refine (Outcome.ite_iff _ _ _).mpr ⟨fun _ ↦ trivial, fun _ ↦ ?_⟩
  split
  · trivial
  · refine (Outcome.ite_iff _ _ _).mpr ⟨fun _ ↦ trivial, fun _ ↦ ?_⟩
    split
    · trivial
    · split_ifs <;> trivial

theorem compoundForInternal_charged (h : Sturdy s) (hr : s.ghost.received ≤ r) (call : Call)
    (user : Address) (replies : CompoundReplies) :
    Outcome
      (fun n ↦ Charged n ∧ n.ghost.received ≤ s.ghost.received + streamed replies.enter)
      (Overflowing r) (compoundForInternal call s user replies) := by
  unfold compoundForInternal
  refine Outcome.bind (compoundEligibility_quiet _ _ _) fun eligibility _ ↦ ?_
  cases eligibility with
  | skip => exact ⟨h.charged, Nat.le_add_right _ _⟩
  | pause tokenId reason => exact ⟨h.charged, Nat.le_add_right _ _⟩
  | go tokenId lockEnd autoMax =>
      refine Outcome.bind (checkpoint_charged h hr user) ?_
      rintro n ⟨hn, -, -, hreceived⟩
      have hkept : Charged n ∧ n.ghost.received ≤ s.ghost.received + streamed replies.enter :=
        ⟨hn.charged, by omega⟩
      refine (Outcome.ite_iff _ _ _).mpr ⟨fun _ ↦ hkept, fun _ ↦ ?_⟩
      refine (Outcome.ite_iff _ _ _).mpr ⟨fun _ ↦ hkept, fun _ ↦ ?_⟩
      cases replies.quote with
      | none => exact hkept
      | some q =>
          refine (Outcome.ite_iff _ _ _).mpr ⟨fun _ ↦ hkept, fun _ ↦ ?_⟩
          have hminVeOut : Outcome (fun _ ↦ True) (Overflowing r)
              (n.minVeOutForCompound user q.veOut) :=
            Outcome.uint256_bind .arithmetic fun _ ↦ trivial
          refine Outcome.bind hminVeOut fun _ _ ↦ ?_
          refine Outcome.mono (compoundReward_charged hn.charged _ _ _ _ _ _) ?_ fun _ he ↦ he
          rintro n' ⟨hcharged, hle⟩
          exact ⟨hcharged, by omega⟩

/-- Only a change of stakes touches what makes a state sturdy. -/
theorem Sturdy.next {n : VaultState} (h : Sturdy s) (hn : Effects s n) (hcharged : Charged n)
    (hstaked : n.totalStaked = s.totalStaked) : Sturdy n :=
  ⟨h.backed.effects hn, h.proRata.effects h.backed hn, hstaked ▸ h.dustless, hcharged⟩

theorem Sturdy.congr {n : VaultState} (h : Sturdy s) (hn : SameLedger s n) : Sturdy n := by
  refine h.next (.single (.keep hn)) ?_ hn.totalStaked
  unfold Charged
  rw [hn.rewardPerToken, hn.ghost]
  exact h.charged

theorem compoundLoop_charged (call : Call) (users : List (Address × CompoundReplies)) :
    ∀ {s : VaultState}, Sturdy s →
      s.ghost.received + (users.map fun entry ↦ streamed entry.2.enter).sum ≤ r →
        Outcome Charged (Overflowing r) (compoundLoop call users s) := by
  induction users with
  | nil => exact fun h _ ↦ h.charged
  | cons entry rest ih =>
      intro s h hr
      rw [List.map_cons, List.sum_cons] at hr
      have hentry := (compoundForInternal_charged h (r := r) (by omega) call entry.1
        entry.2).and_returns ((compoundForInternal_effects h.backed call entry.1 entry.2).and
          (compoundForInternal_custody call s entry.1 entry.2))
      refine Outcome.bind hentry ?_
      rintro n ⟨⟨hcharged, hle⟩, heffects, hcustody⟩
      exact ih (h.next heffects hcharged hcustody.totalStaked) (by omega)

theorem requireHarvestKeeper_quiet (call : Call) (s : VaultState) :
    Outcome (fun _ ↦ True) (Overflowing r) (requireHarvestKeeper call s) := by
  unfold requireHarvestKeeper
  refine Outcome.revertIf_bind (fun _ ↦ .other (by decide)) fun _ ↦ ?_
  exact (outcome_revertIf _ _).mpr ⟨fun _ ↦ .other (by decide), fun _ ↦ trivial⟩

theorem notifyRewards_charged (h : Sturdy s) (hr : s.ghost.received ≤ r) (call : Call)
    (amountClaim : ℕ) :
    Outcome Charged (Overflowing r) (notifyRewards call s amountClaim) := by
  unfold notifyRewards
  dsimp only
  refine Outcome.revertIf_bind (fun _ ↦ .other (by decide)) fun _ ↦ ?_
  have hcheckpoint {n : VaultState} (hn : SameLedger s n) (countAsFurnace countAsVaultFees : Bool) :
      Outcome Charged (Overflowing r)
        (n.checkpointRewardsFromBalanceDelta countAsFurnace countAsVaultFees) :=
    checkpointRewards_charged (h.congr hn) (hn.ghost ▸ hr) _ _
  have hemit := (SameLedger.refl s).emit (e := .NotifyAmountDivergence amountClaim
    (s.claimBalance - s.accountedRewardBalance)) trivial
  refine hcheckpoint ?_ _ _
  split_ifs <;> first | exact hemit | exact .refl s

theorem receiveClaim_charged (h : Charged s) (amount : ℕ) :
    Outcome (fun n ↦ Charged n ∧ n.ghost.received = s.ghost.received + amount) (Overflowing r)
      (s.receiveClaim amount) :=
  Outcome.uint256_bind .arithmetic fun _ ↦ ⟨h, rfl⟩

/-- What a harvest brings to the vault. -/
def HarvestReplies.brought (replies : HarvestReplies) : ℕ :=
  replies.claimFees.getD 0 + replies.swapped.getD 0

theorem effectiveMinClaimOut_quiet (wethToSwap callerMinClaimOut : ℕ)
    (amountsOut : Option (List ℕ)) :
    Outcome (fun _ ↦ True) (Overflowing r)
      (effectiveMinClaimOutForHarvest s wethToSwap callerMinClaimOut amountsOut) := by
  unfold effectiveMinClaimOutForHarvest
  refine (Outcome.ite_iff _ _ _).mpr ⟨fun _ ↦ trivial, fun _ ↦ ?_⟩
  refine Outcome.revertIf_bind (fun _ ↦ .other (by decide)) fun _ ↦ ?_
  refine Outcome.revertIf_bind (fun _ ↦ .other (by decide)) fun _ ↦ ?_
  refine Outcome.uint256_bind .arithmetic fun _ ↦ ?_
  dsimp only
  have hrest (result : ℕ) : Outcome (fun _ ↦ True) (Overflowing r)
      (do
        revertIf (s.minHarvestClaimFloor ≠ 0 ∧ result < s.minHarvestClaimFloor)
          Error.MinClaimFloorNotMet
        return result) :=
    Outcome.revertIf_bind (fun _ ↦ .other (by decide)) fun _ ↦ trivial
  refine (Outcome.ite_iff _ _ _).mpr ⟨fun _ ↦ ?_, fun _ ↦ hrest _⟩
  rw [Outcome.bind_iff, outcome_mulDiv (by decide)]
  refine ⟨fun _ ↦ ?_, fun _ ↦ .arithmetic⟩
  exact Outcome.revertIf_bind (fun _ ↦ .other (by decide)) fun _ ↦ hrest _

theorem collectFees_charged (h : Charged s) (fees : Option ℕ) :
    Outcome (fun n ↦ Charged n ∧ n.ghost.received = s.ghost.received + fees.getD 0) (Overflowing r)
      (collectFees s fees) := by
  cases fees with
  | none => exact ⟨h, rfl⟩
  | some amount => exact receiveClaim_charged h amount

theorem swapWethToClaim_charged (h : Charged s) (wethToSwap : ℕ) (swapped : Option ℕ) :
    Outcome (fun n ↦ Charged n.1 ∧ n.1.ghost.received ≤ s.ghost.received + swapped.getD 0)
      (Overflowing r) (swapWethToClaim s wethToSwap swapped) := by
  unfold swapWethToClaim
  refine (Outcome.ite_iff _ _ _).mpr ⟨fun _ ↦ ⟨h, Nat.le_add_right _ _⟩, fun _ ↦ ?_⟩
  rw [Outcome.bind_iff, outcome_externalCall]
  refine ⟨?_, fun _ ↦ .other (by decide)⟩
  rintro bought rfl
  refine Outcome.bind (receiveClaim_charged h bought) ?_
  rintro n ⟨hn, hreceived⟩
  exact ⟨hn, hreceived.le⟩

theorem harvestFeesToRewards_charged (h : Sturdy s) (call : Call) (deadline minClaimOut : ℕ)
    (replies : HarvestReplies) (hr : s.ghost.received + replies.brought ≤ r) :
    Outcome Charged (Overflowing r)
      (harvestFeesToRewards call s deadline minClaimOut replies) := by
  unfold HarvestReplies.brought at hr
  unfold harvestFeesToRewards
  refine Outcome.bind (requireHarvestKeeper_quiet call s) fun _ _ ↦ ?_
  refine Outcome.revertIf_bind (fun _ ↦ .other (by decide)) fun _ ↦ ?_
  have hcheckpoint := (checkpointRewards_charged h (r := r) (by omega) false false).and_returns
    (checkpointRewards_recognised h.backed false false)
  refine Outcome.bind hcheckpoint ?_
  rintro n ⟨hcharged, hn⟩
  have hn' := h.next hn.effects hcharged hn.totalStaked
  have hreceived := hn.received
  refine Outcome.bind ((collectFees_charged hcharged replies.claimFees).and_returns
    ((collectFees_effects n replies.claimFees).and (collectFees_custody n replies.claimFees))) ?_
  rintro n₁ ⟨⟨hcharged₁, hreceived₁⟩, heffects₁, hcustody₁⟩
  have hn₁ := hn'.next heffects₁ hcharged₁ hcustody₁.totalStaked
  refine Outcome.revertIf_bind (fun _ ↦ .other (by decide)) fun _ ↦ ?_
  have hignored : SameLedger n₁ (if replies.feeWeth = 0 ∧ minClaimOut > 0 then
      n₁.emit (.HarvestMinClaimOutIgnored minClaimOut) else n₁) := by
    split_ifs
    · exact (SameLedger.refl n₁).emit trivial
    · exact .refl n₁
  dsimp only
  generalize (if replies.feeWeth = 0 ∧ minClaimOut > 0 then
    n₁.emit (.HarvestMinClaimOutIgnored minClaimOut) else n₁) = n₂ at hignored ⊢
  have hn₂ := hn₁.congr hignored
  have hreceived₂ : n₂.ghost.received = n₁.ghost.received := congrArg Ghost.received hignored.ghost
  refine Outcome.revertIf_bind (fun _ ↦ .other (by decide)) fun _ ↦ ?_
  refine Outcome.revertIf_bind (fun _ ↦ .other (by decide)) fun _ ↦ ?_
  refine Outcome.bind (effectiveMinClaimOut_quiet _ _ _) fun _ _ ↦ ?_
  refine Outcome.bind ((swapWethToClaim_charged hn₂.charged _ _).and_returns
    ((swapWethToClaim_effects n₂ _ _).and (swapWethToClaim_custody n₂ _ _))) ?_
  rintro ⟨n₃, bought⟩ ⟨⟨hcharged₃, hreceived₃⟩, heffects₃, hcustody₃⟩
  have hn₃ := hn₂.next heffects₃ hcharged₃ hcustody₃.totalStaked
  refine Outcome.uint256_bind .arithmetic fun _ ↦ ?_
  refine (Outcome.ite_iff _ _ _).mpr ⟨fun _ ↦ ?_, fun _ ↦ hcharged₃⟩
  exact Outcome.bind (checkpointRewards_charged hn₃ (by omega) false true) fun n₄ hn₄ ↦ hn₄

theorem checkAutoCompoundConfig_quiet (call : Call) (user : Address) (cfg : AutoCompoundConfig)
    (owner : Option Address) (lock : Option LockInfo) :
    Outcome (fun _ ↦ True) (Overflowing r) (checkAutoCompoundConfig call user cfg owner lock) := by
  unfold checkAutoCompoundConfig
  refine Outcome.revertIf_bind (fun _ ↦ .other (by decide)) fun _ ↦ ?_
  refine Outcome.revertIf_bind (fun _ ↦ .other (by decide)) fun _ ↦ ?_
  refine Outcome.revertIf_bind (fun _ ↦ .other (by decide)) fun _ ↦ ?_
  rw [Outcome.bind_iff, outcome_externalCall]
  refine ⟨fun owner _ ↦ ?_, fun _ ↦ .other (by decide)⟩
  refine Outcome.revertIf_bind (fun _ ↦ .other (by decide)) fun _ ↦ ?_
  rw [Outcome.bind_iff, outcome_externalCall]
  refine ⟨fun l _ ↦ ?_, fun _ ↦ .other (by decide)⟩
  refine Outcome.revertIf_bind (fun _ ↦ .other (by decide)) fun _ ↦ ?_
  refine Outcome.revertIf_bind (fun _ ↦ .other (by decide)) fun _ ↦ ?_
  exact (outcome_revertIf _ _).mpr ⟨fun _ ↦ .other (by decide), fun _ ↦ trivial⟩

theorem resolveCanonicalDelegationHub_quiet (call : Call) (s : VaultState) :
    Outcome (fun _ ↦ True) (Overflowing r) (resolveCanonicalDelegationHub call s) := by
  unfold resolveCanonicalDelegationHub
  refine Outcome.revertIf_bind (fun _ ↦ .other (by decide)) fun _ ↦ ?_
  refine Outcome.revertIf_bind (fun _ ↦ .other (by decide)) fun _ ↦ ?_
  refine Outcome.revertIf_bind (fun _ ↦ .other (by decide)) fun _ ↦ ?_
  refine Outcome.revertIf_bind (fun _ ↦ .other (by decide)) fun _ ↦ ?_
  refine Outcome.revertIf_bind (fun _ ↦ .other (by decide)) fun _ ↦ ?_
  exact Outcome.revertIf_bind (fun _ ↦ .other (by decide)) fun _ ↦ trivial

theorem requireOwner_quiet (call : Call) (s : VaultState) :
    Outcome (fun _ ↦ True) (Overflowing r) (requireOwner call s) := by
  unfold requireOwner
  refine Outcome.revertIf_bind (fun _ ↦ .other (by decide)) fun _ ↦ ?_
  exact (outcome_revertIf _ _).mpr ⟨fun _ ↦ .other (by decide), fun _ ↦ trivial⟩

theorem setAutoCompoundConfig_charged (h : Charged s) (call : Call) (user : Address)
    (cfg : AutoCompoundConfig) (owner : Option Address) (lock : Option LockInfo) :
    Outcome Charged (Overflowing r) (setAutoCompoundConfigInternal call s user cfg owner lock) := by
  have hdone (cfg : AutoCompoundConfig) : Charged ({ (if (s.autoCompound user).paused then
      s.emit (.AutoCompoundUnpaused user) else s) with
        autoCompound := update (if (s.autoCompound user).paused then
          s.emit (.AutoCompoundUnpaused user) else s).autoCompound user cfg }.emit
        (.AutoCompoundConfigured user cfg)) := by
    split_ifs
    · exact h
    · exact h
  unfold setAutoCompoundConfigInternal
  extract_lets cfg'
  split
  · exact Outcome.bind (checkAutoCompoundConfig_quiet call user cfg' owner lock) fun _ _ ↦ hdone _
  · exact hdone _

/-- The CLAIM that a call brings to the vault. -/
def Op.brought : Op → ℕ
  | .claimRewardsAndLock _ _ _ _ _ entry => streamed entry
  | .compoundFor _ replies => streamed replies.enter
  | .compoundForMany users _ => (users.map fun entry ↦ streamed entry.2.enter).sum
  | .harvestFeesToRewards _ _ replies => replies.brought
  | .transferClaim amount => amount
  | _ => 0

theorem exec_charged (h : Sturdy s) (call : Call) (op : Op)
    (hr : s.ghost.received + op.brought ≤ r) :
    Outcome Charged (Overflowing r) (exec call s op) := by
  have hreceived : s.ghost.received ≤ r := (Nat.le_add_right _ _).trans hr
  cases op with
  | stake amount transferred => exact stake_charged h hreceived call amount transferred
  | beginUnbond amount => exact beginUnbond_charged h hreceived call amount
  | withdrawMatured transferred => exact withdrawMatured_charged h.charged call transferred
  | claimRewards => exact claimRewards_charged h hreceived call
  | claimRewardsAndLock targetTokenId durationSeconds createAutoMax minVeOut quote entry =>
      exact claimRewardsAndLock_charged h hreceived call _ _ _ _ quote entry
  | compoundFor user replies =>
      refine Outcome.bind (requireHarvestKeeper_quiet call s) fun _ _ ↦ ?_
      exact Outcome.mono (compoundForInternal_charged h hreceived call user replies)
        (fun _ hn ↦ hn.1) fun _ he ↦ he
  | compoundForMany users maxUsers =>
      refine Outcome.bind (requireHarvestKeeper_quiet call s) fun _ _ ↦ ?_
      refine compoundLoop_charged call _ h (le_trans (Nat.add_le_add_left ?_ _) hr)
      exact ((List.take_sublist _ users).map _).sum_le_sum fun _ _ ↦ Nat.zero_le _
  | notifyRewards amountClaim => exact notifyRewards_charged h hreceived call amountClaim
  | harvestFeesToRewards deadline minClaimOut replies =>
      exact harvestFeesToRewards_charged h call deadline minClaimOut replies hr
  | transferClaim amount =>
      exact Outcome.mono (receiveClaim_charged h.charged amount) (fun _ hn ↦ hn.1) fun _ he ↦ he
  | setAutoCompoundConfig cfg owner lock =>
      exact setAutoCompoundConfig_charged h.charged call _ cfg owner lock
  | setAutoCompoundConfigForUser user cfg owner lock =>
      refine Outcome.revertIf_bind (fun _ ↦ .other (by decide)) fun _ ↦ ?_
      refine Outcome.bind (resolveCanonicalDelegationHub_quiet call s) fun hub _ ↦ ?_
      refine Outcome.revertIf_bind (fun _ ↦ .other (by decide)) fun _ ↦ ?_
      exact Outcome.bind (setAutoCompoundConfig_charged h.charged call user cfg owner lock)
        fun n hn ↦ hn
  | setMinHarvestClaimFloor floor =>
      refine Outcome.bind (requireOwner_quiet call s) fun _ _ ↦ ?_
      exact Outcome.revertIf_bind (fun _ ↦ .other (by decide)) fun _ ↦ h.charged
  | setMinCompoundReward floor =>
      refine Outcome.bind (requireOwner_quiet call s) fun _ _ ↦ ?_
      exact Outcome.revertIf_bind (fun _ ↦ .other (by decide)) fun _ ↦ h.charged
  | setHarvestKeeper keeper allowed =>
      refine Outcome.bind (requireOwner_quiet call s) fun _ _ ↦ ?_
      refine Outcome.revertIf_bind (fun _ ↦ .other (by decide)) fun _ ↦ ?_
      exact Outcome.revertIf_bind (fun _ ↦ .other (by decide)) fun _ ↦ h.charged

/-! ## Runs -/

/-- No user has dust staked. -/
def NoDust (s : VaultState) : Prop := ∀ user, Dustless (s.stakedBalance user)

theorem NoDust.totalStaked (h : NoDust s) (hp : ProRata s) : Dustless s.totalStaked := by
  rw [Dustless, ← hp.staked]
  rcases Nat.eq_zero_or_pos (total s.stakedBalance) with hzero | hpos
  · exact .inl hzero
  · have hsome : ¬ ∀ user, s.stakedBalance user = 0 := fun hnone ↦
      hpos.ne' ((total_eq_zero_iff hp.finite).mpr hnone)
    obtain ⟨user, huser⟩ := not_forall.mp hsome
    exact .inr (((h user).resolve_left huser).trans (ClaimRush.le_total hp.finite user))

theorem NoDust.update {user : Address} {staked : ℕ} (h : NoDust s) (hstaked : Dustless staked)
    {n : VaultState} (hn : n.stakedBalance = update s.stakedBalance user staked) : NoDust n := by
  intro v
  rw [hn]
  by_cases hv : v = user
  · rw [hv, update_self]
    exact hstaked
  · rw [update_of_ne hv]
    exact h v

theorem stake_noDust (h : NoDust s) (call : Call) (amount : ℕ) (transferred : Bool) :
    Returns NoDust (stake call s amount transferred) := by
  rw [Returns.iff_forall]
  intro n hn
  have hcustody := (stake_custody call s amount transferred).of_ok hn
  have hamount : MIN_UNBOND_AMOUNT ≤ amount := by
    obtain ⟨_, -, hn⟩ := bind_eq_ok_iff.mp hn
    obtain ⟨_, hdust, -⟩ := bind_eq_ok_iff.mp hn
    exact not_lt.mp (revertIf_eq_ok.mp hdust)
  exact h.update (.inr (hamount.trans (Nat.le_add_left _ _))) hcustody.stakedBalance

/-- What `beginUnbond` leaves is nothing or more than dust. -/
theorem dustless_unbondAmount (staked amount : ℕ) :
    Dustless (staked - unbondAmount staked amount) := by
  unfold unbondAmount Dustless
  split_ifs <;> omega

theorem beginUnbond_noDust (h : NoDust s) (call : Call) (amount : ℕ) :
    Returns NoDust (beginUnbond call s amount) := by
  refine (beginUnbond_custody call s amount).weaken ?_
  rintro _ ⟨n, u, hu, rfl⟩
  have hstaked : (startEntry n call.sender u).stakedBalance = update s.stakedBalance call.sender
      (s.stakedBalance call.sender - unbondAmount (s.stakedBalance call.sender) amount) := by
    change Function.update n.stakedBalance _ _ = _
    rw [hu.amount_eq, hu.same.stakedBalance]
  exact h.update (dustless_unbondAmount _ _) hstaked

theorem exec_noDust (h : NoDust s) (call : Call) (op : Op) : Returns NoDust (exec call s op) := by
  have hsame (hcustody : Returns (SameCustody s) (exec call s op)) :
      Returns NoDust (exec call s op) :=
    hcustody.weaken fun _ hn user ↦ hn.stakedBalance ▸ h user
  cases op with
  | stake amount transferred => exact stake_noDust h call amount transferred
  | beginUnbond amount => exact beginUnbond_noDust h call amount
  | withdrawMatured transferred =>
      change Returns NoDust (withdrawMatured call s transferred)
      unfold withdrawMatured
      refine Returns.seq fun r _ ↦ Returns.ite (fun _ ↦ h) fun _ ↦ Returns.guard fun _ ↦ h
  | _ => exact hsame (exec_custody call s nofun nofun nofun)

theorem reachable_sturdy {c : Timed VaultState} (hc : system.Reachable c) :
    Sturdy c.state ∧ NoDust c.state := by
  refine driven_invariant (I := fun s ↦ Sturdy s ∧ NoDust s) ?_ ?_ hc
  · rintro s ⟨self, owner, claim, ve, furnace, balance, hbalance, rfl⟩
    refine ⟨⟨initial_backed hbalance, initial_proRata self owner claim ve furnace balance, .inl rfl,
      ?_⟩, fun _ ↦ .inl rfl⟩
    exact (Nat.zero_mul _).le.trans (Nat.zero_le _)
  · intro c s ⟨h, hdust⟩
    have hcharged : Returns Charged (exec c.1 s c.2) := .of_outcome (exec_charged h c.1 c.2 le_rfl)
    refine ((hcharged.and (exec_effects h.backed c.1 c.2)).and
      (exec_noDust hdust c.1 c.2)).weaken ?_
    rintro n ⟨⟨hcharged, heffects⟩, hn⟩
    have hproRata := h.proRata.effects h.backed heffects
    exact ⟨⟨h.backed.effects heffects, hproRata, hn.totalStaked hproRata, hcharged⟩, hn⟩

/-- No dust is staked, and the index overflows only when the vault has received
2^128 / 2000 CLAIM. -/
theorem reward_index_bounded {c : Timed VaultState} (hc : system.Reachable c) :
    (∀ user, c.state.stakedBalance user = 0 ∨ MIN_UNBOND_AMOUNT ≤ c.state.stakedBalance user) ∧
      (c.state.totalStaked = 0 ∨ MIN_UNBOND_AMOUNT ≤ c.state.totalStaked) ∧
      ∀ call op, 2000 * (c.state.ghost.received + op.brought) < 2 ^ 128 →
        exec call c.state op ≠ .error .RewardIndexOverflow := by
  obtain ⟨h, hdust⟩ := reachable_sturdy hc
  refine ⟨hdust, h.dustless, fun call op hless herror ↦ ?_⟩
  have hover := (exec_charged h call op le_rfl).of_error herror
  exact absurd (hover rfl) (Nat.not_le.mpr hless)

theorem reward_index_bounded_dust : ∃ c : Timed VaultState, system.Reachable c ∧
    0 < c.state.totalStaked ∧ MIN_UNBOND_AMOUNT ≤ c.state.totalStaked ∧
      exec (plainCall 4 13) c.state .claimRewards ≠ .error .RewardIndexOverflow := by
  have hrun : ∃ c, system.Reachable c ∧
      decide (0 < c.state.totalStaked ∧ 2000 * (c.state.ghost.received + 0) < 2 ^ 128) = true := by
    refine driven_witness (initial 0 1 2 3 4 0) dustRun (fun s ↦
      decide (0 < s.totalStaked ∧ 2000 * (s.ghost.received + 0) < 2 ^ 128)) ?_ ?_ ?_
    · exact ⟨0, 1, 2, 3, 4, 0, uint256Bound_pos, rfl⟩
    · exact dustRun_sorted
    · decide +kernel
  obtain ⟨c, hc, hok⟩ := hrun
  obtain ⟨hstaked, hless⟩ := of_decide_eq_true hok
  obtain ⟨-, hdust, hbound⟩ := reward_index_bounded hc
  exact ⟨c, hc, hstaked, hdust.resolve_left hstaked.ne',
    hbound (plainCall 4 13) .claimRewards hless⟩

end ClaimRush.LpStakingVault
