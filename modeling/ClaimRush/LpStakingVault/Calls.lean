import ClaimRush.LpStakingVault.Ledger

/-!
# Calls as effects

Each function of the vault, from a state with its ledger in step, is a sequence
of effects.
-/

open Function Relation

namespace ClaimRush.LpStakingVault

open Constants VeClaimNFT

variable {s s' : VaultState}

/-! ## Checkpoints -/

/-- Stakes, markers and the CLAIM received are the same. -/
structure SameStakes (s s' : VaultState) : Prop where
  claimBalance : s'.claimBalance = s.claimBalance
  totalStaked : s'.totalStaked = s.totalStaked
  stakedBalance : s'.stakedBalance = s.stakedBalance
  paid : s'.userRewardPerTokenPaid = s.userRewardPerTokenPaid
  accounted : s'.accountedRewardBalance = s.accountedRewardBalance
  received : s'.ghost.received = s.ghost.received

theorem SameLedger.sameStakes (h : SameLedger s s') : SameStakes s s' :=
  ⟨h.claimBalance, h.totalStaked, h.stakedBalance, h.paid, h.accounted,
    congrArg Ghost.received h.ghost⟩

/-- What one index update leaves of `amount`. -/
theorem index_remainder_lt (amount : ℕ) {staked : ℕ} (hstaked : 0 < staked) :
    (amount - amount * ACC / staked * staked / ACC) * ACC < staked + ACC := by
  have hfloor := Nat.lt_div_mul_add (a := amount * ACC) hstaked
  have hback := Nat.lt_div_mul_add (a := amount * ACC / staked * staked) ACC_pos
  rw [Nat.sub_mul]
  omega

/-- Indexing the whole queue leaves less than the rounding of one update. -/
theorem index_effects (n : VaultState) (hstaked : 0 < n.totalStaked) :
    Returns (fun s' ↦ Effects n s' ∧ s'.queuedRewards * ACC < n.totalStaked + ACC ∧ SameStakes n s')
      (n.emptyQueue.indexRewardsWithCarry n.queuedRewards) := by
  have hkeep {s' : VaultState} (hsame : SameLedger n s')
      (hcarry : n.queuedRewards * ACC < n.totalStaked + ACC) :
      Effects n s' ∧ s'.queuedRewards * ACC < n.totalStaked + ACC ∧ SameStakes n s' :=
    ⟨.single (.keep hsame), hsame.queued ▸ hcarry, hsame.sameStakes⟩
  have hqueue (hcarry : n.queuedRewards * ACC < n.totalStaked + ACC) :
      Returns (fun s' ↦ Effects n s' ∧ s'.queuedRewards * ACC < n.totalStaked + ACC ∧
        SameStakes n s') (n.emptyQueue.queue n.queuedRewards) := by
    unfold VaultState.queue
    refine Outcome.uint256_bind trivial fun _ ↦ hkeep ?_ hcarry
    exact ⟨rfl, rfl, rfl, rfl, rfl, rfl, rfl, Nat.zero_add _, rfl, rfl, rfl, id⟩
  have hleft := index_remainder_lt n.queuedRewards hstaked
  have hsome : n.emptyQueue.totalStaked ≠ 0 := hstaked.ne'
  unfold VaultState.indexRewardsWithCarry
  rw [if_neg hsome]
  dsimp only [VaultState.emptyQueue] at hqueue ⊢
  split_ifs with hzero
  · refine hkeep ⟨rfl, rfl, rfl, rfl, rfl, rfl, rfl, hzero.symm, rfl, rfl, rfl, id⟩ ?_
    rw [hzero, Nat.zero_mul]
    exact Nat.add_pos_left hstaked _
  refine Returns.seq fun inc hinc ↦ ?_
  obtain ⟨-, -, rfl⟩ := mulDiv_eq_ok.mp hinc
  split_ifs with hincrement
  · refine hqueue ?_
    rwa [hincrement, Nat.zero_mul, Nat.zero_div, Nat.sub_zero] at hleft
  refine Returns.seq fun amount hamount ↦ ?_
  obtain ⟨-, -, rfl⟩ := mulDiv_eq_ok.mp hamount
  split_ifs with hindexed
  · refine hqueue ?_
    rwa [hindexed, Nat.sub_zero] at hleft
  refine Outcome.uint256_bind trivial fun _ ↦ Returns.guard fun _ ↦ ?_
  refine Outcome.uint256_bind trivial fun _ ↦ Outcome.usub_bind trivial fun hle ↦ ?_
  refine Outcome.uint256_bind trivial fun _ ↦ ⟨?_, ?_, ⟨rfl, rfl, rfl, rfl, rfl, rfl⟩⟩
  · refine .tail (.single (.index _ _ hstaked rfl rfl)) (.keep ?_)
    exact ⟨rfl, rfl, rfl, rfl, rfl, rfl, rfl, Nat.zero_add _, rfl, rfl, rfl, .of_events rfl⟩
  · dsimp only
    rwa [Nat.zero_add]

/-- A checkpoint recognises all CLAIM that the vault holds, and carries on less
than the rounding of one update. -/
structure Recognised (s s' : VaultState) : Prop where
  effects : Effects s s'
  noticed : s'.accountedRewardBalance = s'.claimBalance
  carry : 0 < s.totalStaked → s'.queuedRewards * ACC < s.totalStaked + ACC
  totalStaked : s'.totalStaked = s.totalStaked
  stakedBalance : s'.stakedBalance = s.stakedBalance
  claimBalance : s'.claimBalance = s.claimBalance
  received : s'.ghost.received = s.ghost.received

theorem accountDelta_same (s : VaultState) (delta : ℕ) (countAsFurnace countAsVaultFees : Bool) :
    Returns (SameLedger { s with accountedRewardBalance := s.claimBalance })
      (s.accountDelta delta countAsFurnace countAsVaultFees) := by
  unfold VaultState.accountDelta
  dsimp only
  split_ifs
  · exact Outcome.uint256_bind trivial fun _ ↦ sameLedger_config _
  · exact Outcome.uint256_bind trivial fun _ ↦ sameLedger_config _
  · exact .refl _

/-- What a checkpoint does once the balance delta is accounted. -/
theorem distribute_recognised {s₁ : VaultState}
    (hs₁ : SameLedger { s with accountedRewardBalance := s.claimBalance } s₁) :
    Returns (Recognised s) (s₁.distribute (s.claimBalance - s.accountedRewardBalance)) := by
  have hstart : Effects s { s₁ with
      queuedRewards := s.claimBalance - s.accountedRewardBalance + s₁.queuedRewards } := by
    refine .tail (.single .notice) (.keep ?_)
    refine ⟨hs₁.claimBalance, hs₁.totalStaked, hs₁.stakedBalance, hs₁.rewardPerToken, hs₁.paid,
      hs₁.rewards, hs₁.accounted, ?_, hs₁.indexed, hs₁.credited, hs₁.ghost, hs₁.clamped⟩
    change _ + s₁.queuedRewards = s.queuedRewards + _
    rw [hs₁.queued, Nat.add_comm]
  have hnotice : s₁.accountedRewardBalance = s₁.claimBalance :=
    hs₁.accounted.trans hs₁.claimBalance.symm
  have hreceived : s₁.ghost.received = s.ghost.received := congrArg Ghost.received hs₁.ghost
  unfold VaultState.distribute
  split_ifs with hnone
  · refine Outcome.uint256_bind trivial fun _ ↦ ?_
    refine ⟨?_, hnotice, fun hstaked ↦ ?_, hs₁.totalStaked, hs₁.stakedBalance, hs₁.claimBalance,
      hreceived⟩
    · rw [Nat.add_comm]
      exact hstart
    · exact absurd (hs₁.totalStaked.symm.trans hnone) hstaked.ne'
  · refine Outcome.uint256_bind trivial fun _ ↦ ?_
    refine (index_effects { s₁ with
      queuedRewards := s.claimBalance - s.accountedRewardBalance + s₁.queuedRewards }
      (Nat.pos_of_ne_zero hnone)).weaken ?_
    rintro s₂ ⟨heffects, hcarry, hstakes⟩
    refine ⟨hstart.trans heffects, ?_, fun _ ↦ ?_, hstakes.totalStaked.trans hs₁.totalStaked,
      hstakes.stakedBalance.trans hs₁.stakedBalance,
      hstakes.claimBalance.trans hs₁.claimBalance, hstakes.received.trans hreceived⟩
    · exact (hstakes.accounted.trans hnotice).trans hstakes.claimBalance.symm
    · exact hs₁.totalStaked ▸ hcarry

theorem checkpointRewards_recognised (h : Backed s) (countAsFurnace countAsVaultFees : Bool) :
    Returns (Recognised s)
    (s.checkpointRewardsFromBalanceDelta countAsFurnace countAsVaultFees) := by
  have hheld := h.held
  unfold VaultState.checkpointRewardsFromBalanceDelta
  dsimp only
  rcases Nat.eq_zero_or_pos (s.claimBalance - s.accountedRewardBalance) with hzero | hpos
  · have hall : s.accountedRewardBalance = s.claimBalance := by omega
    have hsame : SameLedger { s with accountedRewardBalance := s.claimBalance } s :=
      ⟨rfl, rfl, rfl, rfl, rfl, rfl, hall, rfl, rfl, rfl, rfl, id⟩
    have hdistribute := distribute_recognised hsame
    rw [hzero] at hdistribute ⊢
    rw [if_neg (not_not.mpr rfl)]
    change Returns _ (if 0 = 0 ∧ s.queuedRewards = 0 then pure s else _)
    split_ifs with hempty habsurd
    · refine ⟨.refl, hall, fun hstaked ↦ ?_, rfl, rfl, rfl, rfl⟩
      rw [hempty.2, Nat.zero_mul]
      exact Nat.add_pos_left hstaked _
    · exact absurd habsurd (lt_irrefl 0)
    · exact Outcome.bind hdistribute fun _ hs₂ ↦ hs₂
  · rw [if_pos hpos.ne']
    refine Outcome.bind (accountDelta_same s _ _ _) fun s₁ hs₁ ↦ ?_
    rw [if_neg fun hempty ↦ hpos.ne' hempty.1]
    refine Outcome.bind (distribute_recognised hs₁) fun s₂ hs₂ ↦ ?_
    rw [if_pos hpos]
    have hemit : SameLedger s₂ (s₂.emit
        (.LpRewardsNotified (s.claimBalance - s.accountedRewardBalance))) :=
      (SameLedger.refl s₂).emit trivial
    exact { hs₂ with effects := hs₂.effects.tail (.keep hemit) }

/-! ## Updates of one user -/

theorem wrapping_sub_cast {a b : ℕ} (hle : b ≤ a) (ha : a < uint256Bound) :
    wrapping (a - b) = a - b := by
  rw [← Nat.cast_sub hle, wrapping_natCast, Nat.mod_eq_of_lt (by omega)]

theorem wrapping_add_cast {a b : ℕ} (hsum : a + b < uint256Bound) : wrapping (a + b) = a + b := by
  rw [← Nat.cast_add, wrapping_natCast, Nat.mod_eq_of_lt hsum]

theorem Backed.indexed_lt (h : Backed s) : s.indexedClaimOwed < uint256Bound := by
  have := h.accounted
  have := h.held
  have := h.bounded
  omega

theorem earned_spec (h : Backed s) (user : Address) :
    Returns (· = s.rewards user + s.accrual user) (s.earned user) := by
  unfold VaultState.earned VaultState.accrual VaultState.unclampedAccrual
  split_ifs with hmoved
  · refine Returns.seq fun accrued haccrued ↦ ?_
    obtain ⟨-, -, rfl⟩ := mulDiv_eq_ok.mp haccrued
    rw [wrapping_sub_cast h.covered h.indexed_lt, Returns.iff_forall]
    intro r hr
    obtain ⟨-, rfl⟩ := uint256_eq_ok.mp hr
    split_ifs with hclamp
    · rw [min_eq_right hclamp.le]
    · rw [min_eq_left (not_lt.mp hclamp)]
  · have hnone : s.stakedBalance user *
        (s.rewardPerTokenStored - s.userRewardPerTokenPaid user) = 0 := by
      rcases not_and_or.mp hmoved with hpaid | hstaked
      · rw [Nat.sub_eq_zero_of_le (not_lt.mp hpaid), Nat.mul_zero]
      · rw [not_not.mp hstaked, Nat.zero_mul]
    simp [hnone]

/-- An update settles the user with the clamped accrual. -/
theorem updateReward_spec (h : Backed s) (user : Address) :
    Returns (· = s.credit user (s.accrual user)) (s.updateReward user) := by
  have hclamped : s.accrual user ≤ s.indexedClaimOwed - s.totalRewardsCredited := min_le_right _ _
  have hcovered := h.covered
  have hbound := h.indexed_lt
  have hle := h.rewards_le user
  unfold VaultState.updateReward
  refine Outcome.bind (earned_spec h user) ?_
  rintro newRewards rfl
  split_ifs with hsame
  · have hwrap : wrapping (↑(s.rewards user + s.accrual user) - ↑(s.rewards user)) =
        s.accrual user := by
      rw [wrapping_sub_cast (Nat.le_add_right _ _) (by omega), Nat.add_sub_cancel_left]
    refine (Outcome.pure_iff _).mpr ?_
    rw [hwrap, wrapping_add_cast (by omega), Nat.add_sub_cancel_left]
    rfl
  · have hzero : s.accrual user = 0 := by omega
    refine (Outcome.pure_iff _).mpr ?_
    simp [VaultState.credit, hzero, update_eq_self]

/-- The state after the preamble of a call for `user`. -/
structure Prepared (user : Address) (s s' : VaultState) : Prop where
  effects : Effects s s'
  backed : Backed s'
  settled : s'.userRewardPerTokenPaid user = s'.rewardPerTokenStored
  noticed : s'.accountedRewardBalance = s'.claimBalance
  carry : 0 < s.totalStaked → s'.queuedRewards * ACC < s.totalStaked + ACC
  totalStaked : s'.totalStaked = s.totalStaked
  stakedBalance : s'.stakedBalance = s.stakedBalance
  received : s'.ghost.received = s.ghost.received

theorem checkpoint_prepared (h : Backed s) (user : Address) :
    Returns (Prepared user s) (checkpoint s user) := by
  unfold checkpoint
  refine Outcome.bind (checkpointRewards_recognised h false false) fun s₁ hs₁ ↦ ?_
  have h₁ := h.effects hs₁.effects
  refine (updateReward_spec h₁ user).weaken ?_
  rintro s₂ rfl
  have heffects := hs₁.effects.tail (.credit user)
  exact ⟨heffects, h.effects heffects, update_self _ _ _, hs₁.noticed, hs₁.carry, hs₁.totalStaked,
    hs₁.stakedBalance, hs₁.received⟩

end ClaimRush.LpStakingVault
