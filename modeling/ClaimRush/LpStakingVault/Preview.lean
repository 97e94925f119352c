import ClaimRush.LpStakingVault.ProRata

/-!
# The preview of the rewards

The view `earned` projects the checkpoint that a claim starts with, without
performing it.  From a state with its ledger in step the projection is exact.
-/

open Function

namespace ClaimRush.LpStakingVault

open Constants VeClaimNFT

namespace VaultState

variable (s : VaultState)

/-- What `earned` adds up as pending. -/
def pendingRewards : Except Error ℕ :=
  if s.claimBalance > s.accountedRewardBalance then
    let pending := s.claimBalance - s.accountedRewardBalance
    if s.queuedRewards ≠ 0 then uint256 (pending + s.queuedRewards) else .ok pending
  else if s.queuedRewards ≠ 0 then .ok s.queuedRewards
  else .ok 0

/-- The index that `earned` projects for a pending amount. -/
def projectIndex (pending : ℕ) : Except Error ℕ :=
  if pending = 0 then .ok s.rewardPerTokenStored
  else do
    let rptIncrement ← mulDiv pending ACC s.totalStaked
    if rptIncrement = 0 then return s.rewardPerTokenStored
    else
      let indexedAmount ← mulDiv rptIncrement s.totalStaked ACC
      if indexedAmount = 0 then return s.rewardPerTokenStored
      else uint256 (s.rewardPerTokenStored + rptIncrement)

/-- The local `rpt` of `earned`. -/
def projectedRpt : Except Error ℕ :=
  if s.totalStaked = 0 then .ok s.rewardPerTokenStored
  else do
    let pending ← s.pendingRewards
    s.projectIndex pending

/-- `_earnedWithRpt`. -/
def earnedWithRpt (user : Address) (rpt : ℕ) : Except Error ℕ :=
  if rpt > s.userRewardPerTokenPaid user ∧ s.stakedBalance user ≠ 0 then do
    let accrued ← mulDiv (s.stakedBalance user) (rpt - s.userRewardPerTokenPaid user) ACC
    let projectedIndexed ←
      if rpt > s.rewardPerTokenStored ∧ s.totalStaked ≠ 0 then do
        let growth ← mulDiv (rpt - s.rewardPerTokenStored) s.totalStaked ACC
        uint256 (s.indexedClaimOwed + growth)
      else pure s.indexedClaimOwed
    let unallocated := wrapping (projectedIndexed - s.totalRewardsCredited)
    let accrued := if accrued > unallocated then unallocated else accrued
    uint256 (s.rewards user + accrued)
  else .ok (s.rewards user)

/-- The view `earned`. -/
def earnedView (user : Address) : Except Error ℕ := do
  let rpt ← s.projectedRpt
  s.earnedWithRpt user rpt

end VaultState

variable {s n : VaultState}

/-! ## The projected checkpoint -/

/-- `n` is `s` with the index moved to `rpt`, as far as rewards are concerned. -/
structure Projects (s n : VaultState) (rpt : ℕ) : Prop where
  le : s.rewardPerTokenStored ≤ rpt
  stored : n.rewardPerTokenStored = rpt
  indexed : n.indexedClaimOwed =
    s.indexedClaimOwed + (rpt - s.rewardPerTokenStored) * s.totalStaked / ACC
  paid : n.userRewardPerTokenPaid = s.userRewardPerTokenPaid
  staked : n.stakedBalance = s.stakedBalance
  rewards : n.rewards = s.rewards
  credited : n.totalRewardsCredited = s.totalRewardsCredited
  claimBalance : n.claimBalance = s.claimBalance
  claimed : n.totalClaimRewardsClaimed = s.totalClaimRewardsClaimed

/-- The index stays where it is. -/
theorem Projects.idle (hstored : n.rewardPerTokenStored = s.rewardPerTokenStored)
    (hindexed : n.indexedClaimOwed = s.indexedClaimOwed)
    (hpaid : n.userRewardPerTokenPaid = s.userRewardPerTokenPaid)
    (hstaked : n.stakedBalance = s.stakedBalance) (hrewards : n.rewards = s.rewards)
    (hcredited : n.totalRewardsCredited = s.totalRewardsCredited)
    (hbalance : n.claimBalance = s.claimBalance)
    (hclaimed : n.totalClaimRewardsClaimed = s.totalClaimRewardsClaimed) :
    Projects s n s.rewardPerTokenStored :=
  ⟨le_rfl, hstored, by rw [Nat.sub_self, Nat.zero_mul, Nat.zero_div, Nat.add_zero, hindexed], hpaid,
    hstaked, hrewards, hcredited, hbalance, hclaimed⟩

/-- What a checkpoint does, against the projection. -/
def AsProjected (s : VaultState) (projected : Except Error ℕ)
    (x : Except Error VaultState) : Prop :=
  Outcome (fun n ↦ ∃ rpt, projected = .ok rpt ∧ Projects s n rpt)
    (fun e ↦ e = .RewardIndexOverflow ∨ ∃ e', projected = .error e') x

/-- The checkpoint and its projection go on from the same value. -/
theorem AsProjected.bind {x : Except Error ℕ} {f : ℕ → Except Error ℕ}
    {g : ℕ → Except Error VaultState} (h : ∀ a, x = .ok a → AsProjected s (f a) (g a)) :
    AsProjected s (x >>= f) (x >>= g) := by
  cases x with
  | ok a => exact h a rfl
  | error e => exact .inr ⟨e, rfl⟩

theorem AsProjected.last {x : Except Error ℕ} {g : ℕ → Except Error VaultState}
    (h : ∀ a, x = .ok a → AsProjected s (.ok a) (g a)) : AsProjected s x (x >>= g) := by
  cases x with
  | ok a => exact h a rfl
  | error e => exact .inr ⟨e, rfl⟩

theorem queue_projected {amount : ℕ} (hroom : s.queuedRewards + amount < uint256Bound) :
    AsProjected s (.ok s.rewardPerTokenStored) (s.queue amount) := by
  unfold AsProjected VaultState.queue
  rw [Outcome.bind_iff, outcome_uint256]
  exact ⟨fun _ ↦ ⟨_, rfl, .idle rfl rfl rfl rfl rfl rfl rfl rfl⟩, fun hlarge ↦ absurd hroom hlarge⟩

theorem index_projected {amount : ℕ} (hstaked : s.totalStaked ≠ 0)
    (hroom : s.indexedClaimOwed + s.queuedRewards + amount < uint256Bound) :
    AsProjected s (s.projectIndex amount) (s.indexRewardsWithCarry amount) := by
  have hqueue : AsProjected s (.ok s.rewardPerTokenStored) (s.queue amount) :=
    queue_projected (by omega)
  unfold VaultState.indexRewardsWithCarry VaultState.projectIndex
  by_cases hzero : amount = 0
  · rw [if_pos hzero, if_pos hzero]
    exact ⟨_, rfl, .idle rfl rfl rfl rfl rfl rfl rfl rfl⟩
  rw [if_neg hzero, if_neg hstaked, if_neg hzero]
  refine AsProjected.bind fun increment hincrement ↦ ?_
  obtain ⟨-, -, hincrement⟩ := mulDiv_eq_ok.mp hincrement
  by_cases hnone : increment = 0
  · rw [if_pos hnone, if_pos hnone]
    exact hqueue
  rw [if_neg hnone, if_neg hnone]
  have hle : increment * s.totalStaked / ACC ≤ amount :=
    Backed.index_amount_le hincrement.symm
  refine AsProjected.bind fun indexedAmount hindexed ↦ ?_
  obtain ⟨-, -, hindexed⟩ := mulDiv_eq_ok.mp hindexed
  by_cases hdust : indexedAmount = 0
  · rw [if_pos hdust, if_pos hdust]
    exact hqueue
  rw [if_neg hdust, if_neg hdust]
  refine AsProjected.last fun rpt hrpt ↦ ?_
  obtain ⟨-, rfl⟩ := uint256_eq_ok.mp hrpt
  refine Outcome.revertIf_bind (fun _ ↦ .inl rfl) fun _ ↦ ?_
  rw [Outcome.bind_iff, outcome_uint256]
  refine ⟨fun _ ↦ ?_, fun hlarge ↦ absurd (by omega) hlarge⟩
  rw [Outcome.bind_iff, outcome_usub]
  refine ⟨fun _ ↦ ?_, fun hlarge ↦ absurd (by omega) hlarge⟩
  have hqueued : s.queuedRewards + (amount - indexedAmount) < uint256Bound := by omega
  unfold VaultState.queue
  rw [Outcome.bind_iff, outcome_uint256]
  refine ⟨fun _ ↦ ?_, fun hlarge ↦ absurd hqueued hlarge⟩
  refine ⟨_, rfl, Nat.le_add_right _ _, rfl, ?_, rfl, rfl, rfl, rfl, rfl, rfl⟩
  rw [Nat.add_sub_cancel_left, hindexed]

theorem accountDelta_plain (s : VaultState) (delta : ℕ) :
    s.accountDelta delta false false = .ok { s with accountedRewardBalance := s.claimBalance } :=
  rfl

/-- The projection only looks at the index and the stakes. -/
theorem AsProjected.of_same {m : VaultState} {projected : Except Error ℕ}
    {x : Except Error VaultState} (h : AsProjected m projected x)
    (hm : Projects s m s.rewardPerTokenStored) (hstaked : m.totalStaked = s.totalStaked) :
    AsProjected s projected x := by
  refine Outcome.mono h ?_ fun _ he ↦ he
  rintro n ⟨rpt, hrpt, hn⟩
  refine ⟨rpt, hrpt, hm.stored ▸ hn.le, hn.stored, ?_, hn.paid.trans hm.paid,
    hn.staked.trans hm.staked, hn.rewards.trans hm.rewards, hn.credited.trans hm.credited,
    hn.claimBalance.trans hm.claimBalance, hn.claimed.trans hm.claimed⟩
  have hindexed := hm.indexed
  rw [Nat.sub_self, Nat.zero_mul, Nat.zero_div, Nat.add_zero] at hindexed
  rw [hn.indexed, hstaked, hindexed, hm.stored]

theorem distribute_projected {delta : ℕ}
    (hroom : s.indexedClaimOwed + s.queuedRewards + delta < uint256Bound) :
    AsProjected s
      (if s.totalStaked = 0 then .ok s.rewardPerTokenStored
        else s.projectIndex (delta + s.queuedRewards))
      (s.distribute delta) := by
  unfold VaultState.distribute
  split_ifs with hnone
  · exact queue_projected (by omega)
  have hword : (uint256 (delta + s.queuedRewards) : Except Error ℕ) =
      .ok (delta + s.queuedRewards) := uint256_eq_ok.mpr ⟨by omega, rfl⟩
  rw [hword]
  refine AsProjected.of_same (m := s.emptyQueue) ?_ (.idle rfl rfl rfl rfl rfl rfl rfl rfl) rfl
  exact index_projected hnone (by
    change s.indexedClaimOwed + 0 + (delta + s.queuedRewards) < uint256Bound
    omega)

theorem pendingRewards_eq (h : Backed s) :
    s.pendingRewards = .ok (s.claimBalance - s.accountedRewardBalance + s.queuedRewards) := by
  have haccounted := h.accounted
  have hheld := h.held
  have hbounded := h.bounded
  unfold VaultState.pendingRewards
  dsimp only
  split_ifs with hmore hqueued hqueued
  · exact uint256_eq_ok.mpr ⟨by omega, rfl⟩
  · rw [not_not.mp hqueued, Nat.add_zero]
  · rw [Nat.sub_eq_zero_of_le (not_lt.mp hmore), Nat.zero_add]
  · rw [Nat.sub_eq_zero_of_le (not_lt.mp hmore), not_not.mp hqueued]

theorem projectedRpt_eq (h : Backed s) :
    s.projectedRpt = if s.totalStaked = 0 then .ok s.rewardPerTokenStored
      else s.projectIndex (s.claimBalance - s.accountedRewardBalance + s.queuedRewards) := by
  unfold VaultState.projectedRpt
  rw [pendingRewards_eq h]
  rfl

theorem checkpoint_projected (h : Backed s) :
    AsProjected s s.projectedRpt s.checkpointPendingRewards := by
  have haccounted := h.accounted
  have hheld := h.held
  have hbounded := h.bounded
  have hroom : s.indexedClaimOwed + s.queuedRewards +
      (s.claimBalance - s.accountedRewardBalance) < uint256Bound := by omega
  have hdistribute := distribute_projected hroom
  have hnoticed : AsProjected s (if s.totalStaked = 0 then .ok s.rewardPerTokenStored
      else s.projectIndex (s.claimBalance - s.accountedRewardBalance + s.queuedRewards))
      ({ s with accountedRewardBalance := s.claimBalance }.distribute
        (s.claimBalance - s.accountedRewardBalance)) :=
    .of_same (distribute_projected (s := { s with accountedRewardBalance := s.claimBalance }) hroom)
      (.idle rfl rfl rfl rfl rfl rfl rfl rfl) rfl
  have hidle : s.claimBalance - s.accountedRewardBalance + s.queuedRewards = 0 →
      AsProjected s (if s.totalStaked = 0 then .ok s.rewardPerTokenStored
        else s.projectIndex (s.claimBalance - s.accountedRewardBalance + s.queuedRewards))
      (.ok s) := by
    intro hempty
    refine ⟨s.rewardPerTokenStored, ?_, .idle rfl rfl rfl rfl rfl rfl rfl rfl⟩
    split_ifs
    · rfl
    · exact if_pos hempty
  rw [projectedRpt_eq h]
  generalize (if s.totalStaked = 0 then .ok s.rewardPerTokenStored
    else s.projectIndex (s.claimBalance - s.accountedRewardBalance + s.queuedRewards)) =
      projected at hdistribute hnoticed hidle ⊢
  unfold VaultState.checkpointPendingRewards VaultState.checkpointRewardsFromBalanceDelta
  dsimp only
  rcases Nat.eq_zero_or_pos (s.claimBalance - s.accountedRewardBalance) with hzero | hpos
  · rw [hzero] at hdistribute hidle ⊢
    rw [if_neg (not_not.mpr rfl)]
    change AsProjected s _ (if 0 = 0 ∧ s.queuedRewards = 0 then pure s else _)
    by_cases hempty : s.queuedRewards = 0
    · rw [if_pos ⟨rfl, hempty⟩]
      exact hidle (by rw [Nat.zero_add, hempty])
    · rw [if_neg fun hboth ↦ hempty hboth.2]
      exact Outcome.bind hdistribute fun n hn ↦ hn
  · rw [if_pos hpos.ne', accountDelta_plain]
    change AsProjected s _ (if s.claimBalance - s.accountedRewardBalance = 0 ∧
      s.queuedRewards = 0 then pure _ else _)
    rw [if_neg fun hboth ↦ hpos.ne' hboth.1]
    refine Outcome.bind hnoticed ?_
    rintro n ⟨rpt, hrpt, hn⟩
    rw [if_pos hpos]
    exact ⟨rpt, hrpt, hn.le, hn.stored, hn.indexed, hn.paid, hn.staked, hn.rewards, hn.credited,
      hn.claimBalance, hn.claimed⟩

/-! ## The payout -/

/-- The view computes what the reward update would credit after the checkpoint. -/
theorem Projects.earnedWithRpt {rpt : ℕ} (h : Projects s n rpt) (hbacked : Backed n)
    (user : Address) : s.earnedWithRpt user rpt = n.earned user := by
  have hindexed := h.indexed
  have hbound := hbacked.indexed_lt
  unfold VaultState.earnedWithRpt VaultState.earned
  rw [h.stored, h.paid, h.staked, h.rewards, h.credited]
  split_ifs with hmoved hgrown
  · have hgrowth : (mulDiv (rpt - s.rewardPerTokenStored) s.totalStaked ACC : Except Error ℕ) =
        .ok ((rpt - s.rewardPerTokenStored) * s.totalStaked / ACC) :=
      mulDiv_eq_ok.mpr ⟨ACC_pos.ne', by omega, rfl⟩
    have hword : (uint256 (s.indexedClaimOwed +
        (rpt - s.rewardPerTokenStored) * s.totalStaked / ACC) : Except Error ℕ) =
          .ok n.indexedClaimOwed := uint256_eq_ok.mpr ⟨by omega, hindexed.symm⟩
    rw [hgrowth]
    change (mulDiv _ _ ACC >>= fun accrued ↦ uint256 _ >>= _) = _
    rw [hword]
    rfl
  · have hsame : n.indexedClaimOwed = s.indexedClaimOwed := by
      have hnone : (rpt - s.rewardPerTokenStored) * s.totalStaked = 0 := by
        rcases not_and_or.mp hgrown with hle | hunstaked
        · rw [Nat.sub_eq_zero_of_le (not_lt.mp hle), Nat.zero_mul]
        · rw [not_not.mp hunstaked, Nat.mul_zero]
      rw [hindexed, hnone, Nat.zero_div, Nat.add_zero]
    rw [hsame]
    rfl
  · rfl

/-- The update of a user leaves the earned rewards, or fails as `_earned` does. -/
theorem updateReward_earned (h : Backed n) (user : Address) :
    Outcome
      (fun n' ↦ n.earned user = .ok (n'.rewards user) ∧ n'.claimBalance = n.claimBalance ∧
        n'.totalClaimRewardsClaimed = n.totalClaimRewardsClaimed)
      (fun _ ↦ ∃ e, n.earned user = .error e) (n.updateReward user) := by
  have hspec := updateReward_spec h user
  cases hearned : n.earned user with
  | error e =>
      unfold VaultState.updateReward
      rw [hearned]
      exact ⟨e, rfl⟩
  | ok reward =>
      obtain ⟨n', hn'⟩ : ∃ n', n.updateReward user = .ok n' := by
        unfold VaultState.updateReward
        rw [hearned]
        exact ⟨_, rfl⟩
      rw [hn'] at hspec ⊢
      obtain rfl : n' = n.credit user (n.accrual user) := hspec
      have hreward : reward = n.rewards user + n.accrual user := (earned_spec h user).of_ok hearned
      refine ⟨?_, rfl, rfl⟩
      rw [hreward]
      exact congrArg Except.ok (update_self user _ n.rewards).symm

/-- The checkpoint of a claim leaves the previewed rewards. -/
theorem checkpoint_previewed (h : Backed s) (user : Address) :
    Outcome
      (fun n ↦ s.earnedView user = .ok (n.rewards user) ∧ n.claimBalance = s.claimBalance ∧
        n.totalClaimRewardsClaimed = s.totalClaimRewardsClaimed)
      (fun e ↦ e = .RewardIndexOverflow ∨ ∃ e', s.earnedView user = .error e')
      (checkpoint s user) := by
  have hbacked := checkpointRewards_recognised h false false
  have hprojected := checkpoint_projected h
  unfold checkpoint
  cases hcheckpoint : s.checkpointPendingRewards with
  | error e =>
      rw [hcheckpoint] at hprojected
      refine Or.imp_right ?_ hprojected
      rintro ⟨e', he'⟩
      refine ⟨e', ?_⟩
      unfold VaultState.earnedView
      rw [he']
      rfl
  | ok n =>
      rw [hcheckpoint] at hprojected
      obtain ⟨rpt, hrpt, hn⟩ := hprojected
      have hn' : Backed n := h.effects (hbacked.of_ok hcheckpoint).effects
      have hview : s.earnedView user = n.earned user := by
        unfold VaultState.earnedView
        rw [hrpt]
        exact hn.earnedWithRpt hn' user
      rw [hview]
      refine Outcome.mono (updateReward_earned hn' user) ?_ fun _ ↦ .inr
      rintro n' ⟨hreward, hbalance, hclaimed⟩
      exact ⟨hreward, hbalance.trans hn.claimBalance, hclaimed.trans hn.claimed⟩

/-- The preview of a user's rewards is what a claim transfers.  A claim that fails
does so at the bound of the index, where the preview fails, or at the counter of
all claims. -/
theorem earnedView_eq_claimed {c : Timed VaultState} (hc : system.Reachable c) (call : Call) :
    Outcome
      (fun s' ↦ ∃ reward, c.state.earnedView call.sender = .ok reward ∧
        s'.claimBalance + reward = c.state.claimBalance)
      (fun e ↦ e = .RewardIndexOverflow ∨ (∃ e', c.state.earnedView call.sender = .error e') ∨
        ∃ reward, c.state.earnedView call.sender = .ok reward ∧
          uint256Bound ≤ c.state.totalClaimRewardsClaimed + reward)
      (claimRewards call c.state) := by
  have h := reachable_backed hc
  have hpreviewed := checkpoint_previewed h call.sender
  cases hcheckpoint : checkpoint c.state call.sender with
  | error e =>
      rw [hcheckpoint] at hpreviewed
      unfold claimRewards
      dsimp only
      rw [hcheckpoint]
      exact hpreviewed.imp_right Or.inl
  | ok n =>
      rw [hcheckpoint] at hpreviewed
      obtain ⟨hview, hbalance, hclaimed⟩ := hpreviewed
      refine Outcome.mono (claimRewards_paid h hcheckpoint) ?_ ?_
      · rintro s' ⟨hpaid, -⟩
        exact ⟨_, hview, hpaid.trans hbalance⟩
      · intro e hlarge
        exact .inr (.inr ⟨_, hview, hclaimed ▸ hlarge⟩)

theorem earnedView_eq_claimed_dust : ∃ (c : Timed VaultState) (s' : VaultState) (reward : ℕ),
    system.Reachable c ∧ c.state.accountedRewardBalance < c.state.claimBalance ∧ 0 < reward ∧
      claimRewards (plainCall 4 13) c.state = .ok s' ∧ c.state.earnedView 13 = .ok reward ∧
      s'.claimBalance + reward = c.state.claimBalance := by
  have hrun : ∃ c, system.Reachable c ∧
      ((claimRewards (plainCall 4 13) c.state).toOption.any fun s' ↦
        decide (c.state.accountedRewardBalance < c.state.claimBalance ∧
          s'.claimBalance < c.state.claimBalance)) = true := by
    refine driven_witness (initial 0 1 2 3 4 0) dustRun
      (fun s ↦ (claimRewards (plainCall 4 13) s).toOption.any fun s' ↦
        decide (s.accountedRewardBalance < s.claimBalance ∧ s'.claimBalance < s.claimBalance))
      ?_ ?_ ?_
    · exact ⟨0, 1, 2, 3, 4, 0, uint256Bound_pos, rfl⟩
    · exact dustRun_sorted
    · decide +kernel
  obtain ⟨c, hc, hok⟩ := hrun
  obtain ⟨s', hclaim, hpaid⟩ := exists_ok_of_any hok
  obtain ⟨hpending, hless⟩ := of_decide_eq_true hpaid
  obtain ⟨reward, hview, hsum⟩ := (earnedView_eq_claimed hc (plainCall 4 13)).of_ok hclaim
  exact ⟨c, s', reward, hc, hpending, by omega, hclaim, hview, hsum⟩

end ClaimRush.LpStakingVault
