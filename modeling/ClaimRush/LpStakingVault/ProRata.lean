import ClaimRush.LpStakingVault.Conservation

/-!
# Pro-rata solvency

What the index has promised to the stakers is followed through every effect: it
never exceeds what is unallocated by more than the rounding of the index
updates, and nobody shares in CLAIM that was indexed before joining.
-/

open Function Relation

namespace ClaimRush.LpStakingVault

open Constants VeClaimNFT

/-! ## The promise of the index -/

namespace VaultState

/-- `unclampedAccrual` before the division. -/
def scaledAccrual (s : VaultState) (user : Address) : ℕ :=
  s.stakedBalance user * (s.rewardPerTokenStored - s.userRewardPerTokenPaid user)

variable {s : VaultState} {user : Address}

theorem unclampedAccrual_eq (s : VaultState) (user : Address) :
    s.unclampedAccrual user = s.scaledAccrual user / ACC := rfl

theorem scaledAccrual_settled (h : s.userRewardPerTokenPaid user = s.rewardPerTokenStored) :
    s.scaledAccrual user = 0 := by
  rw [scaledAccrual, h, Nat.sub_self, Nat.mul_zero]

theorem scaledAccrual_unstaked (h : s.stakedBalance user = 0) : s.scaledAccrual user = 0 := by
  rw [scaledAccrual, h, Nat.zero_mul]

theorem scaledAccrual_indexBy (h : s.userRewardPerTokenPaid user ≤ s.rewardPerTokenStored)
    (increment amount : ℕ) :
    (s.indexBy increment amount).scaledAccrual user =
      s.scaledAccrual user + s.stakedBalance user * increment := by
  rw [scaledAccrual, scaledAccrual, ← Nat.mul_add, ← Nat.sub_add_comm h]
  rfl

theorem scaledAccrual_credit (s : VaultState) (user : Address) (accrued : ℕ) :
    (s.credit user accrued).scaledAccrual = update s.scaledAccrual user 0 := by
  funext u
  by_cases hu : u = user
  · subst hu
    rw [update_self]
    exact scaledAccrual_settled (update_self _ _ _)
  · rw [update_of_ne hu, scaledAccrual, scaledAccrual]
    exact congrArg (fun p ↦ _ * (_ - p)) (update_of_ne hu _ _)

theorem scaledAccrual_restake (h : s.userRewardPerTokenPaid user = s.rewardPerTokenStored)
    (staked total : ℕ) : (s.restake user staked total).scaledAccrual = s.scaledAccrual := by
  funext u
  by_cases hu : u = user
  · subst hu
    rw [scaledAccrual_settled h]
    exact scaledAccrual_settled h
  · rw [scaledAccrual, scaledAccrual]
    exact congrArg (· * _) (update_of_ne hu _ _)

end VaultState

theorem SameLedger.scaledAccrual {s s' : VaultState} (h : SameLedger s s') :
    s'.scaledAccrual = s.scaledAccrual := by
  funext user
  rw [VaultState.scaledAccrual, VaultState.scaledAccrual, h.stakedBalance, h.rewardPerToken, h.paid]

/-- What the index has promised, against what it holds unallocated. -/
structure ProRata (s : VaultState) : Prop where
  finite : FiniteEntries s.stakedBalance
  staked : total s.stakedBalance = s.totalStaked
  paid : ∀ user, s.userRewardPerTokenPaid user ≤ s.rewardPerTokenStored
  owed : total s.scaledAccrual + ACC * s.totalRewardsCredited ≤
    ACC * (s.indexedClaimOwed + s.ghost.indexUpdates)
  credited : ∀ user,
    ACC * s.ghost.credited user + s.scaledAccrual user ≤ s.ghost.allotted user
  received : s.ghost.indexed + s.queuedRewards + (s.claimBalance - s.accountedRewardBalance) =
    s.ghost.received

namespace ProRata

variable {s s' : VaultState}

theorem finite_scaled (h : ProRata s) : FiniteEntries s.scaledAccrual :=
  h.finite.mono fun _ ↦ VaultState.scaledAccrual_unstaked

end ProRata

/-- One index update allots less than one wei more than it moves. -/
theorem allotted_lt (increment staked : ℕ) :
    staked * increment < ACC * (increment * staked / ACC + 1) := by
  have hfloor := Nat.lt_div_mul_add (a := increment * staked) ACC_pos
  rw [Nat.mul_comm staked, Nat.mul_add, Nat.mul_comm ACC, Nat.mul_one]
  exact hfloor

/-- The accrual that is credited was promised. -/
theorem accrual_le (s : VaultState) (user : Address) :
    ACC * s.accrual user ≤ s.scaledAccrual user :=
  (Nat.mul_le_mul_left _ (min_le_left _ _)).trans (Nat.mul_div_le _ _)

theorem ProRata.effect {s s' : VaultState} (hb : Backed s) (h : ProRata s) (heffect : Effect s s') :
    ProRata s' := by
  have hreceived := h.received
  have howed := h.owed
  cases heffect with
  | keep hsame =>
      have hscaled := hsame.scaledAccrual
      refine ⟨hsame.stakedBalance ▸ h.finite, ?_, ?_, ?_, ?_, ?_⟩
      · rw [hsame.stakedBalance, hsame.totalStaked, h.staked]
      · rw [hsame.paid, hsame.rewardPerToken]
        exact h.paid
      · rw [hscaled, hsame.credited, hsame.indexed, hsame.ghost]
        exact howed
      · rw [hsame.ghost, hscaled]
        exact h.credited
      · rw [hsame.ghost, hsame.queued, hsame.claimBalance, hsame.accounted]
        exact hreceived
  | receive amount hr =>
      obtain ⟨balance, hbalance, hr⟩ := bind_eq_ok_iff.mp hr
      obtain rfl := Except.ok.inj hr
      obtain ⟨-, rfl⟩ := uint256_eq_ok.mp hbalance
      refine ⟨h.finite, h.staked, h.paid, howed, h.credited, ?_⟩
      have hheld := hb.held
      dsimp only
      omega
  | notice =>
      refine ⟨h.finite, h.staked, h.paid, howed, h.credited, ?_⟩
      simp only [VaultState.notice]
      omega
  | index increment amount hstaked hincrement hamount =>
      have hle : amount ≤ s.queuedRewards := hamount ▸ Backed.index_amount_le hincrement
      have hscaled : (s.indexBy increment amount).scaledAccrual =
          fun user ↦ s.scaledAccrual user + increment * s.stakedBalance user := by
        funext user
        rw [VaultState.scaledAccrual_indexBy (h.paid user), Nat.mul_comm increment]
      refine ⟨h.finite, h.staked, fun user ↦ (h.paid user).trans (Nat.le_add_right _ _), ?_,
        fun user ↦ ?_, ?_⟩
      · have hfinite : FiniteEntries fun user ↦ increment * s.stakedBalance user :=
          h.finite.mono fun user huser ↦ by rw [huser, Nat.mul_zero]
        have hallotted := allotted_lt increment s.totalStaked
        rw [hscaled, total_add h.finite_scaled hfinite, total_mul_left h.finite, h.staked]
        simp only [VaultState.indexBy, Nat.mul_add] at howed hallotted ⊢
        rw [← hamount, Nat.mul_comm s.totalStaked] at hallotted
        omega
      · have hcredited := h.credited user
        rw [hscaled]
        simp only [VaultState.indexBy]
        rw [Nat.mul_comm increment]
        omega
      · simp only [VaultState.indexBy]
        omega
  | credit user =>
      have hpromised := accrual_le s user
      have htotal := total_update h.finite_scaled user 0
      refine ⟨h.finite, h.staked, fun u ↦ ?_, ?_, fun u ↦ ?_, hreceived⟩
      · by_cases hu : u = user
        · subst hu
          exact (update_self _ _ _).le
        · exact (update_of_ne hu s.rewardPerTokenStored s.userRewardPerTokenPaid).trans_le
            (h.paid u)
      · rw [VaultState.scaledAccrual_credit]
        simp only [VaultState.credit, Nat.mul_add] at howed ⊢
        omega
      · have hcredited := h.credited u
        rw [VaultState.scaledAccrual_credit]
        simp only [VaultState.credit]
        by_cases hu : u = user
        · subst hu
          rw [update_self, update_self, Nat.mul_add]
          omega
        · rwa [update_of_ne hu, update_of_ne hu]
  | restake user staked total hsettled htotal =>
      have htotals := total_update h.finite user staked
      have hstaked := h.staked
      refine ⟨h.finite.update _ _, ?_, h.paid, ?_, ?_, hreceived⟩
      · simp only [VaultState.restake]
        omega
      · rw [VaultState.scaledAccrual_restake hsettled]
        exact howed
      · rw [VaultState.scaledAccrual_restake hsettled]
        exact h.credited
  | payOut user =>
      have hle := hb.rewards_le user
      have hcovered := hb.covered
      have haccounted := hb.rewards_le_accounted user
      have hheld := hb.held
      refine ⟨h.finite, h.staked, h.paid, ?_, h.credited, ?_⟩
      · have hcredited : s.totalRewardsCredited - s.rewards user + s.rewards user =
            s.totalRewardsCredited := Nat.sub_add_cancel hle
        have hindexed : s.indexedClaimOwed - s.rewards user + s.rewards user =
            s.indexedClaimOwed := Nat.sub_add_cancel (hle.trans hcovered)
        rw [← hcredited, ← hindexed] at howed
        change total s.scaledAccrual + ACC * (s.totalRewardsCredited - s.rewards user) ≤
          ACC * (s.indexedClaimOwed - s.rewards user + s.ghost.indexUpdates)
        simp only [Nat.mul_add] at howed ⊢
        omega
      · simp only [VaultState.payOut]
        omega

theorem initial_proRata (self owner claim ve furnace : Address) (balance : ℕ) :
    ProRata (initial self owner claim ve furnace balance) := by
  have hscaled : (initial self owner claim ve furnace balance).scaledAccrual = fun _ ↦ 0 :=
    funext fun _ ↦ VaultState.scaledAccrual_unstaked rfl
  refine ⟨finiteEntries_zero, total_zero, fun _ ↦ le_rfl, ?_, fun _ ↦ ?_, ?_⟩
  · rw [hscaled, total_zero]
    exact Nat.le_of_eq rfl
  · rw [hscaled]
    exact le_rfl
  · simp [initial]

theorem ProRata.effects {s s' : VaultState} (hb : Backed s) (h : ProRata s)
    (heffects : Effects s s') : ProRata s' :=
  (heffects.invariant (I := fun s ↦ Backed s ∧ ProRata s)
    (fun _ _ heffect hs ↦ ⟨hs.1.effect heffect, hs.2.effect hs.1 heffect⟩) ⟨hb, h⟩).2

theorem reachable_proRata {c : Timed VaultState} (hc : system.Reachable c) : ProRata c.state := by
  refine (driven_invariant (I := fun s ↦ Backed s ∧ ProRata s) ?_ ?_ hc).2
  · rintro s ⟨self, owner, claim, ve, furnace, balance, hbalance, rfl⟩
    exact ⟨initial_backed hbalance, initial_proRata self owner claim ve furnace balance⟩
  · exact fun c s h ↦ (exec_effects h.1 c.1 c.2).weaken fun _ heffects ↦
      ⟨h.1.effects heffects, h.2.effects h.1 heffects⟩

theorem ProRata.finite_unclamped {s : VaultState} (h : ProRata s) :
    FiniteEntries s.unclampedAccrual :=
  h.finite_scaled.mono fun u hu ↦ by rw [VaultState.unclampedAccrual_eq, hu, Nat.zero_div]

theorem ProRata.total_unclamped_le {s : VaultState} (hb : Backed s) (h : ProRata s) :
    total s.unclampedAccrual ≤
      s.indexedClaimOwed - s.totalRewardsCredited + s.ghost.indexUpdates := by
  have hfinite := h.finite_unclamped
  have hfloor : total (fun u ↦ ACC * s.unclampedAccrual u) ≤ total s.scaledAccrual :=
    total_mono (hfinite.mono fun u hu ↦ by rw [hu, Nat.mul_zero]) h.finite_scaled
      fun u ↦ Nat.mul_div_le _ _
  have howed := h.owed
  have hcovered := Nat.mul_le_mul_left ACC hb.covered
  rw [total_mul_left hfinite] at hfloor
  refine Nat.le_of_mul_le_mul_left ?_ ACC_pos
  rw [Nat.mul_add] at howed ⊢
  rw [Nat.mul_sub]
  omega

/-! ## From one state on -/

/-- How the earnings of the users move from `n` to a later state. -/
structure Grown (n m : VaultState) : Prop where
  received : n.ghost.received ≤ m.ghost.received
  indexed : n.ghost.indexed ≤ m.ghost.indexed
  updates : n.ghost.indexUpdates ≤ m.ghost.indexUpdates
  credited : ∀ u, n.ghost.credited u ≤ m.ghost.credited u
  earned : ∀ u, ACC * m.ghost.credited u + m.scaledAccrual u + n.ghost.allotted u ≤
    m.ghost.allotted u + n.scaledAccrual u + ACC * n.ghost.credited u
  allotted : ∀ J : Finset Address,
    ∑ u ∈ J, m.ghost.allotted u + ACC * (n.ghost.indexed + n.ghost.indexUpdates) ≤
      ∑ u ∈ J, n.ghost.allotted u + ACC * (m.ghost.indexed + m.ghost.indexUpdates)

theorem Grown.refl (n : VaultState) : Grown n n :=
  ⟨le_rfl, le_rfl, le_rfl, fun _ ↦ le_rfl, fun _ ↦ by omega, fun _ ↦ le_rfl⟩

theorem Grown.trans {n m k : VaultState} (h : Grown n m) (h' : Grown m k) : Grown n k where
  received := h.received.trans h'.received
  indexed := h.indexed.trans h'.indexed
  updates := h.updates.trans h'.updates
  credited u := (h.credited u).trans (h'.credited u)
  earned u := by
    have := h.earned u
    have := h'.earned u
    omega
  allotted J := by
    have := h.allotted J
    have := h'.allotted J
    omega

/-- Nothing is allotted or credited. -/
theorem Grown.of_same {n m : VaultState} (hindexed : m.ghost.indexed = n.ghost.indexed)
    (hupdates : m.ghost.indexUpdates = n.ghost.indexUpdates)
    (hallotted : m.ghost.allotted = n.ghost.allotted)
    (hcredited : m.ghost.credited = n.ghost.credited) (hscaled : m.scaledAccrual = n.scaledAccrual)
    (hreceived : n.ghost.received ≤ m.ghost.received) : Grown n m := by
  refine ⟨hreceived, hindexed.ge, hupdates.ge, fun _ ↦ hcredited ▸ le_rfl, fun u ↦ ?_, fun J ↦ ?_⟩
  · rw [hallotted, hcredited, hscaled]
    omega
  · rw [hindexed, hupdates, hallotted]

theorem sum_le_total {f : Address → ℕ} (hf : FiniteEntries f) (J : Finset Address) :
    ∑ u ∈ J, f u ≤ total f := by
  classical
  rw [total_eq_sum (s := J ∪ hf.toFinset) fun u hu ↦
    Finset.mem_union_right _ (hf.mem_toFinset.mpr hu)]
  exact Finset.sum_le_sum_of_subset Finset.subset_union_left

theorem Effect.grown {s s' : VaultState} (h : ProRata s) (heffect : Effect s s') : Grown s s' := by
  cases heffect with
  | keep hsame =>
      have hghost := hsame.ghost
      exact .of_same (by rw [hghost]) (by rw [hghost]) (by rw [hghost]) (by rw [hghost])
        hsame.scaledAccrual (by rw [hghost])
  | receive amount hr =>
      obtain ⟨balance, -, hr⟩ := bind_eq_ok_iff.mp hr
      obtain rfl := Except.ok.inj hr
      exact .of_same rfl rfl rfl rfl rfl (Nat.le_add_right _ _)
  | notice => exact .of_same rfl rfl rfl rfl rfl le_rfl
  | index increment amount hstaked hincrement hamount =>
      refine ⟨le_rfl, Nat.le_add_right _ _, Nat.le_add_right _ _, fun _ ↦ le_rfl, fun u ↦ ?_,
        fun J ↦ ?_⟩
      · rw [VaultState.scaledAccrual_indexBy (h.paid u)]
        simp only [VaultState.indexBy]
        omega
      · have hmoved := allotted_lt increment s.totalStaked
        have hjoined := Nat.mul_le_mul_right increment (sum_le_total h.finite J)
        rw [h.staked] at hjoined
        simp only [VaultState.indexBy, Finset.sum_add_distrib, ← Finset.sum_mul]
        rw [← hamount] at hmoved
        have hscaled : ACC * (s.ghost.indexed + amount + (s.ghost.indexUpdates + 1)) =
            ACC * (s.ghost.indexed + s.ghost.indexUpdates) + ACC * (amount + 1) := by
          rw [← Nat.mul_add]
          exact congrArg (ACC * ·) (by omega)
        omega
  | credit user =>
      refine ⟨le_rfl, le_rfl, le_rfl, fun u ↦ ?_, fun u ↦ ?_, fun _ ↦ le_rfl⟩
      · simp only [VaultState.credit]
        by_cases hu : u = user
        · subst hu
          rw [update_self]
          exact Nat.le_add_right _ _
        · rw [update_of_ne hu]
      · have hpromised := accrual_le s user
        rw [VaultState.scaledAccrual_credit]
        simp only [VaultState.credit]
        by_cases hu : u = user
        · subst hu
          rw [update_self, update_self, Nat.mul_add]
          omega
        · rw [update_of_ne hu, update_of_ne hu]
          omega
  | restake user staked total hsettled htotal =>
      exact .of_same rfl rfl rfl rfl (VaultState.scaledAccrual_restake hsettled _ _) le_rfl
  | payOut user => exact .of_same rfl rfl rfl rfl rfl le_rfl

theorem Effects.grown {s s' : VaultState} (hb : Backed s) (h : ProRata s)
    (heffects : Effects s s') : Grown s s' := by
  induction heffects with
  | refl => exact .refl s
  | tail heffects heffect ih => exact ih.trans (heffect.grown (h.effects hb heffects))

/-- The earnings of users who have nothing pending at `n`. -/
theorem Grown.earnings_le {n m : VaultState} (h : Grown n m) (J : Finset Address)
    (hpending : ∀ u ∈ J, n.scaledAccrual u = 0) :
    ∑ u ∈ J, (m.ghost.credited u - n.ghost.credited u + m.unclampedAccrual u) ≤
      m.ghost.indexed - n.ghost.indexed + (m.ghost.indexUpdates - n.ghost.indexUpdates) := by
  have hearned : ∀ u ∈ J,
      ACC * (m.ghost.credited u - n.ghost.credited u + m.unclampedAccrual u) + n.ghost.allotted u ≤
        m.ghost.allotted u := by
    intro u hu
    have hfloor : ACC * m.unclampedAccrual u ≤ m.scaledAccrual u := Nat.mul_div_le _ _
    have hcredited := Nat.mul_le_mul_left ACC (h.credited u)
    have := h.earned u
    rw [hpending u hu] at this
    rw [Nat.mul_add, Nat.mul_sub]
    omega
  have hsum := Finset.sum_le_sum hearned
  rw [Finset.sum_add_distrib, ← Finset.mul_sum] at hsum
  have hallotted := h.allotted J
  have hindexed := Nat.mul_le_mul_left ACC (Nat.add_le_add h.indexed h.updates)
  refine Nat.le_of_mul_le_mul_left ?_ ACC_pos
  have hgrowth : m.ghost.indexed - n.ghost.indexed + (m.ghost.indexUpdates - n.ghost.indexUpdates) =
      m.ghost.indexed + m.ghost.indexUpdates - (n.ghost.indexed + n.ghost.indexUpdates) := by
    have := h.indexed
    have := h.updates
    omega
  rw [hgrowth, Nat.mul_sub]
  omega

theorem run_effects {c c' : Timed VaultState} (hc : Backed c.state)
    (hrun : ReflTransGen system.step c c') : Effects c.state c'.state := by
  induction hrun with
  | refl => exact ReflTransGen.refl
  | tail _ hstep ih =>
      obtain ⟨⟨call, op⟩, -, hexec, -⟩ := hstep
      exact ih.trans ((exec_effects (hc.effects ih) call op).of_ok hexec)

/-! ## The pro-rata theorem -/

/-- The accruals of all stakers are covered up to the rounding of the index
updates, no user is credited more than the index has allotted, and those who join
at a stake or later earn no more than the CLAIM received since and the carry,
which is less than one wei more than the rounding of the index at the stake. -/
theorem pro_rata {c : Timed VaultState} (hc : system.Reachable c) :
    FiniteEntries c.state.unclampedAccrual ∧
    total c.state.unclampedAccrual ≤
      c.state.indexedClaimOwed - c.state.totalRewardsCredited + c.state.ghost.indexUpdates ∧
    (∀ user, ACC * c.state.ghost.credited user ≤ c.state.ghost.allotted user) ∧
    ∀ call amount transferred s' c', c.now ≤ call.timestamp → 0 < c.state.totalStaked →
      stake call c.state amount transferred = .ok s' →
      ReflTransGen system.step ⟨call.timestamp, s'⟩ c' →
      ∃ n, checkpoint c.state call.sender = .ok n ∧
        n.accountedRewardBalance = n.claimBalance ∧
        n.queuedRewards * ACC < c.state.totalStaked + ACC ∧
        c'.state.ghost.indexed - n.ghost.indexed ≤
          n.queuedRewards + (c'.state.ghost.received - c.state.ghost.received) ∧
        ∀ J : Finset Address, (∀ u ∈ J, c.state.stakedBalance u = 0 ∨ u = call.sender) →
          ∑ u ∈ J, (c'.state.ghost.credited u - n.ghost.credited u +
              c'.state.unclampedAccrual u) ≤
            n.queuedRewards + (c'.state.ghost.received - c.state.ghost.received) +
              (c'.state.ghost.indexUpdates - n.ghost.indexUpdates) := by
  have hb := reachable_backed hc
  have hp := reachable_proRata hc
  refine ⟨hp.finite_unclamped, hp.total_unclamped_le hb,
    fun user ↦ (Nat.le_add_right _ _).trans (hp.credited user), ?_⟩
  intro call amount transferred s' c' hnow hstaked hstake hrun
  obtain ⟨n, hcheckpoint, hn, hjoined⟩ := (stake_prepared hb call amount transferred).of_ok hstake
  have hnp := hp.effects hb hn.effects
  have heffects := hjoined.trans (run_effects (hn.backed.effects hjoined) hrun)
  have hgrown := Effects.grown hn.backed hnp heffects
  have hlater := hnp.effects hn.backed heffects
  have hindexed : c'.state.ghost.indexed - n.ghost.indexed ≤
      n.queuedRewards + (c'.state.ghost.received - c.state.ghost.received) := by
    have hbefore := hnp.received
    have hafter := hlater.received
    have hnoticed := hn.noticed
    have hsame := hn.received
    omega
  refine ⟨n, hcheckpoint, hn.noticed, hn.carry hstaked, hindexed, fun J hJ ↦ ?_⟩
  have hpending : ∀ u ∈ J, n.scaledAccrual u = 0 := by
    intro u hu
    rcases hJ u hu with hnone | rfl
    · exact VaultState.scaledAccrual_unstaked (hn.stakedBalance ▸ hnone)
    · exact VaultState.scaledAccrual_settled hn.settled
  exact (hgrown.earnings_le J hpending).trans (Nat.add_le_add_right hindexed _)

/-! ## Joiners and the dust of others -/

/-- Three stakers are allotted 9 of 19 wei and credited 7 of them; 10 wei wait. -/
def dustRun : List (Call × Op) :=
  [(plainCall 0 11, .stake (295 * 10 ^ 16) true),
    (plainCall 1 12, .stake (295 * 10 ^ 16) true),
    (plainCall 2 13, .stake (395 * 10 ^ 16) true),
    (plainCall 3 9, .transferClaim 19)]

theorem dustRun_sorted : (0 :: dustRun.map fun c ↦ c.1.timestamp).IsChain (· ≤ ·) := by
  decide

/-- User 22 joins after user 21, the others leave, and 22 lowers the stake step by
step, each time as soon as the carry can be indexed. -/
def joinersRun : List (Call × Op) :=
  [(plainCall 5 22, .stake (20 * 10 ^ 18) true),
    (plainCall 6 11, .beginUnbond (295 * 10 ^ 16)),
    (plainCall 7 12, .beginUnbond (295 * 10 ^ 16)),
    (plainCall 8 13, .beginUnbond (395 * 10 ^ 16)),
    (plainCall 9 22, .beginUnbond (15 * 10 ^ 18)),
    (plainCall 10 22, .beginUnbond (3 * 10 ^ 18)),
    (plainCall 11 22, .beginUnbond (10 ^ 18)),
    (plainCall 12 22, .claimRewards),
    (plainCall 13 22, .claimRewards),
    (plainCall 14 22, .beginUnbond (9 * 10 ^ 17)),
    (plainCall 15 21, .claimRewards)]

/-- What the run does to the stakes and earnings of users 21 and 22. -/
def JoinersEarn (s s' : VaultState) : Prop :=
  s.totalStaked = 985 * 10 ^ 16 ∧ s.stakedBalance 21 = 0 ∧ s.stakedBalance 22 = 0 ∧
    s.ghost.credited 21 = 0 ∧ s.ghost.credited 22 = 0 ∧ s'.ghost.credited 21 = 3 ∧
    s'.ghost.credited 22 = 9 ∧ s'.ghost.received = s.ghost.received

instance (s s' : VaultState) : Decidable (JoinersEarn s s') := by
  unfold JoinersEarn
  infer_instance

theorem joinersRun_spec : ∃ c s' c', system.Reachable c ∧ c.now ≤ (plainCall 4 21).timestamp ∧
    stake (plainCall 4 21) c.state (9 * 10 ^ 17) true = .ok s' ∧
    ReflTransGen system.step ⟨(plainCall 4 21).timestamp, s'⟩ c' ∧
    JoinersEarn c.state c'.state := by
  have hok : ((runCalls (fun c s ↦ exec c.1 s c.2) dustRun (initial 0 1 2 3 4 0)).toOption.any
      fun s ↦ (stake (plainCall 4 21) s (9 * 10 ^ 17) true).toOption.any
      fun s' ↦ (runCalls (fun c s ↦ exec c.1 s c.2) joinersRun s').toOption.any
      fun s'' ↦ decide (JoinersEarn s s'')) = true := by
    decide +kernel
  obtain ⟨s, hs, hok⟩ := (Option.any_eq_true _ _).mp hok
  obtain ⟨s', hs', hok⟩ := (Option.any_eq_true _ _).mp hok
  obtain ⟨s'', hs'', hok⟩ := (Option.any_eq_true _ _).mp hok
  have hinit : system.Reachable ⟨0, initial 0 1 2 3 4 0⟩ :=
    .init ⟨0, 1, 2, 3, 4, 0, uint256Bound_pos, rfl⟩
  have hbefore : ReflTransGen system.step ⟨0, initial 0 1 2 3 4 0⟩ ⟨4, s⟩ :=
    driven_run (toOption_eq_some.mp hs) dustRun_sorted
  have hafter : ReflTransGen system.step ⟨(plainCall 4 21).timestamp, s'⟩ ⟨16, s''⟩ :=
    driven_run (toOption_eq_some.mp hs'') (by decide)
  exact ⟨⟨4, s⟩, s', ⟨16, s''⟩, hinit.run hbefore, Nat.le_succ 4, toOption_eq_some.mp hs', hafter,
    of_decide_eq_true hok⟩

theorem pro_rata_joiners : ∃ (c : Timed VaultState) (n : VaultState) (c' : Timed VaultState),
    system.Reachable c ∧
    total c.state.unclampedAccrual ≤
      c.state.indexedClaimOwed - c.state.totalRewardsCredited + c.state.ghost.indexUpdates ∧
    n.queuedRewards * ACC < c.state.totalStaked + ACC ∧
    ∑ u ∈ ({21, 22} : Finset Address), (c'.state.ghost.credited u - n.ghost.credited u +
        c'.state.unclampedAccrual u) ≤
      n.queuedRewards + (c'.state.ghost.received - c.state.ghost.received) +
        (c'.state.ghost.indexUpdates - n.ghost.indexUpdates) := by
  obtain ⟨c, s', c', hc, hnow, hstake, hrun, htotal, h21, h22, -⟩ := joinersRun_spec
  obtain ⟨-, hcovered, -, hjoin⟩ := pro_rata hc
  have hstaked : 0 < c.state.totalStaked := htotal ▸ by decide
  obtain ⟨n, -, -, hcarry, -, hearned⟩ := hjoin _ _ _ _ _ hnow hstaked hstake hrun
  refine ⟨c, n, c', hc, hcovered, hcarry, hearned {21, 22} fun u hu ↦ ?_⟩
  rcases Finset.mem_insert.mp hu with rfl | hu
  · exact .inl h21
  · exact .inl (Finset.mem_singleton.mp hu ▸ h22)

/-- No CLAIM arrives after user 21 has joined a stake of 9.85 LP tokens, and yet the
joiners are credited 12 wei of older CLAIM: the rounding of five index updates is
paid from what the rounding of the others has left. -/
theorem joiners_earn_dust : ¬ ∀ (c c' : Timed VaultState) (call : Call) (amount : ℕ)
    (s' : VaultState) (J : Finset Address), system.Reachable c → 0 < c.state.totalStaked →
    c.now ≤ call.timestamp → stake call c.state amount true = .ok s' →
    ReflTransGen system.step ⟨call.timestamp, s'⟩ c' →
    c'.state.ghost.received = c.state.ghost.received →
    (∀ u ∈ J, c.state.stakedBalance u = 0) →
    ACC * ∑ u ∈ J, (c'.state.ghost.credited u - c.state.ghost.credited u) <
      c.state.totalStaked + ACC := by
  intro hclaim
  obtain ⟨c, s', c', hc, hnow, hstake, hrun, htotal, h21, h22, hold21, hold22, hnew21, hnew22,
    hreceived⟩ := joinersRun_spec
  have hstaked : 0 < c.state.totalStaked := htotal ▸ by decide
  have hjoined : ∀ u ∈ ({21, 22} : Finset Address), c.state.stakedBalance u = 0 := by
    intro u hu
    rcases Finset.mem_insert.mp hu with rfl | hu
    · exact h21
    · exact Finset.mem_singleton.mp hu ▸ h22
  have hlt := hclaim c c' _ _ s' {21, 22} hc hstaked hnow hstake hrun hreceived hjoined
  rw [Finset.sum_pair (by decide), hold21, hold22, hnew21, hnew22, htotal] at hlt
  revert hlt
  decide +kernel

end ClaimRush.LpStakingVault
