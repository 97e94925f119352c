import ClaimRush.LpStakingVault.Calls

/-!
# Operations of the vault

From a state with its ledger in step, every operation is a sequence of effects.
-/

open Function Relation

namespace ClaimRush.LpStakingVault

open Constants VeClaimNFT VaultState

variable {call : Call} {s s' : VaultState}

/-! ## Stakes -/

/-- A stake goes on from the state after its checkpoint. -/
theorem stake_prepared (h : Backed s) (call : Call) (amount : ℕ) (transferred : Bool) :
    Returns (fun s' ↦ ∃ n, checkpoint s call.sender = .ok n ∧
      Prepared call.sender s n ∧ Effects n s') (stake call s amount transferred) := by
  unfold stake
  refine Returns.guard fun _ ↦ Returns.guard fun _ ↦ Returns.seq fun n hcheckpoint ↦ ?_
  have hn := (checkpoint_prepared h call.sender).of_ok hcheckpoint
  refine Returns.guard fun _ ↦ ?_
  refine Outcome.uint256_bind trivial fun _ ↦ Outcome.uint256_bind trivial fun _ ↦ ?_
  have hstaked : Effects n (n.restake call.sender (n.stakedBalance call.sender + amount)
      (n.totalStaked + amount)) :=
    .single (.restake _ _ _ hn.settled (by omega))
  dsimp only
  split_ifs with hqueued
  · refine Outcome.bind (index_effects (n.restake call.sender _ _)
      (Nat.pos_of_ne_zero hqueued.2)) fun s₂ hs₂ ↦ ⟨n, hcheckpoint, hn, ?_⟩
    exact (hstaked.trans hs₂.1).tail (.keep ((SameLedger.refl _).emit trivial))
  · exact ⟨n, hcheckpoint, hn, hstaked.tail (.keep ((SameLedger.refl _).emit trivial))⟩

theorem stake_effects (h : Backed s) (call : Call) (amount : ℕ) (transferred : Bool) :
    Returns (Effects s) (stake call s amount transferred) :=
  (stake_prepared h call amount transferred).weaken fun _ ⟨_, _, hn, hstaked⟩ ↦
    hn.effects.trans hstaked

theorem beginUnbond_effects (h : Backed s) (call : Call) (amount : ℕ) :
    Returns (Effects s) (beginUnbond call s amount) := by
  unfold beginUnbond
  dsimp only
  refine Returns.guard fun _ ↦ Returns.guard fun _ ↦ Returns.guard fun _ ↦ Returns.guard fun _ ↦ ?_
  refine Outcome.bind (checkpoint_prepared h call.sender) fun n hn ↦ ?_
  refine Outcome.usub_bind trivial fun hstaked ↦ Outcome.usub_bind trivial fun htotal ↦ ?_
  refine Outcome.uint256_bind trivial fun _ ↦ Outcome.uint256_bind trivial fun _ ↦ ?_
  have hrestaked := hn.effects.tail (.restake call.sender
    (n.stakedBalance call.sender - unbondAmount (s.stakedBalance call.sender) amount)
    (n.totalStaked - unbondAmount (s.stakedBalance call.sender) amount) hn.settled (by omega))
  exact hrestaked.tail (.keep ((sameLedger_config _).emit trivial))

theorem withdrawLoop_quiet {nowTs : ℕ} {user : Address} {fuel : ℕ} :
    ∀ {arr : List Unbond} {i totalOut : ℕ} {events : List Event},
      (∀ amount accounted, .AccountedRewardBalanceClamped amount accounted ∉ events) →
      Returns (fun r ↦ ∀ amount accounted, .AccountedRewardBalanceClamped amount accounted ∉ r.2.2)
        (withdrawLoop nowTs user fuel arr i totalOut events) := by
  induction fuel with
  | zero => exact fun h ↦ h
  | succ fuel ih =>
      intro arr i totalOut events h
      unfold withdrawLoop
      dsimp only
      split_ifs with hmore hmatured hamount
      · refine Outcome.uint256_bind trivial fun _ ↦ ih fun amount accounted hmem ↦ ?_
        rcases List.mem_append.mp hmem with hmem | hmem
        · exact h amount accounted hmem
        · cases List.mem_singleton.mp hmem
      · exact Outcome.uint256_bind trivial fun _ ↦ ih h
      · exact ih h
      · exact h

theorem withdrawMatured_effects (call : Call) (s : VaultState) (h : Backed s) (transferred : Bool) :
    Returns (Effects s) (withdrawMatured call s transferred) := by
  unfold withdrawMatured
  dsimp only
  refine Outcome.bind (withdrawLoop_quiet h.clamped) fun r hr ↦ ?_
  have hsame : SameLedger s
      { s with unbonds := update s.unbonds call.sender r.1, events := r.2.2 } :=
    ⟨rfl, rfl, rfl, rfl, rfl, rfl, rfl, rfl, rfl, rfl, rfl, fun _ ↦ hr⟩
  split_ifs
  · exact .single (.keep hsame)
  · exact Returns.guard fun _ ↦ .single (.keep hsame)

/-! ## Payouts -/

theorem Backed.clear_credited (h : Backed s) (user : Address) :
    wrapping (s.totalRewardsCredited - s.rewards user) =
      s.totalRewardsCredited - s.rewards user := by
  have hcovered := h.covered
  have hbound := h.indexed_lt
  exact wrapping_sub_cast (h.rewards_le user) (by omega)

theorem Backed.clear_indexed (h : Backed s) (user : Address) :
    wrapping (s.indexedClaimOwed - s.rewards user) = s.indexedClaimOwed - s.rewards user :=
  wrapping_sub_cast ((h.rewards_le user).trans h.covered) h.indexed_lt

theorem decreaseAccounted_eq {amount : ℕ} (h : amount ≤ s.accountedRewardBalance) :
    s.decreaseAccountedRewardBalance amount =
      { s with accountedRewardBalance := s.accountedRewardBalance - amount } :=
  if_neg (not_lt.mpr h)

theorem Backed.rewards_le_accounted (h : Backed s) (user : Address) :
    s.rewards user ≤ s.accountedRewardBalance := by
  have := h.rewards_le user
  have := h.covered
  have := h.accounted
  omega

theorem claimRewards_effects (h : Backed s) (call : Call) :
    Returns (Effects s) (claimRewards call s) := by
  unfold claimRewards
  dsimp only
  refine Outcome.bind (checkpoint_prepared h call.sender) fun n hn ↦ ?_
  split_ifs with hnone
  · exact hn.effects
  refine Returns.guard fun _ ↦ Outcome.uint256_bind trivial fun _ ↦ ?_
  have hpaid := hn.effects.tail (.payOut call.sender)
  rw [decreaseAccounted_eq]
  · refine hpaid.tail (.keep (SameLedger.emit ?_ trivial))
    exact ⟨rfl, rfl, rfl, rfl, rfl, rfl, rfl, rfl, hn.backed.clear_indexed _,
      hn.backed.clear_credited _, rfl, .of_events rfl⟩
  · exact hn.backed.rewards_le_accounted _

/-- A payout during which the Furnace streams CLAIM to the vault. -/
theorem furnace_payOut {n n' : VaultState} {user : Address} {e : FurnaceEntry}
    (hheld : n.rewards user ≤ n.claimBalance)
    (hbound : n.claimBalance + e.streamed < uint256Bound)
    (hsame : SameLedger
      { n.payOut user with
        claimBalance := n.claimBalance + e.streamed - n.rewards user
        ghost := { n.ghost with received := n.ghost.received + e.streamed } } n') :
    Effects n n' := by
  refine .tail (.tail (.single (.payOut user)) (.receive e.streamed ?_)) (.keep hsame)
  have hbalance : n.claimBalance - n.rewards user + e.streamed =
      n.claimBalance + e.streamed - n.rewards user := by
    omega
  refine bind_eq_ok_iff.mpr ⟨n.claimBalance + e.streamed - n.rewards user, ?_, rfl⟩
  refine uint256_eq_ok.mpr ⟨?_, hbalance⟩
  exact (Nat.le_of_eq hbalance).trans_lt ((Nat.sub_le _ _).trans_lt hbound)

theorem furnaceEnter_eq_some {reward : ℕ} {entry : Option FurnaceEntry}
    (h : furnaceEnter s reward entry = some s') :
    ∃ e, entry = some e ∧ reward ≤ s.claimBalance ∧ s.claimBalance + e.streamed < uint256Bound ∧
      s' = { s with
        claimBalance := s.claimBalance + e.streamed - reward
        ghost := { s.ghost with received := s.ghost.received + e.streamed } } := by
  obtain ⟨e, he, h⟩ := Option.bind_eq_some_iff.mp h
  split_ifs at h with hcond
  exact ⟨e, he, hcond.1, hcond.2, (Option.some.inj h).symm⟩

theorem claimRewardsAndLock_effects (h : Backed s) (call : Call)
    (targetTokenId durationSeconds : ℕ) (createAutoMax : Bool) (minVeOut : ℕ)
    (quote : Option EnterQuote) (entry : Option FurnaceEntry) :
    Returns (Effects s) (claimRewardsAndLock call s targetTokenId durationSeconds createAutoMax
      minVeOut quote entry) := by
  unfold claimRewardsAndLock
  dsimp only
  refine Outcome.bind (checkpoint_prepared h call.sender) fun n hn ↦ ?_
  split_ifs with hnone
  · exact hn.effects
  refine Returns.guard fun _ ↦ Returns.guard fun _ ↦ Returns.guard fun _ ↦ Returns.guard fun _ ↦ ?_
  refine Outcome.uint256_bind trivial fun _ ↦ Returns.guard fun _ ↦ Returns.seq fun q _ ↦ ?_
  refine Returns.seq fun e _ ↦ Returns.seq fun n' hentered ↦ Outcome.uint256_bind trivial fun _ ↦ ?_
  obtain ⟨e', -, hheld, hbound, rfl⟩ :=
    furnaceEnter_eq_some (externalCall_eq_ok.mp hentered)
  refine hn.effects.trans (furnace_payOut hheld hbound ?_)
  rw [decreaseAccounted_eq]
  · refine SameLedger.emit ?_ trivial
    exact ⟨rfl, rfl, rfl, rfl, rfl, rfl, rfl, rfl, hn.backed.clear_indexed _,
      hn.backed.clear_credited _, rfl, .of_events rfl⟩
  · exact hn.backed.rewards_le_accounted _

/-! ## Auto-compound -/

/-- A failed Furnace call leaves the ledger as it was, with the user paused. -/
theorem debit_restored (h : Backed s) (user : Address) :
    SameLedger s { s with
      rewards := update (update s.rewards user 0) user (s.rewards user)
      totalRewardsCredited :=
        wrapping (wrapping (s.totalRewardsCredited - s.rewards user) + s.rewards user) } := by
  have hle := h.rewards_le user
  have hcovered := h.covered
  have hbound := h.indexed_lt
  have hcredited : wrapping (wrapping (s.totalRewardsCredited - s.rewards user) + s.rewards user) =
      s.totalRewardsCredited := by
    rw [wrapping_sub_cast hle (by omega), wrapping_add_cast (by omega), Nat.sub_add_cancel hle]
  have hrewards : update (update s.rewards user 0) user (s.rewards user) = s.rewards := by
    rw [update_idem, update_eq_self]
  exact ⟨rfl, rfl, rfl, rfl, rfl, hrewards, rfl, rfl, rfl, hcredited, rfl, .of_events rfl⟩

theorem compoundReward_effects (h : Backed s) (nowTs : ℕ) (user : Address) (tokenId : ℕ)
    (q : EnterQuote) (entry : Option FurnaceEntry) :
    Returns (Effects s) (s.compoundReward nowTs user (s.rewards user) tokenId q entry) := by
  unfold VaultState.compoundReward
  dsimp only
  split
  · rename_i e n' hentered
    obtain ⟨e', -, hheld, hbound, rfl⟩ := furnaceEnter_eq_some hentered
    rw [decreaseAccounted_eq]
    · refine Outcome.uint256_bind trivial fun _ ↦ furnace_payOut hheld hbound ?_
      refine SameLedger.emit ?_ trivial
      exact ⟨rfl, rfl, rfl, rfl, rfl, rfl, rfl, rfl, h.clear_indexed _, h.clear_credited _, rfl,
        .of_events rfl⟩
    · exact h.rewards_le_accounted user
  · exact .single (.keep ((debit_restored h user).trans ((sameLedger_config _).emit trivial)))

theorem compoundForInternal_effects (h : Backed s) (call : Call) (user : Address)
    (replies : CompoundReplies) :
    Returns (Effects s) (compoundForInternal call s user replies) := by
  have hpause (n : VaultState) (tokenId : ℕ) (reason : PauseReason) :
      SameLedger n (n.pause user tokenId reason) := (sameLedger_config _).emit trivial
  unfold compoundForInternal
  refine Returns.seq fun eligibility _ ↦ ?_
  cases eligibility with
  | skip => exact ReflTransGen.refl
  | pause tokenId reason => exact .single (.keep (hpause s tokenId reason))
  | go tokenId lockEnd autoMax =>
      refine Outcome.bind (checkpoint_prepared h user) fun n hn ↦ ?_
      refine Returns.ite (fun _ ↦ hn.effects) fun _ ↦ ?_
      refine Returns.ite (fun _ ↦ hn.effects.tail (.keep (hpause n _ _))) fun _ ↦ ?_
      cases replies.quote with
      | none => exact hn.effects
      | some q =>
          refine Returns.ite (fun _ ↦ hn.effects) fun _ ↦ Returns.seq fun _ _ ↦ ?_
          exact (compoundReward_effects hn.backed _ _ _ _ _).weaken fun _ ↦ hn.effects.trans

theorem compoundLoop_effects (call : Call) (users : List (Address × CompoundReplies)) :
    ∀ {s : VaultState}, Backed s → Returns (Effects s) (compoundLoop call users s) := by
  induction users with
  | nil => exact fun _ ↦ ReflTransGen.refl
  | cons entry rest ih =>
      intro s h
      refine Outcome.bind (compoundForInternal_effects h call entry.1 entry.2) fun n hn ↦ ?_
      exact (ih (h.effects hn)).weaken fun _ ↦ hn.trans

/-! ## Notifications and harvests -/

theorem notifyRewards_effects (h : Backed s) (call : Call) (amountClaim : ℕ) :
    Returns (Effects s) (notifyRewards call s amountClaim) := by
  unfold notifyRewards
  dsimp only
  refine Returns.guard fun _ ↦ ?_
  have hcheckpoint {n : VaultState} (hn : SameLedger s n) (countAsFurnace countAsVaultFees : Bool) :
      Returns (Effects s) (n.checkpointRewardsFromBalanceDelta countAsFurnace countAsVaultFees) :=
    (checkpointRewards_recognised (h.congr hn) _ _).weaken fun _ hs' ↦
      .trans (.single (.keep hn)) hs'.effects
  have hemit := (SameLedger.refl s).emit (e := .NotifyAmountDivergence amountClaim
    (s.claimBalance - s.accountedRewardBalance)) trivial
  refine hcheckpoint ?_ _ _
  split_ifs <;> first | exact hemit | exact .refl s

theorem receiveClaim_effects (s : VaultState) (amount : ℕ) :
    Returns (Effects s) (s.receiveClaim amount) :=
  Returns.iff_forall.mpr fun _ h ↦ .single (.receive amount h)

theorem collectFees_effects (s : VaultState) (fees : Option ℕ) :
    Returns (Effects s) (collectFees s fees) := by
  cases fees with
  | none => exact ReflTransGen.refl
  | some amount => exact receiveClaim_effects s amount

theorem swapWethToClaim_effects (s : VaultState) (wethToSwap : ℕ) (swapped : Option ℕ) :
    Returns (fun r ↦ Effects s r.1) (swapWethToClaim s wethToSwap swapped) := by
  unfold swapWethToClaim
  split_ifs
  · exact ReflTransGen.refl
  · refine Returns.seq fun bought _ ↦ Outcome.bind (receiveClaim_effects s bought) ?_
    exact fun _ h ↦ h

theorem harvestFeesToRewards_effects (h : Backed s) (call : Call) (deadline minClaimOut : ℕ)
    (replies : HarvestReplies) :
    Returns (Effects s) (harvestFeesToRewards call s deadline minClaimOut replies) := by
  unfold harvestFeesToRewards
  refine Returns.seq fun _ _ ↦ Returns.guard fun _ ↦ ?_
  refine Outcome.bind (checkpointRewards_recognised h false false) fun n hn ↦ ?_
  refine Outcome.bind (collectFees_effects n replies.claimFees) fun n₁ hn₁ ↦ ?_
  have hcollected := hn.effects.trans hn₁
  refine Returns.guard fun _ ↦ Returns.guard fun _ ↦ Returns.guard fun _ ↦ Returns.seq fun _ _ ↦ ?_
  have hignored : Effects s (if replies.feeWeth = 0 ∧ minClaimOut > 0 then
      n₁.emit (.HarvestMinClaimOutIgnored minClaimOut) else n₁) := by
    split_ifs
    · exact hcollected.tail (.keep ((SameLedger.refl n₁).emit trivial))
    · exact hcollected
  refine Outcome.bind (swapWethToClaim_effects _ _ _) fun r hr ↦ ?_
  have hswapped := hignored.trans hr
  have hdone {n₃ : VaultState} (hn₃ : Effects s n₃) {e : Event} (he : IsQuiet e) :
      Effects s ({ n₃ with lastFeeHarvestTs := call.timestamp }.emit e) :=
    hn₃.tail (.keep ((sameLedger_config n₃).emit he))
  refine Outcome.uint256_bind trivial fun _ ↦ ?_
  refine Returns.ite (fun _ ↦ ?_) fun _ ↦ hdone hswapped trivial
  refine Outcome.bind (checkpointRewards_recognised (h.effects hswapped) false true) ?_
  exact fun n₃ hn₃ ↦ hdone (hswapped.trans hn₃.effects) trivial

/-! ## Every operation -/

theorem setAutoCompoundConfig_effects (call : Call) (s : VaultState) (user : Address)
    (cfg : AutoCompoundConfig) (owner : Option Address) (lock : Option LockInfo) :
    Returns (Effects s) (setAutoCompoundConfigInternal call s user cfg owner lock) := by
  have hdone {n : VaultState} (hn : SameLedger s n) (cfg : AutoCompoundConfig) :
      Effects s ({ n with autoCompound := update n.autoCompound user cfg }.emit
        (.AutoCompoundConfigured user cfg)) :=
    .single (.keep (hn.trans ((sameLedger_config n).emit trivial)))
  have hunpaused : SameLedger s (if (s.autoCompound user).paused then
      s.emit (.AutoCompoundUnpaused user) else s) := by
    split_ifs
    · exact (SameLedger.refl s).emit trivial
    · exact .refl s
  unfold setAutoCompoundConfigInternal
  extract_lets cfg'
  split
  · exact Returns.seq fun _ _ ↦ hdone hunpaused _
  · exact hdone hunpaused _

theorem exec_effects (h : Backed s) (call : Call) (op : Op) :
    Returns (Effects s) (exec call s op) := by
  cases op with
  | stake amount transferred => exact stake_effects h call amount transferred
  | beginUnbond amount => exact beginUnbond_effects h call amount
  | withdrawMatured transferred => exact withdrawMatured_effects call s h transferred
  | claimRewards => exact claimRewards_effects h call
  | claimRewardsAndLock targetTokenId durationSeconds createAutoMax minVeOut quote entry =>
      exact claimRewardsAndLock_effects h call _ _ _ _ quote entry
  | compoundFor user replies =>
      exact Returns.seq fun _ _ ↦ compoundForInternal_effects h call user replies
  | compoundForMany users maxUsers =>
      exact Returns.seq fun _ _ ↦ compoundLoop_effects call _ h
  | notifyRewards amountClaim => exact notifyRewards_effects h call amountClaim
  | harvestFeesToRewards deadline minClaimOut replies =>
      exact harvestFeesToRewards_effects h call deadline minClaimOut replies
  | transferClaim amount => exact receiveClaim_effects s amount
  | setAutoCompoundConfig cfg owner lock =>
      exact setAutoCompoundConfig_effects call s _ cfg owner lock
  | setAutoCompoundConfigForUser user cfg owner lock =>
      refine Returns.guard fun _ ↦ Returns.seq fun _ _ ↦ Returns.guard fun _ ↦ ?_
      refine Outcome.bind (setAutoCompoundConfig_effects call s user cfg owner lock) fun n hn ↦ ?_
      exact hn.tail (.keep ((SameLedger.refl n).emit trivial))
  | setMinHarvestClaimFloor floor =>
      refine Returns.seq fun _ _ ↦ Returns.guard fun _ ↦ ?_
      exact .single (.keep ((sameLedger_config s).emit trivial))
  | setMinCompoundReward floor =>
      refine Returns.seq fun _ _ ↦ Returns.guard fun _ ↦ ?_
      exact .single (.keep ((sameLedger_config s).emit trivial))
  | setHarvestKeeper keeper allowed =>
      refine Returns.seq fun _ _ ↦ Returns.guard fun _ ↦ Returns.guard fun _ ↦ ?_
      exact .single (.keep ((sameLedger_config s).emit trivial))

end ClaimRush.LpStakingVault
