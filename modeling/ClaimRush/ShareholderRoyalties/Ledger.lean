import ClaimRush.ShareholderRoyalties.System

/-!
# The ledger

The part of the royalties storage that accounts for ETH.  Configuration,
wiring, watermarks and events other than flushes are not part of it.
-/

open Function

namespace ClaimRush.ShareholderRoyalties

open Constants VeClaimNFT

namespace RoyaltiesState

/-- The storage of the ETH accounting is the same. -/
structure SameLedger (r r' : RoyaltiesState) : Prop where
  balance : r'.balance = r.balance
  pending : r'.pendingShareholderETH = r.pendingShareholderETH
  indexed : r'.indexedEthOwed = r.indexedEthOwed
  crystallised : r'.totalCrystallisedStored = r.totalCrystallisedStored
  stored : r'.claimableEthStored = r.claimableEthStored
  ethPerVe : r'.ethPerVe = r.ethPerVe
  timeWeighted : r'.ethPerVeTimeWeighted = r.ethPerVeTimeWeighted
  rewardCheckpoints : r'.rewardCheckpoints = r.rewardCheckpoints
  overflowCheckpoints : r'.overflowCheckpoints = r.overflowCheckpoints
  overflowRingHead : r'.overflowRingHead = r.overflowRingHead
  paid : r'.userEthPerVePaid = r.userEthPerVePaid
  paidTimeWeighted : r'.userTimeWeightedEthPerVePaid = r.userTimeWeightedEthPerVePaid
  lastRewardTs : r'.userLastRewardTs = r.userLastRewardTs
  remainder : r'.userRewardRemainder = r.userRewardRemainder
  flushCount : r'.flushCount = r.flushCount
  ghost : r'.ghost = r.ghost

/-- Configuration, wiring and watermarks are not part of the ledger. -/
theorem sameLedger_config (r : RoyaltiesState) {configFrozen batchWiringVerified : Bool}
    {furnace mineCore mineMarket claimAllHelper : Address}
    {autoCompoundConfig : Address → AutoCompoundConfig} {isAutoCompoundKeeper : Address → Bool}
    {minAutoCompoundEth oldestObserved : ℕ} {userObserved : Address → ℕ} :
    SameLedger r
      { r with
        configFrozen := configFrozen
        furnace := furnace
        mineCore := mineCore
        mineMarket := mineMarket
        claimAllHelper := claimAllHelper
        batchWiringVerified := batchWiringVerified
        autoCompoundConfig := autoCompoundConfig
        isAutoCompoundKeeper := isAutoCompoundKeeper
        minAutoCompoundEth := minAutoCompoundEth
        oldestObservedNonAutoMaxLockEnd := oldestObserved
        userObservedMinNonAutoMaxLockEnd := userObserved } :=
  ⟨rfl, rfl, rfl, rfl, rfl, rfl, rfl, rfl, rfl, rfl, rfl, rfl, rfl, rfl, rfl, rfl⟩

theorem SameLedger.refl (r : RoyaltiesState) : SameLedger r r := sameLedger_config r

theorem SameLedger.trans {r r' r'' : RoyaltiesState} (h : SameLedger r r')
    (h' : SameLedger r' r'') : SameLedger r r'' where
  balance := h'.balance.trans h.balance
  pending := h'.pending.trans h.pending
  indexed := h'.indexed.trans h.indexed
  crystallised := h'.crystallised.trans h.crystallised
  stored := h'.stored.trans h.stored
  ethPerVe := h'.ethPerVe.trans h.ethPerVe
  timeWeighted := h'.timeWeighted.trans h.timeWeighted
  rewardCheckpoints := h'.rewardCheckpoints.trans h.rewardCheckpoints
  overflowCheckpoints := h'.overflowCheckpoints.trans h.overflowCheckpoints
  overflowRingHead := h'.overflowRingHead.trans h.overflowRingHead
  paid := h'.paid.trans h.paid
  paidTimeWeighted := h'.paidTimeWeighted.trans h.paidTimeWeighted
  lastRewardTs := h'.lastRewardTs.trans h.lastRewardTs
  remainder := h'.remainder.trans h.remainder
  flushCount := h'.flushCount.trans h.flushCount
  ghost := h'.ghost.trans h.ghost

/-- Any event but a flush. -/
def IsQuiet : Event → Prop
  | .ShareholderFlush _ _ => False
  | _ => True

theorem sameLedger_emit (r : RoyaltiesState) {e : Event} (he : IsQuiet e) :
    SameLedger r (r.emit e) := by
  refine ⟨rfl, rfl, rfl, rfl, rfl, rfl, rfl, rfl, rfl, rfl, rfl, rfl, rfl, rfl, ?_, rfl⟩
  cases e <;> simp_all [IsQuiet, flushCount, emit]

theorem SameLedger.emit {r r' : RoyaltiesState} (h : SameLedger r r') {e : Event}
    (he : IsQuiet e) : SameLedger r (r'.emit e) :=
  h.trans (sameLedger_emit r' he)

theorem sameLedger_pin (r : RoyaltiesState) (s : VeState) (user : Address) :
    SameLedger r (r.updateUserObservedMin s user) := by
  unfold updateUserObservedMin
  dsimp only
  split_ifs <;> exact sameLedger_config r

end RoyaltiesState

open RoyaltiesState

theorem sameLedger_setWatermark (r : RoyaltiesState) (newValue : ℕ) :
    SameLedger r (setWatermark newValue r) :=
  (sameLedger_config r).emit trivial

theorem sameLedger_refreshCandidates (s : VeState) (candidates : List Address)
    (r : RoyaltiesState) (minObserved : ℕ) (anyConcrete : Bool) :
    SameLedger r (refreshCandidates s candidates r minObserved anyConcrete).1 := by
  induction candidates generalizing r minObserved anyConcrete with
  | nil => exact .refl r
  | cons u us ih =>
      unfold refreshCandidates
      dsimp only
      split_ifs
      · exact ih r _ _
      · exact (sameLedger_config r).trans (ih _ _ _)
      · exact (sameLedger_config r).trans (ih _ _ _)
      · exact (sameLedger_config r).trans (ih _ _ _)

theorem sameLedger_setConfig (user : Address) (cfg : AutoCompoundConfig) (r : RoyaltiesState) :
    SameLedger r (setConfig user cfg r) :=
  sameLedger_config r

theorem sameLedger_pause (user : Address) (reason : PauseReason) (r : RoyaltiesState) :
    SameLedger r (pause user reason r) :=
  (sameLedger_setConfig user _ r).emit trivial

theorem sameLedger_reportBelowMinimum (user : Address) (amount : ℕ) (r : RoyaltiesState) :
    SameLedger r (reportBelowMinimum user amount r) := by
  unfold reportBelowMinimum
  split_ifs
  · exact sameLedger_emit r trivial
  · exact .refl r

/-! ## Reward checkpoints -/

/-- `r'` is `r` with the reward checkpoint `c` added or written. -/
structure Stored (c : RewardCheckpoint) (r r' : RoyaltiesState) : Prop where
  balance : r'.balance = r.balance
  pending : r'.pendingShareholderETH = r.pendingShareholderETH
  indexed : r'.indexedEthOwed = r.indexedEthOwed
  crystallised : r'.totalCrystallisedStored = r.totalCrystallisedStored
  stored : r'.claimableEthStored = r.claimableEthStored
  ethPerVe : r'.ethPerVe = r.ethPerVe
  timeWeighted : r'.ethPerVeTimeWeighted = r.ethPerVeTimeWeighted
  paid : r'.userEthPerVePaid = r.userEthPerVePaid
  paidTimeWeighted : r'.userTimeWeightedEthPerVePaid = r.userTimeWeightedEthPerVePaid
  lastRewardTs : r'.userLastRewardTs = r.userLastRewardTs
  remainder : r'.userRewardRemainder = r.userRewardRemainder
  flushCount : r'.flushCount = r.flushCount
  ghost : r'.ghost = r.ghost
  main : ∀ x ∈ r'.rewardCheckpoints, x ∈ r.rewardCheckpoints ∨ x = c
  overflow : ∀ x ∈ r'.overflowCheckpoints, x ∈ r.overflowCheckpoints ∨ x = c

/-- The same with the arrays given. -/
theorem stored_of_write (r : RoyaltiesState) {c : RewardCheckpoint}
    {main overflow : List RewardCheckpoint} {head : ℕ}
    (hmain : ∀ x ∈ main, x ∈ r.rewardCheckpoints ∨ x = c)
    (hoverflow : ∀ x ∈ overflow, x ∈ r.overflowCheckpoints ∨ x = c) :
    Stored c r { r with
      rewardCheckpoints := main, overflowCheckpoints := overflow, overflowRingHead := head } :=
  ⟨rfl, rfl, rfl, rfl, rfl, rfl, rfl, rfl, rfl, rfl, rfl, rfl, rfl, hmain, hoverflow⟩

theorem mem_append_one {x c : RewardCheckpoint} {l : List RewardCheckpoint} (h : x ∈ l ++ [c]) :
    x ∈ l ∨ x = c :=
  (List.mem_append.mp h).imp_right List.mem_singleton.mp

theorem Stored.of_emit {c : RewardCheckpoint} {r r' : RoyaltiesState} {e : Event}
    (h : Stored c (r.emit e) r') (he : IsQuiet e) : Stored c r r' :=
  { h with flushCount := h.flushCount.trans (sameLedger_emit r he).flushCount }

theorem storeOverflowCheckpoint_stored (r : RoyaltiesState) (rewardTs : ℕ) :
    Returns (Stored (r.snapshotAt rewardTs) r) (r.storeOverflowCheckpoint rewardTs) := by
  unfold RoyaltiesState.storeOverflowCheckpoint
  dsimp only
  split_ifs
  · exact stored_of_write r (fun _ ↦ Or.inl) fun _ ↦ List.mem_or_eq_of_mem_set
  · exact (stored_of_write (r.emit _) (fun _ ↦ Or.inl) fun _ ↦ mem_append_one).of_emit trivial
  · exact stored_of_write r (fun _ ↦ Or.inl) fun _ ↦ mem_append_one
  · exact (stored_of_write (r.emit _) (fun _ ↦ Or.inl) fun _ ↦
      List.mem_or_eq_of_mem_set).of_emit trivial
  · trivial

theorem storeRewardCheckpoint_stored (r : RoyaltiesState) (rewardTs : ℕ) :
    Returns (Stored (r.snapshotAt rewardTs) r) (r.storeRewardCheckpoint rewardTs) := by
  unfold RoyaltiesState.storeRewardCheckpoint
  dsimp only
  split_ifs
  · exact storeOverflowCheckpoint_stored r rewardTs
  · exact stored_of_write r (fun _ ↦ List.mem_or_eq_of_mem_set) fun _ ↦ Or.inl
  · exact stored_of_write r (fun _ ↦ mem_append_one) fun _ ↦ Or.inl

/-! ## Crystallisation -/

/-- The storage behind the index is the same. -/
structure SameIndex (r r' : RoyaltiesState) : Prop where
  ethPerVe : r'.ethPerVe = r.ethPerVe
  timeWeighted : r'.ethPerVeTimeWeighted = r.ethPerVeTimeWeighted
  rewardCheckpoints : r'.rewardCheckpoints = r.rewardCheckpoints
  overflowCheckpoints : r'.overflowCheckpoints = r.overflowCheckpoints
  overflowRingHead : r'.overflowRingHead = r.overflowRingHead
  flushCount : r'.flushCount = r.flushCount

theorem RoyaltiesState.SameLedger.sameIndex {r r' : RoyaltiesState} (h : SameLedger r r') :
    SameIndex r r' :=
  ⟨h.ethPerVe, h.timeWeighted, h.rewardCheckpoints, h.overflowCheckpoints, h.overflowRingHead,
    h.flushCount⟩

/-- `whole` units are credited to `user`, up to what is indexed. -/
structure Credited (user : Address) (whole : ℕ) (r r' : RoyaltiesState) : Prop where
  index : SameIndex r r'
  paid : r'.userEthPerVePaid = r.userEthPerVePaid
  paidTimeWeighted : r'.userTimeWeightedEthPerVePaid = r.userTimeWeightedEthPerVePaid
  lastRewardTs : r'.userLastRewardTs = r.userLastRewardTs
  indexed : r'.indexedEthOwed = r.indexedEthOwed - whole
  clamped : r'.ghost.clampedAccrual = r.ghost.clampedAccrual + (whole - r.indexedEthOwed)
  stored : r'.claimableEthStored =
    update r.claimableEthStored user (r.claimableEthStored user + min whole r.indexedEthOwed)

theorem Credited.emit {user : Address} {whole : ℕ} {r r' : RoyaltiesState} {e : Event}
    (h : Credited user whole r r') (he : IsQuiet e) : Credited user whole r (r'.emit e) :=
  { h with index := { h.index with
      flushCount := (sameLedger_emit r' he).flushCount.trans h.index.flushCount } }

theorem creditAccrual_credited (r : RoyaltiesState) (user : Address) (whole : ℕ) :
    Returns (fun r' ↦ Credited user whole r r' ∧ r'.userRewardRemainder = r.userRewardRemainder)
      (r.creditAccrual user whole) := by
  unfold RoyaltiesState.creditAccrual
  extract_lets credited ghost r₁
  have hmin : r.indexedEthOwed - credited = r.indexedEthOwed - whole ∧
      whole - credited = whole - r.indexedEthOwed ∧ credited = min whole r.indexedEthOwed := by
    unfold credited
    split_ifs <;> omega
  have hclamped : r₁.ghost.clampedAccrual = _ := congrArg (r.ghost.clampedAccrual + ·) hmin.2.1
  split
  · next hzero =>
      refine ⟨⟨⟨rfl, rfl, rfl, rfl, rfl, rfl⟩, rfl, rfl, rfl, ?_, hclamped, ?_⟩, rfl⟩
      · rw [← hmin.1, hzero]
        rfl
      · rw [← hmin.2.2, hzero]
        exact (update_eq_self user r.claimableEthStored).symm
  · refine Outcome.uint256_bind trivial fun _ ↦ Outcome.usub_bind trivial fun _ ↦ ?_
    refine Outcome.uint256_bind trivial fun _ ↦ ⟨Credited.emit ?_ trivial, rfl⟩
    refine ⟨⟨rfl, rfl, rfl, rfl, rfl, rfl⟩, rfl, rfl, rfl, hmin.1, hclamped, ?_⟩
    exact congrArg (fun n ↦ update _ user (_ + n)) hmin.2.2

/-- A crystallisation marks the user as paid and credits the accrual. -/
theorem crystallise_credited (r : RoyaltiesState) (s : VeState) (user : Address) :
    Returns (fun r' ↦ ∃ whole remainder minEnd,
        (r.markPaid user).computePendingAccrual s user (r.userEthPerVePaid user)
          (r.userTimeWeightedEthPerVePaid user) (r.userLastRewardTs user)
          (r.userRewardRemainder user) = .ok (whole, remainder, minEnd) ∧
        Credited user whole (r.markPaid user) r' ∧
        r'.userRewardRemainder = update r.userRewardRemainder user remainder)
      (r.crystallise s user) := by
  unfold RoyaltiesState.crystallise
  refine Returns.seq ?_
  rintro ⟨whole, remainder, minEnd⟩ hpending
  refine Outcome.bind (creditAccrual_credited _ user whole) ?_
  rintro r' ⟨hr', hremainder⟩
  refine ⟨whole, remainder, minEnd, hpending, ?_, congrArg (update · user remainder) hremainder⟩
  exact ⟨⟨hr'.index.1, hr'.index.2, hr'.index.3, hr'.index.4, hr'.index.5, hr'.index.6⟩, hr'.paid,
    hr'.paidTimeWeighted, hr'.lastRewardTs, hr'.indexed, hr'.clamped, hr'.stored⟩

end ClaimRush.ShareholderRoyalties
