import ClaimRush.LpStakingVault.System
import ClaimRush.Lib.FiniteTotal
import ClaimRush.Lib.SwapPop

/-!
# Unbonding entries

The withdrawal loop drops the matured entries whatever their order, and no other
function touches stakes or entries, except the stake and unbond functions
themselves.
-/

open Function

namespace ClaimRush.LpStakingVault

open Constants VeClaimNFT

/-! ## The withdrawal loop -/

/-- The entries that a withdrawal at `nowTs` takes. -/
def matured (nowTs : ℕ) (arr : List Unbond) : List Unbond :=
  arr.filter fun u ↦ u.unlockTime ≤ nowTs

/-- The entries that a withdrawal at `nowTs` leaves. -/
def unmatured (nowTs : ℕ) (arr : List Unbond) : List Unbond :=
  arr.filter fun u ↦ ¬ u.unlockTime ≤ nowTs

def amounts (arr : List Unbond) : ℕ := (arr.map Unbond.amount).sum

/-- The events for the entries taken. -/
def withdrawals (user : Address) (arr : List Unbond) : List Event :=
  (arr.filter fun u ↦ u.amount ≠ 0).map fun u ↦ .LpUnbondWithdrawn user u.id u.amount

theorem matured_perm {nowTs : ℕ} {arr arr' : List Unbond} (h : arr.Perm arr') :
    (matured nowTs arr).Perm (matured nowTs arr') :=
  h.filter _

theorem amounts_perm {arr arr' : List Unbond} (h : arr.Perm arr') : amounts arr = amounts arr' :=
  (h.map _).sum_eq

theorem withdrawals_perm (user : Address) {arr arr' : List Unbond} (h : arr.Perm arr') :
    (withdrawals user arr).Perm (withdrawals user arr') :=
  (h.filter _).map _

theorem matured_append_unmatured (nowTs : ℕ) (arr : List Unbond) :
    (matured nowTs arr ++ unmatured nowTs arr).Perm arr := by
  simpa only [matured, unmatured, decide_not] using
    List.filter_append_perm (fun u ↦ decide (u.unlockTime ≤ nowTs)) arr

theorem amounts_append (arr arr' : List Unbond) :
    amounts (arr ++ arr') = amounts arr + amounts arr' := by
  simp [amounts]

theorem amounts_matured_le (nowTs : ℕ) (arr : List Unbond) :
    amounts (matured nowTs arr) + amounts (unmatured nowTs arr) = amounts arr := by
  rw [← amounts_append]
  exact amounts_perm (matured_append_unmatured nowTs arr)

/-- The loop from the place behind `pre` on, with fuel for every entry of `post`:
it stops by its own test, and takes the matured entries of `post`. -/
theorem withdrawLoop_from {nowTs : ℕ} {user : Address} (n : ℕ) :
    ∀ (pre post : List Unbond) (totalOut : ℕ) (events : List Event), post.length = n →
      totalOut + amounts (matured nowTs post) < uint256Bound →
      ∃ rest evs,
        (∀ fuel, n ≤ fuel → withdrawLoop nowTs user fuel (pre ++ post) pre.length totalOut events =
          .ok (rest, totalOut + amounts (matured nowTs post), events ++ evs)) ∧
        rest.Perm (pre ++ unmatured nowTs post) ∧
        evs.Perm (withdrawals user (matured nowTs post)) := by
  induction n with
  | zero =>
      intro pre post totalOut events hlength _
      obtain rfl := List.length_eq_zero_iff.mp hlength
      refine ⟨pre, [], fun fuel _ ↦ ?_, by simp [unmatured], .refl _⟩
      cases fuel with
      | zero => simp [withdrawLoop, matured, amounts]
      | succ fuel => simp [withdrawLoop, matured, amounts]
  | succ n ih =>
      intro pre post totalOut events hlength hbound
      obtain ⟨u, post, rfl⟩ := List.exists_cons_of_length_eq_add_one hlength
      rw [List.length_cons, Nat.add_right_cancel_iff] at hlength
      have hmore : pre.length < (pre ++ u :: post).length := by simp
      by_cases hmatured : u.unlockTime ≤ nowTs
      · -- The entry leaves, and the loop goes on at the same place.
        obtain ⟨post', hperm, hpop⟩ := exists_swapPop pre post u {}
        have htaken : matured nowTs (u :: post) = u :: matured nowTs post := by
          simp [matured, hmatured]
        have hrest : (matured nowTs post').Perm (matured nowTs post) := matured_perm hperm
        have hamounts := amounts_perm hrest
        have hsum : amounts (u :: matured nowTs post) =
            u.amount + amounts (matured nowTs post) := by
          simp [amounts]
        rw [htaken, hsum] at hbound
        obtain ⟨rest, evs, hloop, hleft, hevents⟩ := ih pre post' (totalOut + u.amount)
          (if u.amount ≠ 0 then events ++ [.LpUnbondWithdrawn user u.id u.amount] else events)
          (hperm.length_eq.trans hlength) (by omega)
        refine ⟨rest, withdrawals user [u] ++ evs, fun fuel hfuel ↦ ?_, ?_, ?_⟩
        · obtain ⟨fuel, rfl⟩ := Nat.exists_eq_succ_of_ne_zero (by omega : fuel ≠ 0)
          have hrun := hloop fuel (by omega)
          rw [withdrawLoop, if_pos hmore, getD_length_append_cons]
          dsimp only
          rw [if_pos hmatured, hpop, uint256, if_pos (by omega)]
          refine hrun.trans ?_
          rw [htaken, hsum, hamounts, Nat.add_assoc]
          by_cases hzero : u.amount = 0 <;> simp [withdrawals, hzero]
        · refine hleft.trans (List.Perm.append_left _ ?_)
          simpa [unmatured, hmatured] using hperm.filter fun u ↦ decide (¬ u.unlockTime ≤ nowTs)
        · rw [htaken]
          refine (List.Perm.append_left _ (hevents.trans (withdrawals_perm user hrest))).trans ?_
          by_cases hzero : u.amount = 0 <;> simp [withdrawals, hzero]
      · -- The entry stays, and the loop passes it.
        have hkept : matured nowTs (u :: post) = matured nowTs post := by
          simp [matured, hmatured]
        rw [hkept] at hbound ⊢
        obtain ⟨rest, evs, hloop, hleft, hevents⟩ :=
          ih (pre ++ [u]) post totalOut events hlength hbound
        refine ⟨rest, evs, fun fuel hfuel ↦ ?_, ?_, hevents⟩
        · obtain ⟨fuel, rfl⟩ := Nat.exists_eq_succ_of_ne_zero (by omega : fuel ≠ 0)
          have hrun := hloop fuel (by omega)
          rw [withdrawLoop, if_pos hmore, getD_length_append_cons]
          dsimp only
          rw [if_neg hmatured]
          simpa using hrun
        · refine hleft.trans (.of_eq ?_)
          simp [unmatured, not_le.mp hmatured]

/-- The loop terminates on every array, takes exactly the matured entries and
keeps the others, each once. -/
theorem withdrawLoop_spec (nowTs : ℕ) (user : Address) (arr : List Unbond) (events : List Event)
    (hbound : amounts (matured nowTs arr) < uint256Bound) :
    ∃ rest evs,
      (∀ fuel, arr.length ≤ fuel → withdrawLoop nowTs user fuel arr 0 0 events =
        .ok (rest, amounts (matured nowTs arr), events ++ evs)) ∧
      rest.Perm (unmatured nowTs arr) ∧ evs.Perm (withdrawals user (matured nowTs arr)) := by
  simpa using withdrawLoop_from arr.length [] arr 0 events rfl (by simpa using hbound)

/-! ## Functions that leave stakes and entries alone -/

/-- The entry that an event reports as started by `user`. -/
def startedBy (user : Address) : Event → Option Unbond
  | .LpUnbondStarted u id amount unlockTime =>
      if u = user then some ⟨id, amount, unlockTime⟩ else none
  | _ => none

/-- The id and amount that an event reports as withdrawn by `user`. -/
def withdrawnBy (user : Address) : Event → Option (ℕ × ℕ)
  | .LpUnbondWithdrawn u id amount => if u = user then some (id, amount) else none
  | _ => none

/-- The entries that `user` has started. -/
def started (s : VaultState) (user : Address) : List Unbond := s.events.filterMap (startedBy user)

/-- The ids and amounts that `user` has withdrawn. -/
def withdrawn (s : VaultState) (user : Address) : List (ℕ × ℕ) :=
  s.events.filterMap (withdrawnBy user)

structure SameCustody (s s' : VaultState) : Prop where
  totalStaked : s'.totalStaked = s.totalStaked
  stakedBalance : s'.stakedBalance = s.stakedBalance
  unbonds : s'.unbonds = s.unbonds
  nextUnbondId : s'.nextUnbondId = s.nextUnbondId
  started : started s' = started s
  withdrawn : withdrawn s' = withdrawn s

namespace SameCustody

variable {s s' s'' : VaultState}

theorem refl (s : VaultState) : SameCustody s s :=
  ⟨rfl, rfl, rfl, rfl, rfl, rfl⟩

theorem trans (h : SameCustody s s') (h' : SameCustody s' s'') : SameCustody s s'' where
  totalStaked := h'.totalStaked.trans h.totalStaked
  stakedBalance := h'.stakedBalance.trans h.stakedBalance
  unbonds := h'.unbonds.trans h.unbonds
  nextUnbondId := h'.nextUnbondId.trans h.nextUnbondId
  started := h'.started.trans h.started
  withdrawn := h'.withdrawn.trans h.withdrawn

theorem after (h' : SameCustody s' s'') (h : SameCustody s s') : SameCustody s s'' :=
  h.trans h'

/-- An event that reports no entry. -/
theorem emit (h : SameCustody s s') {e : Event} (hstarted : ∀ user, startedBy user e = none)
    (hwithdrawn : ∀ user, withdrawnBy user e = none) : SameCustody s (s'.emit e) where
  totalStaked := h.totalStaked
  stakedBalance := h.stakedBalance
  unbonds := h.unbonds
  nextUnbondId := h.nextUnbondId
  started := by
    rw [← h.started]
    funext user
    simp [LpStakingVault.started, VaultState.emit, List.filterMap_append, hstarted]
  withdrawn := by
    rw [← h.withdrawn]
    funext user
    simp [LpStakingVault.withdrawn, VaultState.emit, List.filterMap_append, hwithdrawn]

end SameCustody

section Frames

variable (call : Call) (s : VaultState)

theorem queue_custody (amount : ℕ) : Returns (SameCustody s) (s.queue amount) :=
  Outcome.uint256_bind trivial fun _ ↦ ⟨rfl, rfl, rfl, rfl, rfl, rfl⟩

theorem indexRewardsWithCarry_custody (amount : ℕ) :
    Returns (SameCustody s) (s.indexRewardsWithCarry amount) := by
  unfold VaultState.indexRewardsWithCarry
  refine Returns.ite (fun _ ↦ .refl s) fun _ ↦
    Returns.ite (fun _ ↦ queue_custody s amount) fun _ ↦ ?_
  refine Returns.seq fun _ _ ↦ Returns.ite (fun _ ↦ queue_custody s amount) fun _ ↦ ?_
  refine Returns.seq fun _ _ ↦ Returns.ite (fun _ ↦ queue_custody s amount) fun _ ↦ ?_
  refine Returns.seq fun _ _ ↦ Returns.guard fun _ ↦ Returns.seq fun _ _ ↦ Returns.seq fun _ _ ↦ ?_
  exact (queue_custody _ _).weaken fun _ h ↦ h.after ⟨rfl, rfl, rfl, rfl, rfl, rfl⟩

theorem distribute_custody (delta : ℕ) : Returns (SameCustody s) (s.distribute delta) := by
  unfold VaultState.distribute
  refine Returns.ite (fun _ ↦ queue_custody s delta) fun _ ↦ Returns.seq fun _ _ ↦ ?_
  exact (indexRewardsWithCarry_custody _ _).weaken fun _ h ↦ h.after ⟨rfl, rfl, rfl, rfl, rfl, rfl⟩

theorem accountDelta_custody (delta : ℕ) (countAsFurnace countAsVaultFees : Bool) :
    Returns (SameCustody s) (s.accountDelta delta countAsFurnace countAsVaultFees) := by
  unfold VaultState.accountDelta
  refine Returns.ite (fun _ ↦ ?_) fun _ ↦ Returns.ite (fun _ ↦ ?_) fun _ ↦ ?_
  · exact Returns.seq fun _ _ ↦ ⟨rfl, rfl, rfl, rfl, rfl, rfl⟩
  · exact Returns.seq fun _ _ ↦ ⟨rfl, rfl, rfl, rfl, rfl, rfl⟩
  · exact ⟨rfl, rfl, rfl, rfl, rfl, rfl⟩

theorem checkpointRewards_custody (countAsFurnace countAsVaultFees : Bool) :
    Returns (SameCustody s)
      (s.checkpointRewardsFromBalanceDelta countAsFurnace countAsVaultFees) := by
  have hrest {n : VaultState} (hn : SameCustody s n) (delta : ℕ) :
      Returns (SameCustody s)
        (if delta = 0 ∧ n.queuedRewards = 0 then pure n
        else do
          let n ← n.distribute delta
          return if delta > 0 then n.emit (.LpRewardsNotified delta) else n) := by
    refine Returns.ite (fun _ ↦ hn) fun _ ↦ ?_
    refine Outcome.bind (distribute_custody n delta) fun n' hn' ↦ ?_
    have hall := hn.trans hn'
    split_ifs
    · exact hall.emit (fun _ ↦ rfl) fun _ ↦ rfl
    · exact hall
  unfold VaultState.checkpointRewardsFromBalanceDelta
  dsimp only
  by_cases hdelta : s.claimBalance - s.accountedRewardBalance ≠ 0
  · rw [if_pos hdelta]
    exact Outcome.bind (accountDelta_custody s _ _ _) fun n hn ↦ hrest hn _
  · rw [if_neg hdelta]
    exact hrest (.refl s) _

theorem updateReward_custody (user : Address) :
    Returns (SameCustody s) (s.updateReward user) := by
  unfold VaultState.updateReward
  refine Returns.seq fun _ _ ↦ ?_
  split_ifs <;> exact ⟨rfl, rfl, rfl, rfl, rfl, rfl⟩

theorem checkpoint_custody (user : Address) : Returns (SameCustody s) (checkpoint s user) := by
  refine Outcome.bind (checkpointRewards_custody s false false) fun n hn ↦ ?_
  exact (updateReward_custody n user).weaken fun _ ↦ hn.trans

theorem decreaseAccounted_custody (amount : ℕ) :
    SameCustody s (s.decreaseAccountedRewardBalance amount) := by
  unfold VaultState.decreaseAccountedRewardBalance
  split_ifs
  · exact .trans (.emit (.refl s) (fun _ ↦ rfl) fun _ ↦ rfl) ⟨rfl, rfl, rfl, rfl, rfl, rfl⟩
  · exact ⟨rfl, rfl, rfl, rfl, rfl, rfl⟩

theorem claimRewards_custody : Returns (SameCustody s) (claimRewards call s) := by
  unfold claimRewards
  refine Outcome.bind (checkpoint_custody s call.sender) fun n hn ↦ ?_
  refine Returns.ite (fun _ ↦ hn) fun _ ↦ Returns.guard fun _ ↦ Returns.seq fun _ _ ↦ ?_
  refine SameCustody.emit (hn.trans ?_) (fun _ ↦ rfl) fun _ ↦ rfl
  exact (decreaseAccounted_custody _ _).after ⟨rfl, rfl, rfl, rfl, rfl, rfl⟩

theorem furnaceEnter_custody {s s' : VaultState} {reward : ℕ} {entry : Option FurnaceEntry}
    (h : furnaceEnter s reward entry = some s') : SameCustody s s' := by
  obtain ⟨e, -, h⟩ := Option.bind_eq_some_iff.mp h
  split_ifs at h
  obtain rfl := Option.some.inj h
  exact ⟨rfl, rfl, rfl, rfl, rfl, rfl⟩

theorem claimRewardsAndLock_custody (targetTokenId durationSeconds : ℕ) (createAutoMax : Bool)
    (minVeOut : ℕ) (quote : Option EnterQuote) (entry : Option FurnaceEntry) :
    Returns (SameCustody s) (claimRewardsAndLock call s targetTokenId durationSeconds createAutoMax
      minVeOut quote entry) := by
  unfold claimRewardsAndLock
  refine Outcome.bind (checkpoint_custody s call.sender) fun n hn ↦ ?_
  refine Returns.ite (fun _ ↦ hn) fun _ ↦ Returns.guard fun _ ↦ Returns.guard fun _ ↦ ?_
  refine Returns.guard fun _ ↦ Returns.guard fun _ ↦ Returns.seq fun _ _ ↦ Returns.guard fun _ ↦ ?_
  refine Returns.seq fun _ _ ↦ Returns.seq fun _ _ ↦ Returns.seq fun n' hentered ↦ ?_
  refine Returns.seq fun _ _ ↦ ?_
  have hn' := furnaceEnter_custody (externalCall_eq_ok.mp hentered)
  have hentered' := hn.trans (hn'.after ⟨rfl, rfl, rfl, rfl, rfl, rfl⟩)
  refine SameCustody.emit (hentered'.trans ?_) (fun _ ↦ rfl) fun _ ↦ rfl
  exact (decreaseAccounted_custody _ _).after ⟨rfl, rfl, rfl, rfl, rfl, rfl⟩

theorem compoundReward_custody (nowTs : ℕ) (user : Address) (reward tokenId : ℕ) (q : EnterQuote)
    (entry : Option FurnaceEntry) :
    Returns (SameCustody s) (s.compoundReward nowTs user reward tokenId q entry) := by
  unfold VaultState.compoundReward
  dsimp only
  split
  · rename_i e n hentered
    have hn := furnaceEnter_custody hentered
    refine Returns.seq fun _ _ ↦ ?_
    have hentered' : SameCustody s n := hn.after ⟨rfl, rfl, rfl, rfl, rfl, rfl⟩
    refine SameCustody.emit (hentered'.trans ?_) (fun _ ↦ rfl) fun _ ↦ rfl
    have hdebited := (decreaseAccounted_custody
      { n with
        indexedClaimOwed := wrapping (n.indexedClaimOwed - reward)
        lastCompoundTs := update n.lastCompoundTs user nowTs } reward).after
      (s := n) ⟨rfl, rfl, rfl, rfl, rfl, rfl⟩
    exact hdebited.trans ⟨rfl, rfl, rfl, rfl, rfl, rfl⟩
  · refine SameCustody.emit ?_ (fun _ ↦ rfl) fun _ ↦ rfl
    exact ⟨rfl, rfl, rfl, rfl, rfl, rfl⟩

theorem compoundForInternal_custody (user : Address) (replies : CompoundReplies) :
    Returns (SameCustody s) (compoundForInternal call s user replies) := by
  have hpause (n : VaultState) (tokenId : ℕ) (reason : PauseReason) :
      SameCustody n (n.pause user tokenId reason) := by
    unfold VaultState.pause
    refine SameCustody.emit ?_ (fun _ ↦ rfl) fun _ ↦ rfl
    exact ⟨rfl, rfl, rfl, rfl, rfl, rfl⟩
  unfold compoundForInternal
  refine Returns.seq fun eligibility _ ↦ ?_
  cases eligibility with
  | skip => exact .refl s
  | pause tokenId reason => exact hpause s tokenId reason
  | go tokenId lockEnd autoMax =>
      refine Outcome.bind (checkpoint_custody s user) fun n hn ↦ ?_
      refine Returns.ite (fun _ ↦ hn) fun _ ↦
        Returns.ite (fun _ ↦ hn.trans (hpause n _ _)) fun _ ↦ ?_
      cases replies.quote with
      | none => exact hn
      | some q =>
          refine Returns.ite (fun _ ↦ hn) fun _ ↦ Returns.seq fun _ _ ↦ ?_
          exact (compoundReward_custody n _ _ _ _ _ _).weaken fun _ ↦ hn.trans

theorem compoundLoop_custody (users : List (Address × CompoundReplies)) :
    ∀ s : VaultState, Returns (SameCustody s) (compoundLoop call users s) := by
  induction users with
  | nil => exact .refl
  | cons entry rest ih =>
      intro s
      refine Outcome.bind (compoundForInternal_custody call s entry.1 entry.2) fun n hn ↦ ?_
      exact (ih n).weaken fun _ ↦ hn.trans

theorem notifyRewards_custody (amountClaim : ℕ) :
    Returns (SameCustody s) (notifyRewards call s amountClaim) := by
  have hemit : SameCustody s (s.emit (.NotifyAmountDivergence amountClaim
      (s.claimBalance - s.accountedRewardBalance))) :=
    (SameCustody.refl s).emit (fun _ ↦ rfl) fun _ ↦ rfl
  unfold notifyRewards
  refine Returns.guard fun _ ↦ ?_
  have hcheckpoint {n : VaultState} (hn : SameCustody s n)
      (countAsFurnace countAsVaultFees : Bool) : Returns (SameCustody s)
        (n.checkpointRewardsFromBalanceDelta countAsFurnace countAsVaultFees) :=
    (checkpointRewards_custody n _ _).weaken fun _ ↦ hn.trans
  refine hcheckpoint ?_ _ _
  split_ifs <;> first | exact hemit | exact .refl s

theorem receiveClaim_custody (amount : ℕ) : Returns (SameCustody s) (s.receiveClaim amount) :=
  Returns.seq fun _ _ ↦ ⟨rfl, rfl, rfl, rfl, rfl, rfl⟩

theorem collectFees_custody (fees : Option ℕ) : Returns (SameCustody s) (collectFees s fees) := by
  cases fees with
  | none => exact .refl s
  | some amount => exact receiveClaim_custody s amount

theorem swapWethToClaim_custody (wethToSwap : ℕ) (swapped : Option ℕ) :
    Returns (fun r ↦ SameCustody s r.1) (swapWethToClaim s wethToSwap swapped) := by
  unfold swapWethToClaim
  refine Returns.ite (fun _ ↦ .refl s) fun _ ↦ Returns.seq fun bought _ ↦ ?_
  exact Outcome.bind (receiveClaim_custody s bought) fun _ h ↦ h

theorem harvestFeesToRewards_custody (deadline minClaimOut : ℕ) (replies : HarvestReplies) :
    Returns (SameCustody s) (harvestFeesToRewards call s deadline minClaimOut replies) := by
  unfold harvestFeesToRewards
  refine Returns.seq fun _ _ ↦ Returns.guard fun _ ↦ ?_
  refine Outcome.bind (checkpointRewards_custody s false false) fun n hn ↦ ?_
  refine Outcome.bind (collectFees_custody n replies.claimFees) fun n₁ hn₁ ↦ ?_
  have hcollected := hn.trans hn₁
  refine Returns.guard fun _ ↦ Returns.guard fun _ ↦ Returns.guard fun _ ↦ Returns.seq fun _ _ ↦ ?_
  have hignored : SameCustody s (if replies.feeWeth = 0 ∧ minClaimOut > 0 then
      n₁.emit (.HarvestMinClaimOutIgnored minClaimOut) else n₁) := by
    split_ifs
    · exact hcollected.emit (fun _ ↦ rfl) fun _ ↦ rfl
    · exact hcollected
  refine Outcome.bind (swapWethToClaim_custody _ _ _) fun r hr ↦ ?_
  have hdone {n : VaultState} (hn : SameCustody s n) (feeClaim total : ℕ) :
      SameCustody s ({ n with lastFeeHarvestTs := call.timestamp }.emit
        (.LpFeesHarvestedToRewards call.sender replies.feeWeth feeClaim total)) := by
    refine SameCustody.emit (hn.trans ?_) (fun _ ↦ rfl) fun _ ↦ rfl
    exact ⟨rfl, rfl, rfl, rfl, rfl, rfl⟩
  refine Returns.seq fun _ _ ↦ Returns.ite (fun _ ↦ ?_) fun _ ↦ hdone (hignored.trans hr) _ _
  refine Outcome.bind (checkpointRewards_custody r.1 false true) fun n hn ↦ ?_
  exact hdone ((hignored.trans hr).trans hn) _ _

theorem setAutoCompoundConfig_custody (user : Address) (cfg : AutoCompoundConfig)
    (owner : Option Address) (lock : Option LockInfo) :
    Returns (SameCustody s) (setAutoCompoundConfigInternal call s user cfg owner lock) := by
  have hunpaused : SameCustody s (if (s.autoCompound user).paused then
      s.emit (.AutoCompoundUnpaused user) else s) := by
    split_ifs
    · exact (SameCustody.refl s).emit (fun _ ↦ rfl) fun _ ↦ rfl
    · exact .refl s
  have hdone (cfg : AutoCompoundConfig) {n : VaultState} (hn : SameCustody s n) :
      SameCustody s ({ n with autoCompound := update n.autoCompound user cfg }.emit
        (.AutoCompoundConfigured user cfg)) := by
    refine SameCustody.emit (hn.trans ?_) (fun _ ↦ rfl) fun _ ↦ rfl
    exact ⟨rfl, rfl, rfl, rfl, rfl, rfl⟩
  unfold setAutoCompoundConfigInternal
  extract_lets cfg'
  split
  · exact Returns.seq fun _ _ ↦ hdone _ hunpaused
  · exact hdone _ hunpaused

end Frames

/-- Every operation but the stake and unbond functions leaves them alone. -/
theorem exec_custody (call : Call) (s : VaultState) {op : Op}
    (hstake : ∀ amount transferred, op ≠ .stake amount transferred)
    (hunbond : ∀ amount, op ≠ .beginUnbond amount)
    (hwithdraw : ∀ transferred, op ≠ .withdrawMatured transferred) :
    Returns (SameCustody s) (exec call s op) := by
  cases op with
  | stake amount transferred => exact absurd rfl (hstake amount transferred)
  | beginUnbond amount => exact absurd rfl (hunbond amount)
  | withdrawMatured transferred => exact absurd rfl (hwithdraw transferred)
  | claimRewards => exact claimRewards_custody call s
  | claimRewardsAndLock targetTokenId durationSeconds createAutoMax minVeOut quote entry =>
      exact claimRewardsAndLock_custody call s _ _ _ _ quote entry
  | compoundFor user replies => exact Returns.seq fun _ _ ↦ compoundForInternal_custody call s _ _
  | compoundForMany users maxUsers => exact Returns.seq fun _ _ ↦ compoundLoop_custody call _ s
  | notifyRewards amountClaim => exact notifyRewards_custody call s amountClaim
  | harvestFeesToRewards deadline minClaimOut replies =>
      exact harvestFeesToRewards_custody call s _ _ replies
  | transferClaim amount => exact receiveClaim_custody s amount
  | setAutoCompoundConfig cfg owner lock =>
      exact setAutoCompoundConfig_custody call s _ cfg owner lock
  | setAutoCompoundConfigForUser user cfg owner lock =>
      refine Returns.guard fun _ ↦ Returns.seq fun _ _ ↦ Returns.guard fun _ ↦ ?_
      refine Outcome.bind (setAutoCompoundConfig_custody call s user cfg owner lock) fun n hn ↦ ?_
      exact hn.emit (fun _ ↦ rfl) fun _ ↦ rfl
  | setMinHarvestClaimFloor floor =>
      refine Returns.seq fun _ _ ↦ Returns.guard fun _ ↦ ?_
      refine SameCustody.emit ?_ (fun _ ↦ rfl) fun _ ↦ rfl
      exact ⟨rfl, rfl, rfl, rfl, rfl, rfl⟩
  | setMinCompoundReward floor =>
      refine Returns.seq fun _ _ ↦ Returns.guard fun _ ↦ ?_
      refine SameCustody.emit ?_ (fun _ ↦ rfl) fun _ ↦ rfl
      exact ⟨rfl, rfl, rfl, rfl, rfl, rfl⟩
  | setHarvestKeeper keeper allowed =>
      refine Returns.seq fun _ _ ↦ Returns.guard fun _ ↦ Returns.guard fun _ ↦ ?_
      refine SameCustody.emit ?_ (fun _ ↦ rfl) fun _ ↦ rfl
      exact ⟨rfl, rfl, rfl, rfl, rfl, rfl⟩

end ClaimRush.LpStakingVault
