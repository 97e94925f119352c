import ClaimRush.LpStakingVault.Operations

/-!
# Conservation of LP rewards

Over every run the stored rewards, the debt totals, the accounted balance and
the CLAIM held stay in step, so the unchecked subtractions are exact and what is
credited can be paid.
-/

open Function Relation

namespace ClaimRush.LpStakingVault

open Constants VeClaimNFT

theorem reachable_backed {c : Timed VaultState} (hc : system.Reachable c) : Backed c.state := by
  refine driven_invariant (I := Backed) ?_ ?_ hc
  · rintro s ⟨self, owner, claim, ve, furnace, balance, hbalance, rfl⟩
    exact initial_backed hbalance
  · exact fun c s h ↦ (exec_effects h c.1 c.2).weaken fun _ ↦ h.effects

/-- The subtractions that a payout to `user` makes without a check are exact, and
the CLAIM for all credited rewards is there. -/
structure Payable (user : Address) (s : VaultState) : Prop where
  earned : Returns (s.rewards user ≤ ·) (s.earned user)
  unallocated :
    wrapping (s.indexedClaimOwed - s.totalRewardsCredited) + s.totalRewardsCredited =
      s.indexedClaimOwed
  credited :
    wrapping (s.totalRewardsCredited - s.rewards user) + s.rewards user = s.totalRewardsCredited
  indexed : wrapping (s.indexedClaimOwed - s.rewards user) + s.rewards user = s.indexedClaimOwed
  accounted : s.rewards user ≤ s.accountedRewardBalance
  paid : total s.rewards ≤ s.claimBalance

theorem Backed.payable {s : VaultState} (h : Backed s) (user : Address) : Payable user s where
  earned := (earned_spec h user).weaken fun _ hr ↦ hr ▸ Nat.le_add_right _ _
  unallocated := by
    rw [wrapping_sub_cast h.covered h.indexed_lt]
    exact Nat.sub_add_cancel h.covered
  credited := by
    rw [h.clear_credited]
    exact Nat.sub_add_cancel (h.rewards_le user)
  indexed := by
    rw [h.clear_indexed]
    exact Nat.sub_add_cancel ((h.rewards_le user).trans h.covered)
  accounted := h.rewards_le_accounted user
  paid := by
    have hcredited := h.credited
    have hcovered := h.covered
    have haccounted := h.accounted
    have hheld := h.held
    omega

/-- After its checkpoint a claim can only fail at the counter of all claims: the
CLAIM to pay is there. -/
theorem claimRewards_paid {call : Call} {s n : VaultState} (h : Backed s)
    (hn : checkpoint s call.sender = .ok n) :
    Outcome
      (fun s' ↦ s'.claimBalance + n.rewards call.sender = n.claimBalance ∧
        s'.rewards call.sender = 0)
      (fun _ ↦ uint256Bound ≤ n.totalClaimRewardsClaimed + n.rewards call.sender)
      (claimRewards call s) := by
  have hbacked : Backed n := ((checkpoint_prepared h call.sender).of_ok hn).backed
  have hle := hbacked.rewards_le_accounted call.sender
  have hheld := hle.trans hbacked.held
  unfold claimRewards
  dsimp only
  rw [hn]
  refine (Outcome.ite_iff _ _ _).mpr ⟨fun hnone ↦ ⟨by rw [hnone, Nat.add_zero], hnone⟩, fun _ ↦ ?_⟩
  refine Outcome.revertIf_bind (fun hshort ↦ absurd hshort (not_lt.mpr hheld)) fun _ ↦ ?_
  rw [Outcome.bind_iff, outcome_uint256]
  refine ⟨fun _ ↦ ?_, not_lt.mp⟩
  rw [decreaseAccounted_eq]
  · exact ⟨Nat.sub_add_cancel hheld, update_self _ _ _⟩
  · exact hle

/-- Reward accounting over every run of the vault. -/
theorem rewards_conserved {c : Timed VaultState} (hc : system.Reachable c) :
    FiniteEntries c.state.rewards ∧
    total c.state.rewards = c.state.totalRewardsCredited ∧
    c.state.totalRewardsCredited ≤ c.state.indexedClaimOwed ∧
    c.state.accountedRewardBalance =
      c.state.ghost.constructionBalance + c.state.indexedClaimOwed + c.state.queuedRewards ∧
    c.state.accountedRewardBalance ≤ c.state.claimBalance ∧
    NeverClamped c.state ∧
    (∀ user, Payable user c.state ∧ Returns (Payable user) c.state.checkpointPendingRewards ∧
      Returns (Payable user) (checkpoint c.state user)) ∧
    ∀ call n, checkpoint c.state call.sender = .ok n →
      Outcome
        (fun s' ↦ s'.claimBalance + n.rewards call.sender = n.claimBalance ∧
          s'.rewards call.sender = 0)
        (fun _ ↦ uint256Bound ≤ n.totalClaimRewardsClaimed + n.rewards call.sender)
        (claimRewards call c.state) := by
  have h := reachable_backed hc
  refine ⟨h.finite, h.credited, h.covered, h.accounted, h.held, h.clamped, fun user ↦ ?_,
    fun call n hn ↦ claimRewards_paid h hn⟩
  refine ⟨h.payable user, ?_, ?_⟩
  · exact (checkpointRewards_recognised h false false).weaken fun _ hn ↦
      (h.effects hn.effects).payable user
  · exact (checkpoint_prepared h user).weaken fun _ hn ↦ hn.backed.payable user

def compoundConfig : AutoCompoundConfig :=
  { enabled := true, tokenId := 5, durationSeconds := 52 * 604800, maxSlippageBps := 100 }

def compoundLock : LockInfo := { lockEnd := 52 * 604800, autoMax := false, listed := false }

def compoundReplies (enter : Option FurnaceEntry) : CompoundReplies where
  ownerOf := some 7
  getLockInfo := some compoundLock
  quote := some { principalClaim := 0, bonusClaim := 0, veOut := 10 ^ 18, routeTokenId := 5 }
  enter := enter

/-- User 7 stakes and auto-compounds, first against a Furnace that reverts and
then against one that streams CLAIM during the call; user 8 claims. -/
def compoundRun : List (Call × Op) :=
  [(plainCall 0 7, .stake (3 * 10 ^ 18) true),
    (plainCall 1 8, .stake (10 ^ 18) true),
    (plainCall 2 9, .transferClaim (10 ^ 19)),
    (plainCall 100000 7, .setAutoCompoundConfig compoundConfig (some 7) (some compoundLock)),
    (plainCall 100001 1, .compoundFor 7 (compoundReplies none)),
    (plainCall 100002 7, .setAutoCompoundConfig compoundConfig (some 7) (some compoundLock)),
    (plainCall 100003 1, .compoundFor 7 (compoundReplies (some ⟨2 * 10 ^ 18, 5⟩))),
    (plainCall 100004 8, .claimRewards)]

theorem rewards_conserved_compound :
    ∃ c, system.Reachable c ∧ c.state.totalClaimRewardsLockedViaFurnace = 7500000000000000000 ∧
      c.state.totalClaimRewardsClaimed = 3000000000000000000 ∧
      total c.state.rewards = c.state.totalRewardsCredited ∧
      c.state.accountedRewardBalance ≤ c.state.claimBalance := by
  have hrun : ∃ c, system.Reachable c ∧
      decide (c.state.totalClaimRewardsLockedViaFurnace = 7500000000000000000 ∧
        c.state.totalClaimRewardsClaimed = 3000000000000000000) = true := by
    refine driven_witness (initial 0 1 2 3 4 50) compoundRun (fun s ↦ decide
      (s.totalClaimRewardsLockedViaFurnace = 7500000000000000000 ∧
        s.totalClaimRewardsClaimed = 3000000000000000000)) ?_ ?_ ?_
    · exact ⟨0, 1, 2, 3, 4, 50, by simp [uint256Bound], rfl⟩
    · decide
    · decide +kernel
  obtain ⟨c, hc, hP⟩ := hrun
  obtain ⟨hlocked, hclaimed⟩ := of_decide_eq_true hP
  obtain ⟨-, hcredited, -, -, hheld, -⟩ := rewards_conserved hc
  exact ⟨c, hc, hlocked, hclaimed, hcredited, hheld⟩

end ClaimRush.LpStakingVault
