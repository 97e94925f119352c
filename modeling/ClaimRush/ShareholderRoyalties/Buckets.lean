import ClaimRush.ShareholderRoyalties.Effects

/-!
# The three ETH buckets

Pending, indexed and crystallised ETH together with the unaccounted surplus are
the balance of the contract, and the crystallised total is the sum of the stored
balances.
-/

open Function

namespace ClaimRush.ShareholderRoyalties

open Constants VeClaimNFT RoyaltiesState

/-- Every wei of the balance is in exactly one place. -/
structure Bucketed (r : RoyaltiesState) : Prop where
  finite : FiniteEntries r.claimableEthStored
  stored : total r.claimableEthStored = r.totalCrystallisedStored
  balance : r.pendingShareholderETH + r.indexedEthOwed + r.totalCrystallisedStored +
    r.ghost.unaccountedEth = r.balance

variable {r r' : RoyaltiesState}

theorem Bucketed.keep (h : Bucketed r) (hsame : SameLedger r r') : Bucketed r' where
  finite := hsame.stored ▸ h.finite
  stored := by rw [hsame.stored, hsame.crystallised, h.stored]
  balance := by
    rw [hsame.pending, hsame.indexed, hsame.crystallised, hsame.ghost, hsame.balance, h.balance]

theorem Bucketed.ghost (h : Bucketed r) (clamped : ℕ) :
    Bucketed { r with ghost := { r.ghost with clampedAccrual := clamped } } :=
  ⟨h.finite, h.stored, h.balance⟩

theorem Bucketed.credit (h : Bucketed r) (user : Address) (whole : ℕ) :
    Returns Bucketed (r.creditAccrual user whole) := by
  unfold RoyaltiesState.creditAccrual
  extract_lets credited ghost r₁
  have h₁ : Bucketed r₁ := h.ghost _
  split
  · exact h₁
  · refine Outcome.uint256_bind trivial fun _ ↦ Outcome.usub_bind trivial fun hle ↦ ?_
    refine Outcome.uint256_bind trivial fun _ ↦ Bucketed.keep ?_ (sameLedger_emit _ trivial)
    have htotal := total_update h₁.finite user (r₁.claimableEthStored user + credited)
    have hstored := h₁.stored
    have hbalance := h₁.balance
    refine ⟨h₁.finite.update _ _, ?_, ?_⟩ <;> dsimp only <;> omega

theorem Bucketed.crystallise (h : Bucketed r) (s : VeState) (user : Address) :
    Returns Bucketed (r.crystallise s user) := by
  unfold RoyaltiesState.crystallise
  refine Returns.seq ?_
  rintro ⟨whole, remainder, minEnd⟩ -
  have hmarked : Bucketed ((r.markPaid user).recordObservedMin user minEnd) :=
    ⟨h.finite, h.stored, h.balance⟩
  exact Outcome.bind (hmarked.credit user whole) fun _ hr ↦ ⟨hr.finite, hr.stored, hr.balance⟩

theorem Bucketed.receive (h : Bucketed r) (reignId value : ℕ) :
    Returns Bucketed (receivePending reignId value r) := by
  refine Outcome.uint256_bind trivial fun _ ↦ Bucketed.keep ?_ (sameLedger_emit _ trivial)
  refine ⟨h.finite, h.stored, ?_⟩
  have := h.balance
  dsimp only
  omega

theorem Bucketed.advance (h : Bucketed r) (rewardTs totalWeight delta : ℕ) :
    Returns Bucketed (r.advanceIndex rewardTs totalWeight delta) := by
  unfold RoyaltiesState.advanceIndex
  refine Outcome.uint256_bind trivial fun _ ↦ Outcome.uint256_bind trivial fun _ ↦ ?_
  refine Outcome.uint256_bind trivial fun _ ↦ ?_
  refine Outcome.bind (storeRewardCheckpoint_stored _ _) fun r₁ hr₁ ↦ ?_
  refine Returns.seq fun distributed _ ↦ Outcome.usub_bind trivial fun hle ↦ ?_
  refine Outcome.uint256_bind trivial fun _ ↦ ⟨?_, ?_, ?_⟩
  · exact hr₁.stored ▸ h.finite
  · exact (congrArg total hr₁.stored).trans (h.stored.trans hr₁.crystallised.symm)
  · have hbuckets := h.balance
    have hpending := hr₁.pending
    have hindexed := hr₁.indexed
    simp only [RoyaltiesState.emit, hr₁.balance, hr₁.crystallised, hr₁.ghost] at *
    omega

theorem Bucketed.index (h : Bucketed r) (s : VeState) (nowTs : ℕ) (bypass : Bool) :
    Returns Bucketed (r.indexPending s nowTs bypass) := by
  unfold RoyaltiesState.indexPending
  dsimp only
  split_ifs
  · exact h
  · exact h
  · exact h
  · exact Returns.guard fun _ ↦ h
  · refine Returns.guard fun _ ↦ Returns.seq fun delta _ ↦ ?_
    generalize (if delta > uint256Bound - 1 - r.ethPerVe then _ else delta) = capped
    split
    · exact h
    · exact h.advance _ _ _

theorem initial_bucketed (self owner : Address) (balance : ℕ) :
    Bucketed (initial self owner balance) :=
  ⟨finiteEntries_zero, total_zero, by simp [initial]⟩

/-- Every effect keeps the buckets. -/
theorem Bucketed.effect {nowTs : ℕ} {x y : VeState × RoyaltiesState} (h : Bucketed x.2)
    (heffect : Effect nowTs x y) : Bucketed y.2 := by
  cases heffect with
  | lock _ => exact h
  | keep hsame => exact h.keep hsame
  | crystallise user _ hr => exact (h.crystallise _ user).of_ok hr
  | receive reignId value hr => exact (h.receive reignId value).of_ok hr
  | index bypass _ hr => exact (h.index _ nowTs bypass).of_ok hr
  | forceEth amount =>
      have hbuckets := h.balance
      refine ⟨h.finite, h.stored, ?_⟩
      simp only [ShareholderRoyalties.forceEth] at *
      omega
  | payOut user amount hstored hbalance =>
      have htotal := total_update h.finite user 0
      have hsum := h.stored
      have hbuckets := h.balance
      refine ⟨h.finite.update user 0, ?_, ?_⟩ <;> simp only [payOut] at * <;> omega
  | sweep dust hdust =>
      have hbuckets := h.balance
      refine ⟨h.finite, h.stored, ?_⟩
      simp only [RoyaltiesState.sweep] at *
      omega

theorem reachable_bucketed {c : Config} (hc : system.Reachable c) : Bucketed c.world.royalties := by
  refine (reachable_induction (I := fun _ x ↦ Bucketed x.2) ?_ (fun _ _ _ _ ↦ id) ?_ hc).2
  · rintro now s r - ⟨self, owner, balance, rfl⟩
    exact initial_bucketed self owner balance
  · exact fun now x y heffect h ↦ h.effect heffect

/-! ## Attempts and sweeps -/

/-- The callee was sent the unaccounted surplus, and nothing else was taken. -/
def Swept (call : Call) (callee : Callee) (w w' : Worlds) : Prop :=
  ∃ w₁, callee.run call
      { w with royalties := { w.royalties with
          ghost := { w.royalties.ghost with unaccountedEth := 0 } } }
      w.royalties.ghost.unaccountedEth = some w₁ ∧
    w'.ve = w₁.ve ∧ SameLedger w₁.royalties w'.royalties

variable {call : Call} {w : Worlds}

theorem sweepDust_swept (h : Bucketed w.royalties) (dst : Address) (callee : Callee) :
    Returns (Swept call callee w) (sweepDust call w dst callee) := by
  unfold sweepDust
  refine Returns.seq fun _ _ ↦ Returns.seq fun _ _ ↦ Returns.guard fun _ ↦ ?_
  refine Outcome.uint256_bind trivial fun _ ↦ Outcome.uint256_bind trivial fun _ ↦ ?_
  refine Returns.guard fun _ ↦ Returns.guard fun _ ↦ Returns.guard fun _ ↦ ?_
  refine Outcome.bind pushEth_returns fun w₁ hrun ↦ ?_
  have hdust : w.royalties.balance - (w.royalties.pendingShareholderETH +
      w.royalties.indexedEthOwed + w.royalties.totalCrystallisedStored) =
      w.royalties.ghost.unaccountedEth := by
    have := h.balance
    omega
  rw [hdust, Nat.sub_self] at hrun
  exact ⟨w₁, hrun, rfl, sameLedger_emit _ trivial⟩

/-- A call that pays one user reverts, or attempts after a checkpoint. -/
theorem transact_attempted {op : Op} {user : Address} {callee : Callee}
    (hop : op.attempt call = some (user, callee)) :
    transact call w op = w ∨ Attempted call user callee w (transact call w op) := by
  have hspec : Returns (Attempted call user callee w) (exec call w op) := by
    cases op <;> cases hop
    · exact claimShareholderOf_attempted _
    · exact Returns.seq fun _ _ ↦ claimShareholderOf_attempted _
    · exact claimShareholderForTo_attempted _
    · exact claimShareholderTo_attempted _ _
    · exact compoundFor_attempted _
  exact transact_cases hspec

/-- In every reachable configuration each wei is in one bucket.  An attempt
leaves the ledger as its checkpoint did unless the callee got the stored
balance; a reverted transaction takes the checkpoint back as well. -/
theorem buckets_conserved {c : Config} (hc : system.Reachable c) :
    (FiniteEntries c.world.royalties.claimableEthStored ∧
      total c.world.royalties.claimableEthStored = c.world.royalties.totalCrystallisedStored) ∧
    c.world.royalties.pendingShareholderETH + c.world.royalties.indexedEthOwed +
      c.world.royalties.totalCrystallisedStored + c.world.royalties.ghost.unaccountedEth =
        c.world.royalties.balance ∧
    (∀ call op user callee, op.attempt call = some (user, callee) →
      transact call c.world op = c.world ∨
        Attempted call user callee c.world (transact call c.world op)) ∧
    (∀ call users maxUsers attempts,
      transact call c.world (.compoundForMany users maxUsers attempts) = c.world ∨
        ∃ n w₀ w₁, Unpaid c.world w₀ ∧ BatchRun call attempts 0 (users.take n) w₀ w₁ ∧
          Unpaid w₁ (transact call c.world (.compoundForMany users maxUsers attempts))) ∧
    ∀ call dst callee, transact call c.world (.sweepDust dst callee) = c.world ∨
      Swept call callee c.world (transact call c.world (.sweepDust dst callee)) := by
  have hbucketed := reachable_bucketed hc
  refine ⟨⟨hbucketed.finite, hbucketed.stored⟩, hbucketed.balance, ?_, ?_, ?_⟩
  · exact fun call op user callee hop ↦ transact_attempted hop
  · intro call users maxUsers attempts
    have hspec : Returns _ (exec call c.world (.compoundForMany users maxUsers attempts)) :=
      compoundForMany_run users maxUsers attempts
    exact transact_cases hspec
  · intro call dst callee
    have hspec : Returns _ (exec call c.world (.sweepDust dst callee)) :=
      sweepDust_swept hbucketed dst callee
    exact transact_cases hspec

/-- A callee that rejects the ETH. -/
def rejecting : Callee := { succeeds := false, reentries := [] }

theorem buckets_conserved_bundle :
    ∃ w, run indexedBundle deployed = .ok w ∧
      total w.royalties.claimableEthStored = w.royalties.totalCrystallisedStored ∧
      w.royalties.indexedEthOwed = 999999999999999000 := by
  have hok : ((run indexedBundle deployed).toOption.any fun w ↦
      w.royalties.indexedEthOwed = 999999999999999000) = true := by
    decide +kernel
  cases hrun : run indexedBundle deployed with
  | error e => simp [hrun, Except.toOption] at hok
  | ok w =>
      have hc := reachable_run deployed_reachable hrun (by decide)
      refine ⟨w, rfl, (buckets_conserved hc).1.2, ?_⟩
      simpa [hrun, Except.toOption] using hok

/-- A lone claim whose push fails loses the accrual that its own checkpoint had
credited. -/
theorem reverted_claim_undoes_checkpoint :
    ¬ ∀ c, system.Reachable c → ∀ call op user callee w₁,
      op.attempt call = some (user, callee) → callee.succeeds = false →
      checkpoint call c.world user = .ok w₁ →
      (transact call c.world op).royalties.claimableEthStored user =
        w₁.royalties.claimableEthStored user := by
  intro h
  have hok : ((run indexedBundle deployed).toOption.any fun w ↦
      (checkpoint (wiredCall 300 7) w 7).toOption.any fun w₁ ↦
        (transact (wiredCall 300 7) w
          (.claimShareholder .eth rejecting)).royalties.claimableEthStored 7 ≠
            w₁.royalties.claimableEthStored 7) = true := by
    decide +kernel
  cases hrun : run indexedBundle deployed with
  | error e => simp [hrun, Except.toOption] at hok
  | ok w =>
      have hc := reachable_run deployed_reachable hrun (by decide)
      cases hcheckpoint : checkpoint (wiredCall 300 7) w 7 with
      | error e => simp [hrun, hcheckpoint, Except.toOption] at hok
      | ok w₁ =>
          have heq := h _ hc _ (.claimShareholder .eth rejecting) _ _ w₁ rfl rfl hcheckpoint
          simp [hrun, hcheckpoint, Except.toOption] at hok
          exact hok heq

end ClaimRush.ShareholderRoyalties
