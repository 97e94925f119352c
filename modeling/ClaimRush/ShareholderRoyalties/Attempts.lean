import ClaimRush.ShareholderRoyalties.Ledger

/-!
# Attempts

A claim or a compound checkpoints the user and then tries to pay the stored
balance to its callee.  After the checkpoint there are two outcomes: the callee
got the whole balance, or nothing of the ledger changed.
-/

open Function

namespace ClaimRush.ShareholderRoyalties

open Constants VeClaimNFT RoyaltiesState

/-- No lock, nothing of the ledger and no compound time changed. -/
structure Unpaid (w w' : Worlds) : Prop where
  ve : w'.ve = w.ve
  ledger : SameLedger w.royalties w'.royalties
  lastCompoundTs : ∀ user, (w'.royalties.autoCompoundConfig user).lastCompoundTs =
    (w.royalties.autoCompoundConfig user).lastCompoundTs

/-- The callee got the stored balance of `user`. -/
def Paid (call : Call) (user : Address) (callee : Callee) (w w' : Worlds) : Prop :=
  ∃ taken r w₁, takeStored user (w.royalties.claimableEthStored user) w.royalties = .ok taken ∧
    SameLedger taken r ∧
    callee.run call { w with royalties := r } (w.royalties.claimableEthStored user) = some w₁ ∧
    w'.ve = w₁.ve ∧ SameLedger w₁.royalties w'.royalties

/-- An attempt for `user`: a checkpoint, and then one of the two outcomes. -/
def Attempted (call : Call) (user : Address) (callee : Callee) (w w' : Worlds) : Prop :=
  ∃ w₁, checkpoint call w user = .ok w₁ ∧ (Unpaid w₁ w' ∨ Paid call user callee w₁ w')

/-- The users of a batch in turn.  A user may be passed over without a
checkpoint, and the batch may end before its last user. -/
inductive BatchRun (call : Call) (attempts : ℕ → CompoundAttempt) :
    ℕ → List Address → Worlds → Worlds → Prop
  | stop {i : ℕ} {users : List Address} {w w' : Worlds} (h : Unpaid w w') :
      BatchRun call attempts i users w w'
  | pass {i : ℕ} {user : Address} {users : List Address} {w w₁ w' : Worlds} (h : Unpaid w w₁)
      (hrest : BatchRun call attempts (i + 1) users w₁ w') :
      BatchRun call attempts i (user :: users) w w'
  | attempt {i : ℕ} {user : Address} {users : List Address} {w w₁ w' : Worlds}
      (h : Attempted call user (attempts i).callee w w₁)
      (hrest : BatchRun call attempts (i + 1) users w₁ w') :
      BatchRun call attempts i (user :: users) w w'

variable {call : Call} {w w' w'' : Worlds} {user : Address} {callee : Callee}

theorem Unpaid.refl (w : Worlds) : Unpaid w w :=
  ⟨rfl, .refl _, fun _ ↦ rfl⟩

theorem Unpaid.emit (h : Unpaid w w') {e : Event} (he : IsQuiet e) :
    Unpaid w { w' with royalties := w'.royalties.emit e } :=
  ⟨h.ve, h.ledger.emit he, h.lastCompoundTs⟩

theorem Unpaid.reportBelowMinimum (w : Worlds) (user : Address) (amount : ℕ) :
    Unpaid w { w with royalties := reportBelowMinimum user amount w.royalties } := by
  refine ⟨rfl, sameLedger_reportBelowMinimum _ _ _, fun v ↦ ?_⟩
  unfold ShareholderRoyalties.reportBelowMinimum
  split_ifs <;> rfl

theorem Unpaid.pause (h : Unpaid w w') (user : Address) (reason : PauseReason) :
    Unpaid w { w' with royalties := pause user reason w'.royalties } := by
  refine ⟨h.ve, h.ledger.trans (sameLedger_pause _ _ _), fun v ↦ ?_⟩
  rw [← h.lastCompoundTs v]
  by_cases hv : v = user
  · subst hv
    simp [ShareholderRoyalties.pause, setConfig, RoyaltiesState.emit]
  · simp [ShareholderRoyalties.pause, setConfig, RoyaltiesState.emit, hv]

theorem Paid.emit (h : Paid call user callee w w') {e : Event} (he : IsQuiet e) :
    Paid call user callee w { w' with royalties := w'.royalties.emit e } := by
  obtain ⟨taken, r, w₁, htake, hconfig, hrun, hve, hledger⟩ := h
  exact ⟨taken, r, w₁, htake, hconfig, hrun, hve, hledger.emit he⟩

theorem Paid.emitClaimed (h : Paid call user callee w w') (u dst : Address) (amount : ℕ)
    (mode : Mode) : Paid call user callee w
      { w' with royalties := emitClaimed u dst amount mode w'.royalties } :=
  (h.emit (e := .ShareholderClaim u mode amount) trivial).emit trivial

theorem Paid.emitExecuted (h : Paid call user callee w w') (executor u : Address)
    (amount tokenId duration : ℕ) : Paid call user callee w
      { w' with royalties := emitExecuted executor u amount tokenId duration w'.royalties } :=
  (h.emit (e := .ShareholderAutoCompoundExecuted u executor amount tokenId duration)
    trivial).emit trivial

/-! ## Lone attempts -/

/-- The callee gets what was just taken. -/
theorem paid_of_run {taken : RoyaltiesState}
    (htake : takeStored user (w.royalties.claimableEthStored user) w.royalties = .ok taken)
    (hrun : callee.run call { w with royalties := taken } (w.royalties.claimableEthStored user) =
      some w') : Paid call user callee w w' :=
  ⟨taken, taken, w', htake, .refl _, hrun, rfl, .refl _⟩

theorem pushEth_returns {amount : ℕ} :
    Returns (fun w' ↦ callee.run call w amount = some w') (pushEth call w callee amount) := by
  unfold pushEth
  split
  · next w' hrun => exact hrun
  · trivial

theorem lockEthReward_returns {amount : ℕ} :
    Returns (fun w' ↦ callee.run call w amount = some w')
      (lockEthReward call w callee amount) :=
  Returns.guard fun _ ↦ (outcome_externalCall _).mpr ⟨fun _ ↦ id, fun _ ↦ trivial⟩

/-- A program that checkpoints and then attempts is an attempt. -/
theorem attempted_of_checkpoint {f : Worlds → Except Error Worlds}
    (hf : ∀ w₁, Returns (fun w' ↦ Unpaid w₁ w' ∨ Paid call user callee w₁ w') (f w₁)) :
    Returns (Attempted call user callee w) (checkpoint call w user >>= f) :=
  Returns.seq fun w₁ hw₁ ↦ (hf w₁).weaken fun _ hw' ↦ ⟨w₁, hw₁, hw'⟩

theorem claimShareholderOf_attempted (mode : Mode) :
    Returns (Attempted call user callee w) (claimShareholderOf call w user mode callee) := by
  unfold claimShareholderOf
  refine Returns.guard fun _ ↦ attempted_of_checkpoint fun w₁ ↦ ?_
  dsimp only
  split_ifs
  · exact Or.inl (.refl w₁)
  · refine Returns.seq fun taken htake ↦ ?_
    cases mode with
    | eth =>
        exact Outcome.bind pushEth_returns fun w₂ hrun ↦
          Or.inr ((paid_of_run htake hrun).emit trivial)
    | lockFurnace =>
        exact Outcome.bind lockEthReward_returns fun w₂ hrun ↦
          Or.inr ((paid_of_run htake hrun).emit trivial)
    | invalid => trivial

theorem claimShareholderForTo_attempted (dst : Address) :
    Returns (Attempted call user callee w) (claimShareholderForTo call w user dst callee) := by
  unfold claimShareholderForTo
  refine Returns.seq fun _ _ ↦ Returns.guard fun _ ↦ attempted_of_checkpoint fun w₁ ↦ ?_
  dsimp only
  split_ifs
  · exact Or.inl (.refl w₁)
  · refine Returns.seq fun taken htake ↦ Outcome.bind pushEth_returns fun w₂ hrun ↦ ?_
    exact Or.inr ((paid_of_run htake hrun).emitClaimed _ _ _ _)

theorem claimShareholderTo_attempted (dst : Address) (mode : Mode) :
    Returns (Attempted call call.sender callee w) (claimShareholderTo call w dst mode callee) := by
  unfold claimShareholderTo
  refine Returns.guard fun _ ↦ attempted_of_checkpoint fun w₁ ↦ ?_
  dsimp only
  split_ifs
  · exact Or.inl (.refl w₁)
  · refine Returns.seq fun taken htake ↦ ?_
    cases mode with
    | eth =>
        exact Outcome.bind pushEth_returns fun w₂ hrun ↦
          Or.inr ((paid_of_run htake hrun).emitClaimed _ _ _ _)
    | lockFurnace =>
        exact Returns.guard fun _ ↦ Outcome.bind lockEthReward_returns fun w₂ hrun ↦
          Or.inr ((paid_of_run htake hrun).emitClaimed _ _ _ _)
    | invalid => trivial

theorem beginCompound_returns (user : Address) (amount : ℕ) (r : RoyaltiesState) :
    Returns (fun r' ↦ ∃ taken, takeStored user amount r = .ok taken ∧
        r' = setConfig user { taken.autoCompoundConfig user with
          lastCompoundTs := call.timestamp % (UINT40_MAX + 1) } taken)
      (beginCompound call user amount r) :=
  Returns.seq fun taken htaken ↦ ⟨taken, htaken, rfl⟩

theorem compoundStored_outcome (user : Address) (attempt : CompoundAttempt) :
    Returns (fun w' ↦ Unpaid w w' ∨ Paid call user attempt.callee w w')
      (compoundStored call w user attempt) := by
  unfold compoundStored
  dsimp only
  split_ifs
  · exact Or.inl (.reportBelowMinimum w _ _)
  · split
    · exact Or.inl ((Unpaid.refl w).pause _ _)
    · refine Returns.seq fun _ _ ↦ Returns.guard fun _ ↦ Returns.guard fun _ ↦ ?_
      refine Outcome.bind (beginCompound_returns _ _ _) ?_
      rintro _ ⟨taken, htake, rfl⟩
      refine (Outcome.bind_iff _ _).mpr ((outcome_externalCall _).mpr ⟨fun w₂ hrun ↦ ?_, ?_⟩)
      · have hpaid : Paid call user attempt.callee w w₂ :=
          ⟨taken, _, w₂, htake, sameLedger_setConfig _ _ _, hrun, rfl, .refl _⟩
        exact Or.inr (hpaid.emitExecuted _ _ _ _ _)
      · exact fun _ ↦ trivial

theorem compoundFor_attempted (attempt : CompoundAttempt) :
    Returns (Attempted call user attempt.callee w) (compoundFor call w user attempt) := by
  unfold compoundFor
  refine Returns.seq fun _ _ ↦ Returns.guard fun _ ↦ Returns.guard fun _ ↦ ?_
  refine Returns.guard fun _ ↦ Returns.guard fun _ ↦ ?_
  exact attempted_of_checkpoint fun _ ↦ compoundStored_outcome user attempt

/-! ## Batches -/

theorem takeStored_spec (user : Address) (amount : ℕ) (r : RoyaltiesState) :
    Returns (fun r' ↦ amount ≤ r.totalCrystallisedStored ∧
        r' = { r with
          claimableEthStored := update r.claimableEthStored user 0
          totalCrystallisedStored := r.totalCrystallisedStored - amount })
      (takeStored user amount r) := by
  unfold takeStored consumeReservedEth
  split_ifs with hzero
  · subst hzero
    exact ⟨Nat.zero_le _, rfl⟩
  · exact Returns.guard fun hle ↦ ⟨not_lt.mp hle, rfl⟩

/-- An attempt that did not succeed changed nothing. -/
theorem lockEthRewardBestEffort_cases (call : Call) (w : Worlds) (attempt : CompoundAttempt)
    (amount : ℕ) :
    ((lockEthRewardBestEffort call w attempt amount).2 = .Success ∧
      attempt.callee.run call w amount = some (lockEthRewardBestEffort call w attempt amount).1) ∨
    ((lockEthRewardBestEffort call w attempt amount).2 ≠ .Success ∧
      (lockEthRewardBestEffort call w attempt amount).1 = w) := by
  unfold lockEthRewardBestEffort
  dsimp only
  split_ifs
  · exact Or.inr ⟨by simp, rfl⟩
  · exact Or.inr ⟨by simp, rfl⟩
  · split
    · next w' hrun => exact Or.inl ⟨rfl, hrun⟩
    · exact Or.inr ⟨by simp, rfl⟩

/-- Taking the stored balance and restoring it changes nothing. -/
theorem restoreStored_unpaid {began : RoyaltiesState} {amount : ℕ}
    (hstored : w.royalties.claimableEthStored user = amount)
    (hbegan : beginCompound call user amount w.royalties = .ok began) :
    Returns (fun r' ↦ Unpaid w { w with royalties := r' })
      (restoreStored user amount (w.royalties.autoCompoundConfig user).lastCompoundTs began) := by
  obtain ⟨taken, htake, rfl⟩ := (beginCompound_returns _ _ _).of_ok hbegan
  obtain ⟨hle, rfl⟩ := (takeStored_spec _ _ _).of_ok htake
  refine Outcome.uint256_bind trivial fun _ ↦ ⟨rfl, ?_, fun v ↦ ?_⟩
  · refine ⟨rfl, rfl, rfl, Nat.sub_add_cancel hle, ?_, rfl, rfl, rfl, rfl, rfl, rfl, rfl, rfl, rfl,
      rfl, rfl⟩
    exact (update_idem _ _ _).trans (hstored ▸ update_eq_self _ _)
  · simp [setConfig]

/-- An attempt of a batch either pays the stored balance out or puts it back. -/
theorem attemptLockWithRestore_outcome (user : Address) (attempt : CompoundAttempt) :
    Returns (fun p ↦ if p.2 = .Success then Paid call user attempt.callee w p.1 else Unpaid w p.1)
      (attemptLockWithRestore call w user (w.royalties.claimableEthStored user) attempt) := by
  unfold attemptLockWithRestore
  refine Returns.seq fun began hbegan ↦ ?_
  obtain ⟨taken, htake, hconfig⟩ := (beginCompound_returns _ _ _).of_ok hbegan
  have hcases := lockEthRewardBestEffort_cases call { w with royalties := began } attempt
    (w.royalties.claimableEthStored user)
  generalize lockEthRewardBestEffort call { w with royalties := began } attempt
    (w.royalties.claimableEthStored user) = p at hcases ⊢
  obtain ⟨w₁, result⟩ := p
  dsimp only at hcases ⊢
  rcases hcases with ⟨rfl, hrun⟩ | ⟨hfailed, rfl⟩
  · rw [if_pos rfl]
    refine (Outcome.pure_iff _).mpr ?_
    rw [if_pos rfl]
    exact ⟨taken, began, w₁, htake, hconfig ▸ sameLedger_setConfig _ _ _, hrun, rfl, .refl _⟩
  · rw [if_neg hfailed]
    refine Outcome.bind (restoreStored_unpaid rfl hbegan) fun r' hr' ↦ ?_
    refine (Outcome.pure_iff _).mpr ?_
    rw [if_neg hfailed]
    exact hr'

theorem compoundStoredInBatch_outcome (executor user : Address) (attempt : CompoundAttempt) :
    Returns (fun p ↦ Unpaid w p.1 ∨ Paid call user attempt.callee w p.1)
      (compoundStoredInBatch call w executor user attempt) := by
  unfold compoundStoredInBatch
  dsimp only
  split_ifs
  · exact Or.inl (.reportBelowMinimum w _ _)
  · split
    · exact Or.inl ((Unpaid.refl w).pause _ _)
    · refine Returns.seq fun minVeOut _ ↦ ?_
      split_ifs
      · exact Or.inl ((Unpaid.refl w).emit trivial)
      · refine Outcome.bind (attemptLockWithRestore_outcome user attempt) ?_
        rintro ⟨w₂, result⟩ hw₂
        cases result with
        | Success =>
            have hpaid : Paid call user attempt.callee w w₂ := hw₂
            exact Or.inr (hpaid.emitExecuted _ _ _ _ _)
        | NotAttempted => exact Or.inl hw₂
        | Failed =>
            have hunpaid : Unpaid w w₂ := hw₂
            exact Or.inl ((hunpaid.pause _ _).emit trivial)

/-- One user of a batch. -/
theorem compoundForUserInBatch_outcome (executor user : Address) (attempt : CompoundAttempt) :
    Returns (fun p ↦ Unpaid w p.1 ∨ Attempted call user attempt.callee w p.1)
      (compoundForUserInBatch call w executor user attempt) := by
  unfold compoundForUserInBatch
  dsimp only
  split_ifs
  · exact Or.inl (.refl w)
  · exact Or.inl (.refl w)
  · exact Or.inl (.refl w)
  · split
    · exact Or.inl ((Unpaid.refl w).pause _ _)
    · next w₁ hw₁ =>
        exact (compoundStoredInBatch_outcome executor user attempt).weaken fun p hp ↦
          Or.inr ⟨w₁, hw₁, hp⟩

theorem compoundLoop_run (attempts : ℕ → CompoundAttempt) (n i : ℕ) (users : List Address) :
    Returns (BatchRun call attempts i users w) (compoundLoop call attempts n i users w) := by
  induction users generalizing i w with
  | nil => exact .stop (.refl w)
  | cons user users ih =>
      refine Outcome.bind (compoundForUserInBatch_outcome call.sender user (attempts i)) ?_
      rintro ⟨w₁, shouldContinue⟩ hw₁
      have hnext {w' : Worlds} (hrest : BatchRun call attempts (i + 1) users w₁ w') :
          BatchRun call attempts i (user :: users) w w' := by
        rcases hw₁ with hunpaid | hattempted
        · exact .pass hunpaid hrest
        · exact .attempt hattempted hrest
      cases shouldContinue with
      | true => exact (ih (i + 1)).weaken fun _ ↦ hnext
      | false => exact hnext (.stop ((Unpaid.refl w₁).emit trivial))

/-- A whole batch, between the writes of the wiring flag. -/
theorem compoundForMany_run (users : List Address) (maxUsers : ℕ)
    (attempts : ℕ → CompoundAttempt) :
    Returns (fun w' ↦ ∃ n w₀ w₁, Unpaid w w₀ ∧ BatchRun call attempts 0 (users.take n) w₀ w₁ ∧
        Unpaid w₁ w') (compoundForMany call w users maxUsers attempts) := by
  unfold compoundForMany
  refine Returns.seq fun _ _ ↦ Returns.seq fun _ _ ↦ ?_
  refine Outcome.bind (compoundLoop_run attempts _ 0 _) fun w₁ hrun ↦ ?_
  refine ⟨_, _, w₁, ?_, hrun, ?_⟩ <;> exact ⟨rfl, sameLedger_config _, fun _ ↦ rfl⟩

end ClaimRush.ShareholderRoyalties
