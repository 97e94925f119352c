import ClaimRush.VeClaimNFT.LockSums

/-!
# The accumulators stay exact

One step of the lock contract keeps its books and never reverts with the
invariant violation of the deltas, whatever the royalties contract, the token
and the wired getters answer.  The run theorem follows by induction.
-/

open Function

namespace ClaimRush.VeClaimNFT

open Constants GlobalState VeState

variable {S : Type} (port : IShareholderRoyalties S) (call : Call) {w : World S}

/-! ## Calls that do not touch the books -/

theorem resolveShareholderRoyaltiesFor_spec (f mm : Address) :
    Outcome (fun _ ↦ True) NotViolation (resolveShareholderRoyaltiesFor call f mm) := by
  simp [resolveShareholderRoyaltiesFor, NotViolation]

theorem requireCanonicalFurnaceCaller_spec (s : VeState) :
    Outcome (fun _ ↦ True) NotViolation (requireCanonicalFurnaceCaller call s) := by
  simp [requireCanonicalFurnaceCaller, requireCanonicalMineCoreThroughFurnace,
    resolveShareholderRoyalties, resolveShareholderRoyaltiesFor, Outcome.ite_iff, NotViolation]

theorem requireCanonicalMineMarketCaller_spec (s : VeState) :
    Outcome (fun _ ↦ True) NotViolation (requireCanonicalMineMarketCaller call s) := by
  simp [requireCanonicalMineMarketCaller, requireCanonicalMineCoreThroughFurnace,
    resolveShareholderRoyalties, resolveShareholderRoyaltiesFor, Outcome.ite_iff, NotViolation]

theorem requireDelegated_spec (s : VeState) (user : Address) (perms : ℕ) :
    Outcome (fun _ ↦ True) NotViolation (requireDelegated call s user perms) := by
  simp [requireDelegated, resolveCanonicalDelegationHub,
    requireCanonicalMineCoreThroughFurnace, NotViolation]

theorem requireCanonicalSetterBundle_spec (s : VeState) (f mm : Address) :
    Outcome (fun _ ↦ True) NotViolation (requireCanonicalSetterBundle call s f mm) := by
  simp [requireCanonicalSetterBundle, requireCanonicalMineCoreThroughFurnace,
    resolveShareholderRoyaltiesFor, Outcome.ite_iff, NotViolation]

theorem requireCanonicalRoyalties_spec (s : VeState) (sr : Address) :
    Outcome (fun _ ↦ True) NotViolation (requireCanonicalRoyalties call s sr) := by
  simp [requireCanonicalRoyalties, requireCanonicalMineCoreThroughFurnace,
    Outcome.ite_iff, NotViolation]

theorem requireMutable_spec (nowTs : ℕ) (l : Lock) :
    Outcome (fun _ ↦ l.listed = false ∧ (l.autoMax = false → nowTs < l.lockEnd))
      NotViolation (requireMutable nowTs l) := by
  refine Outcome.revertIf_bind (fun _ ↦ by simp [NotViolation]) fun hlisted ↦ ?_
  rw [outcome_revertIf]
  refine ⟨fun _ ↦ by simp [NotViolation], fun hend ↦ ⟨by simpa using hlisted, fun hdecay ↦ ?_⟩⟩
  simpa [hdecay] using hend

theorem refreshedEnd_spec (nowTs lockEnd : ℕ) (autoMax : Bool) :
    Outcome (fun e ↦ autoMax = false → e = lockEnd) NotViolation
      (refreshedEnd nowTs lockEnd autoMax) := by
  unfold refreshedEnd
  split_ifs with hauto
  · rw [outcome_uint256]
    exact ⟨fun _ hd ↦ by simp [hauto] at hd, fun _ ↦ notViolation_panic⟩
  · exact fun _ ↦ rfl

theorem requireOwnedLock_spec (s : VeState) (tokenId : ℕ) (user : Address) :
    Outcome (fun l ↦ s.owners tokenId = user ∧ l = s.locks tokenId)
      NotViolation (s.requireOwnedLock tokenId user) :=
  Outcome.revertIf_bind (fun _ ↦ by simp [NotViolation]) fun howner ↦
    ⟨not_not.mp howner, rfl⟩

theorem checkpointShareholderRoyalties_spec (user : Address) :
    Outcome (fun w' ↦ w'.ve = w.ve ∧ w'.claim = w.claim) NotViolation
      (checkpointShareholderRoyalties call port w user) := by
  unfold checkpointShareholderRoyalties
  split_ifs
  · exact ⟨rfl, rfl⟩
  · refine Outcome.bind (resolveShareholderRoyaltiesFor_spec call _ _) fun sr _ ↦ ?_
    refine Outcome.bind (requireCanonicalRoyalties_spec call _ _) fun _ _ ↦ ?_
    rw [Outcome.bind_iff, outcome_externalCall]
    exact ⟨fun _ _ ↦ ⟨rfl, rfl⟩, fun _ ↦ by simp [NotViolation]⟩

@[simp] theorem pinShareholderObservedMin_ve (user : Address) :
    (pinShareholderObservedMin call port w user).ve = w.ve := by
  unfold pinShareholderObservedMin
  dsimp only
  split_ifs
  · rfl
  · split <;> rfl

@[simp] theorem pinShareholderObservedMin_claim (user : Address) :
    (pinShareholderObservedMin call port w user).claim = w.claim := by
  unfold pinShareholderObservedMin
  dsimp only
  split_ifs
  · rfl
  · split <;> rfl

/-- Token transfers revert with errors of the token only. -/
theorem transferFrom_spec (c : ClaimToken) (spender src dst : Address) (value : ℕ) :
    Outcome (fun _ ↦ True) NotViolation (c.transferFrom spender src dst value) := by
  simp [ClaimToken.transferFrom, ClaimToken.spendAllowance, ClaimToken.transfer,
    ClaimToken.move, Outcome.ite_iff, NotViolation]

theorem transfer_spec (c : ClaimToken) (src dst : Address) (value : ℕ) :
    Outcome (fun _ ↦ True) NotViolation (c.transfer src dst value) := by
  simp [ClaimToken.transfer, ClaimToken.move, NotViolation]

/-! ## One operation -/

/-- The books are in order and no later than `nowTs`. -/
structure Sound (w : World S) (nowTs : ℕ) : Prop where
  accounted : w.ve.Accounted
  le_now : w.ve.global.globalLastTs ≤ nowTs

/-- The step that opens a mutation keeps the lock table and the books. -/
structure Opened (w w' : World S) (nowTs : ℕ) : Prop where
  sound : Sound w' nowTs
  locks : w'.ve.locks = w.ve.locks
  owners : w'.ve.owners = w.ve.owners
  nextTokenId : w'.ve.nextTokenId = w.ve.nextTokenId

theorem Sound.checkpoint (h : Sound w call.timestamp) :
    Outcome (fun s ↦ Opened w { w with ve := s } call.timestamp) NotViolation
      (w.ve.checkpointGlobalStateInternal call.timestamp) := by
  refine (h.accounted.checkpoint h.le_now).weaken ?_
  rintro s ⟨hacc, hnow, -, hlocks, howners, hnext⟩
  exact ⟨⟨hacc, hnow⟩, hlocks, howners, hnext⟩

theorem Sound.beginMutation (h : Sound w call.timestamp) (user : Address) :
    Outcome (fun w' ↦ Opened w w' call.timestamp) NotViolation
      (beginMutation port call w user) := by
  refine Outcome.bind (h.checkpoint call) fun s hs ↦ ?_
  refine (checkpointShareholderRoyalties_spec port call user).weaken ?_
  rintro w' ⟨hve, -⟩
  refine ⟨⟨?_, ?_⟩, ?_, ?_, ?_⟩ <;> rw [hve]
  exacts [hs.sound.accounted, hs.sound.le_now, hs.locks, hs.owners, hs.nextTokenId]

theorem Sound.bestEffort {nowTs : ℕ} (h : Sound w nowTs) (user : Address) :
    Sound (checkpointShareholderRoyaltiesBestEffort call port w user) nowTs := by
  unfold checkpointShareholderRoyaltiesBestEffort
  dsimp only
  split_ifs
  · exact h
  · split
    · exact ⟨h.accounted, h.le_now⟩
    · exact ⟨h.accounted.keep rfl (h.accounted.clamps.emit (by simp)) rfl rfl rfl, h.le_now⟩

theorem createLock_spec (h : Sound w call.timestamp) (payer user : Address)
    (amount duration : ℕ) (autoMax : Bool) :
    Outcome (fun w' ↦ Sound w' call.timestamp) NotViolation
      (createLock port call w payer user amount duration autoMax) := by
  unfold createLock
  refine Outcome.revertIf_bind (fun _ ↦ by simp [NotViolation]) fun _ ↦ ?_
  refine Outcome.revertIf_bind (fun _ ↦ by simp [NotViolation]) fun _ ↦ ?_
  refine Outcome.revertIf_bind (fun _ ↦ by simp [NotViolation]) fun _ ↦ ?_
  refine Outcome.revertIf_bind (fun _ ↦ by simp [NotViolation]) fun hduration ↦ ?_
  refine Outcome.revertIf_bind (fun _ ↦ by simp [NotViolation]) fun _ ↦ ?_
  refine Outcome.revertIf_bind (fun _ ↦ by simp [NotViolation]) fun _ ↦ ?_
  refine Outcome.uint256_bind notViolation_panic fun _ ↦ ?_
  refine Outcome.bind (h.beginMutation port call user) fun w' hw' ↦ ?_
  refine Outcome.revertIf_bind (fun _ ↦ by simp [NotViolation]) fun hcaught ↦ ?_
  have hcaught : w'.ve.global.globalLastTs = call.timestamp := not_not.mp hcaught
  have hacc := hw'.sound.accounted
  dsimp only
  refine Outcome.bind (hacc.backed.create ?_) fun g hg ↦ ?_
  · intro hdecay
    have hdecay : autoMax = false := hdecay
    have hmin := MIN_LOCK_DURATION_pos
    rw [hcaught, hdecay]
    simp only [Bool.false_eq_true, if_false]
    omega
  refine Outcome.uint256_bind notViolation_panic fun _ ↦ ?_
  refine Outcome.uint256_bind notViolation_panic fun _ ↦ ?_
  refine Outcome.bind (mint_spec _ _) ?_
  rintro s ⟨huser, hassigned, hlocks⟩
  refine Outcome.bind (transferFrom_spec _ _ _ _ _) fun claim _ ↦ ?_
  refine ⟨?_, ?_⟩ <;> rw [pinShareholderObservedMin_ve]
  · exact hacc.mint hg hassigned.global ((hassigned.clamps hacc.clamps).emit (by simp)) huser
      (congrArg (update · _ _) hlocks) hassigned.owners hassigned.nextTokenId
  · exact (congrArg globalLastTs hassigned.global).trans_le (hg.2.trans_le hw'.sound.le_now)

theorem addToLock_spec (h : Sound w call.timestamp) (payer user : Address)
    (tokenId amount : ℕ) :
    Outcome (fun w' ↦ Sound w' call.timestamp) NotViolation
      (addToLock port call w payer user tokenId amount) := by
  unfold addToLock
  refine Outcome.revertIf_bind (fun _ ↦ by simp [NotViolation]) fun _ ↦ ?_
  refine Outcome.revertIf_bind (fun _ ↦ by simp [NotViolation]) fun _ ↦ ?_
  refine Outcome.revertIf_bind (fun _ ↦ by simp [NotViolation]) fun _ ↦ ?_
  refine Outcome.revertIf_bind (fun _ ↦ by simp [NotViolation]) fun _ ↦ ?_
  refine Outcome.bind (requireMutable_spec _ _) fun _ hmutable ↦ ?_
  refine Outcome.bind (h.beginMutation port call user) fun w' hw' ↦ ?_
  refine Outcome.revertIf_bind (fun _ ↦ by simp [NotViolation]) fun hcaught ↦ ?_
  have hcaught : w'.ve.global.globalLastTs = call.timestamp := not_not.mp hcaught
  have hacc := hw'.sound.accounted
  rw [← hw'.locks] at hmutable
  refine Outcome.uint256_bind notViolation_panic fun _ ↦ ?_
  refine Outcome.bind (refreshedEnd_spec _ _ _) fun lockEnd hlockEnd ↦ ?_
  dsimp only
  refine Outcome.bind (hacc.backed.topUp (l := w'.ve.locks tokenId)
    (r := { w'.ve.locks tokenId with
      amount := (w'.ve.locks tokenId).amount + amount
      lockStart := call.timestamp
      lockEnd := lockEnd }) ?_ rfl rfl hlockEnd) fun g hg ↦ ?_
  · rw [hcaught]
    exact hmutable.2
  refine Outcome.uint256_bind notViolation_panic fun _ ↦ ?_
  refine Outcome.bind (transferFrom_spec _ _ _ _ _) fun claim _ ↦ ?_
  refine ⟨?_, ?_⟩ <;> rw [pinShareholderObservedMin_ve]
  · exact hacc.rewrite (hacc.owned_of_mutable hmutable.2) hg rfl
      ((hacc.clamps.emit (by simp)).emit (by simp)) rfl rfl rfl rfl fun _ ↦ rfl
  · exact hg.2.trans_le hw'.sound.le_now

theorem extendLockToInternal_spec (h : Sound w call.timestamp) (user : Address)
    (tokenId newEnd : ℕ) (hdecay : (w.ve.locks tokenId).autoMax = false)
    (hactive : call.timestamp < (w.ve.locks tokenId).lockEnd) :
    Outcome (fun w' ↦ Sound w' call.timestamp) NotViolation
      (extendLockToInternal port call w user tokenId newEnd) := by
  unfold extendLockToInternal
  refine Outcome.revertIf_bind (fun _ ↦ by simp [NotViolation]) fun hlonger ↦ ?_
  refine Outcome.bind (h.beginMutation port call user) fun w' hw' ↦ ?_
  refine Outcome.revertIf_bind (fun _ ↦ by simp [NotViolation]) fun hcaught ↦ ?_
  have hcaught : w'.ve.global.globalLastTs = call.timestamp := not_not.mp hcaught
  have hacc := hw'.sound.accounted
  rw [← hw'.locks] at hdecay hactive hlonger ⊢
  generalize hl : w'.ve.locks tokenId = l at *
  have hneed := l.slopeAt_of_decaying hdecay l.lockEnd
  have hcover := slopeAt_le_demand hacc.finite tokenId l.lockEnd
  rw [hl, hneed, if_pos rfl] at hcover
  dsimp only
  refine Outcome.bind (hacc.backed.extend (by omega) (not_le.mp hlonger)
    (by exact_mod_cast hcover)) fun g hg ↦ ?_
  refine ⟨?_, ?_⟩ <;> rw [pinShareholderObservedMin_ve]
  · refine hacc.rewrite (hacc.owned_of_mutable fun _ ↦ hl ▸ hactive) hg rfl
      ((hacc.clamps.emit (by simp)).emit (by simp)) rfl rfl rfl ?_ fun e ↦ ?_
    · simp [hl, Lock.flatBias, hdecay]
    · rw [hl, l.slopeAt_of_decaying hdecay]
      rw [Lock.slopeAt_of_decaying (l := { l with lockEnd := newEnd, lockStart := call.timestamp })
        hdecay]
      push_cast
      rfl
  · exact hg.2.trans_le hw'.sound.le_now

theorem extendLockToFor_spec (h : Sound w call.timestamp) (user : Address)
    (tokenId newEnd : ℕ) :
    Outcome (fun w' ↦ Sound w' call.timestamp) NotViolation
      (extendLockToFor port call w user tokenId newEnd) := by
  unfold extendLockToFor
  refine Outcome.bind (requireCanonicalFurnaceCaller_spec _ _) fun _ _ ↦ ?_
  refine Outcome.revertIf_bind (fun _ ↦ by simp [NotViolation]) fun _ ↦ ?_
  refine Outcome.revertIf_bind (fun _ ↦ by simp [NotViolation]) fun _ ↦ ?_
  refine Outcome.bind (requireMutable_spec _ _) fun _ hmutable ↦ ?_
  dsimp only
  split_ifs with hauto
  · refine Outcome.bind (h.beginMutation port call user) fun w' hw' ↦ ?_
    have hacc := hw'.sound.accounted
    rw [← hw'.locks] at hauto hmutable
    refine Outcome.uint256_bind notViolation_panic fun _ ↦ ?_
    refine ⟨hacc.restyle (hacc.owned_of_mutable hmutable.2) rfl (hacc.clamps.emit (by simp)) rfl
      rfl rfl rfl fun e ↦ ?_, hw'.sound.le_now⟩
    simp [Lock.slopeAt, hauto]
  · have hdecay : (w.ve.locks tokenId).autoMax = false := by simpa using hauto
    refine Outcome.revertIf_bind (fun _ ↦ by simp [NotViolation]) fun _ ↦ ?_
    refine Outcome.uint256_bind notViolation_panic fun _ ↦ ?_
    refine Outcome.revertIf_bind (fun _ ↦ by simp [NotViolation]) fun _ ↦ ?_
    exact extendLockToInternal_spec port call h user tokenId newEnd hdecay (hmutable.2 hdecay)

theorem mergeLocksInternal_spec (h : Sound w call.timestamp) (user : Address)
    (fromTokenId intoTokenId : ℕ) :
    Outcome (fun w' ↦ Sound w' call.timestamp) NotViolation
      (mergeLocksInternal port call w user fromTokenId intoTokenId) := by
  unfold mergeLocksInternal
  refine Outcome.revertIf_bind (fun _ ↦ by simp [NotViolation]) fun hne ↦ ?_
  refine Outcome.bind (requireOwnedLock_spec _ _ _) ?_
  rintro _ ⟨-, rfl⟩
  refine Outcome.bind (requireOwnedLock_spec _ _ _) ?_
  rintro _ ⟨-, rfl⟩
  refine Outcome.bind (requireMutable_spec _ _) fun _ hfrom ↦ ?_
  refine Outcome.bind (requireMutable_spec _ _) fun _ hinto ↦ ?_
  refine Outcome.bind (h.beginMutation port call user) fun w' hw' ↦ ?_
  refine Outcome.revertIf_bind (fun _ ↦ by simp [NotViolation]) fun hcaught ↦ ?_
  have hcaught : w'.ve.global.globalLastTs = call.timestamp := not_not.mp hcaught
  have hacc := hw'.sound.accounted
  rw [← hw'.locks] at hfrom hinto
  refine Outcome.uint256_bind notViolation_panic fun _ ↦ ?_
  refine Outcome.bind (refreshedEnd_spec _ _ _) fun newEnd hnewEnd ↦ ?_
  have hfinite := hacc.finite
  have hflat := flatBias_add_le hfinite hne
  dsimp only
  refine Outcome.bind (hacc.backed.merge hflat (fun hd ↦ hcaught ▸ hfrom.2 hd)
    (fun hd ↦ hcaught ▸ hinto.2 hd) (fun e ↦ ?_) rfl rfl fun hd ↦ ?_) fun g hg ↦ ?_
  · exact_mod_cast slopeAt_add_le_demand hfinite hne e
  · have hmodes : (w'.ve.locks intoTokenId).autoMax = false ∧
        (w'.ve.locks fromTokenId).autoMax = false := by simpa using hd
    have hlonger := hnewEnd hd
    have hfromEnd := hfrom.2 hmodes.2
    have hintoEnd := hinto.2 hmodes.1
    rw [hcaught, hlonger]
    split_ifs <;> assumption
  refine Outcome.bind (burn_spec _) ?_
  rintro s ⟨hassigned, hlocks⟩
  refine ⟨?_, ?_⟩ <;> rw [pinShareholderObservedMin_ve]
  · exact hacc.merge hne (hacc.owned_of_mutable hinto.2) hg hassigned.global
      (((hassigned.clamps hacc.clamps).emit (by simp)).emit (by simp)) hlocks
      hassigned.owners hassigned.nextTokenId
  · exact (congrArg globalLastTs hassigned.global).trans_le (hg.2.trans_le hw'.sound.le_now)

theorem setAutoMax_spec (h : Sound w call.timestamp) (tokenId : ℕ) (enabled : Bool) :
    Outcome (fun w' ↦ Sound w' call.timestamp) NotViolation
      (setAutoMax port call w tokenId enabled) := by
  unfold setAutoMax
  refine Outcome.bind (requireOwnedLock_spec _ _ _) ?_
  rintro _ ⟨-, rfl⟩
  refine Outcome.bind (requireMutable_spec _ _) fun _ hmutable ↦ ?_
  dsimp only
  split_ifs with hsame henabled
  · -- A refresh rewrites times only; an AutoMax lock contributes the same at any end.
    refine Outcome.bind (h.beginMutation port call _) fun w' hw' ↦ ?_
    have hacc := hw'.sound.accounted
    rw [← hw'.locks] at hmutable hsame
    refine Outcome.revertIf_bind (fun _ ↦ by simp [NotViolation]) fun _ ↦ ?_
    refine Outcome.uint256_bind notViolation_panic fun _ ↦ ?_
    refine ⟨hacc.restyle (hacc.owned_of_mutable hmutable.2) rfl (hacc.clamps.emit (by simp)) rfl
      rfl rfl rfl fun e ↦ ?_, hw'.sound.le_now⟩
    simp [Lock.slopeAt, hsame, henabled]
  · exact h
  · refine Outcome.bind (h.beginMutation port call _) fun w' hw' ↦ ?_
    have hacc := hw'.sound.accounted
    rw [← hw'.locks] at hmutable
    refine Outcome.revertIf_bind (fun _ ↦ by simp [NotViolation]) fun hcaught ↦ ?_
    have hcaught : w'.ve.global.globalLastTs = call.timestamp := not_not.mp hcaught
    have hfinite := hacc.finite
    refine Outcome.uint256_bind notViolation_panic fun _ ↦ ?_
    refine Outcome.bind (hacc.backed.toggle (flatBias_le hfinite tokenId)
      (fun hd ↦ ⟨hcaught ▸ hmutable.2 hd, ?_⟩) fun _ ↦ ?_) fun g hg ↦ ?_
    · exact_mod_cast slopeAt_le_demand hfinite tokenId _
    · rw [hcaught]
      exact Nat.lt_add_of_pos_right MAX_LOCK_DURATION_pos
    refine ⟨?_, ?_⟩ <;> rw [pinShareholderObservedMin_ve]
    · exact hacc.rewrite (hacc.owned_of_mutable hmutable.2) hg rfl
        ((hacc.clamps.emit (by simp)).emit (by simp)) rfl rfl rfl rfl fun _ ↦ rfl
    · exact hg.2.trans_le hw'.sound.le_now

theorem unlockTo_spec (h : Sound w call.timestamp) (tokenOwner : Address) (tokenId : ℕ)
    (recipient : Address) :
    Outcome (fun w' ↦ Sound w' call.timestamp) NotViolation
      (unlockTo port call w tokenOwner tokenId recipient) := by
  unfold unlockTo
  refine Outcome.revertIf_bind (fun _ ↦ by simp [NotViolation]) fun _ ↦ ?_
  refine Outcome.bind (requireOwnedLock_spec _ _ _) ?_
  rintro _ ⟨-, rfl⟩
  refine Outcome.revertIf_bind (fun _ ↦ by simp [NotViolation]) fun _ ↦ ?_
  refine Outcome.revertIf_bind (fun _ ↦ by simp [NotViolation]) fun hauto ↦ ?_
  refine Outcome.revertIf_bind (fun _ ↦ by simp [NotViolation]) fun _ ↦ ?_
  refine Outcome.bind (h.beginMutation port call _) fun w' hw' ↦ ?_
  have hacc := hw'.sound.accounted
  have hfinite := hacc.finite
  rw [← hw'.locks] at hauto
  have hdecay : (w'.ve.locks tokenId).autoMax = false := by simpa using hauto
  dsimp only
  refine Outcome.revertIf_bind (fun _ ↦ by simp [NotViolation]) fun _ ↦ ?_
  refine Outcome.bind (hacc.backed.expire hdecay fun _ ↦ ?_) fun g hg ↦ ?_
  · exact_mod_cast slopeAt_le_demand hfinite tokenId _
  refine Outcome.usub_bind notViolation_panic fun _ ↦ ?_
  refine Outcome.bind (burn_spec _) ?_
  rintro s ⟨hassigned, hlocks⟩
  rw [pinShareholderObservedMin_ve, pinShareholderObservedMin_claim]
  refine Outcome.bind (transfer_spec _ _ _ _) fun claim _ ↦ ⟨?_, ?_⟩
  · refine hacc.remove hg hassigned.global ((hassigned.clamps hacc.clamps).emit (by simp)) hlocks
      hassigned.owners hassigned.nextTokenId ?_ fun _ ↦ rfl
    rw [Lock.flatBias_of_decaying hdecay]
    ring
  · exact (congrArg globalLastTs hassigned.global).trans_le (hg.2.trans_le hw'.sound.le_now)

theorem furnaceBurnAndWithdraw_spec (h : Sound w call.timestamp) (tokenId : ℕ)
    (recipient : Address) :
    Outcome (fun w' ↦ Sound w' call.timestamp) NotViolation
      (furnaceBurnAndWithdraw port call w tokenId recipient) := by
  unfold furnaceBurnAndWithdraw
  refine Outcome.bind (requireCanonicalFurnaceCaller_spec _ _) fun _ _ ↦ ?_
  refine Outcome.revertIf_bind (fun _ ↦ by simp [NotViolation]) fun _ ↦ ?_
  refine Outcome.revertIf_bind (fun _ ↦ by simp [NotViolation]) fun _ ↦ ?_
  refine Outcome.revertIf_bind (fun _ ↦ by simp [NotViolation]) fun _ ↦ ?_
  refine Outcome.bind (h.checkpoint call) fun s₀ hs₀ ↦ ?_
  have hw' := hs₀.sound.bestEffort port call s₀.furnace
  dsimp only
  generalize checkpointShareholderRoyaltiesBestEffort call port { w with ve := s₀ } s₀.furnace =
    w' at hw' ⊢
  have hacc := hw'.accounted
  have hfinite := hacc.finite
  refine Outcome.revertIf_bind (fun _ ↦ by simp [NotViolation]) fun _ ↦ ?_
  refine Outcome.bind (hacc.backed.burn (flatBias_le hfinite tokenId) fun _ _ ↦ ?_) fun g hg ↦ ?_
  · exact_mod_cast slopeAt_le_demand hfinite tokenId _
  refine Outcome.usub_bind notViolation_panic fun _ ↦ ?_
  refine Outcome.bind (burn_spec _) ?_
  rintro s ⟨hassigned, hlocks⟩
  rw [pinShareholderObservedMin_ve, pinShareholderObservedMin_claim]
  refine Outcome.bind (transfer_spec _ _ _ _) fun claim _ ↦ ⟨?_, ?_⟩
  · exact hacc.remove hg hassigned.global ((hassigned.clamps hacc.clamps).emit (by simp)) hlocks
      hassigned.owners hassigned.nextTokenId rfl fun _ ↦ rfl
  · exact (congrArg globalLastTs hassigned.global).trans_le (hg.2.trans_le hw'.le_now)

theorem transferFrom_world_spec (h : Sound w call.timestamp) (src dst : Address) (tokenId : ℕ) :
    Outcome (fun w' ↦ Sound w' call.timestamp) NotViolation
      (transferFrom port call w src dst tokenId) := by
  unfold transferFrom
  refine Outcome.revertIf_bind (fun _ ↦ by simp [NotViolation]) fun hdst ↦ ?_
  refine Outcome.revertIf_bind (fun _ ↦ by simp [NotViolation]) fun howned ↦ ?_
  refine Outcome.bind (h.checkpoint call) fun s₀ hs₀ ↦ ?_
  refine Outcome.revertIf_bind (fun _ ↦ by simp [NotViolation]) fun _ ↦ ?_
  refine Outcome.bind (checkpointShareholderRoyalties_spec port call _) fun w₁ hw₁ ↦ ?_
  refine Outcome.bind (checkpointShareholderRoyalties_spec port call _) fun w₂ hw₂ ↦ ?_
  have hve : w₂.ve = s₀ := hw₂.1.trans hw₁.1
  refine Outcome.bind (requireCanonicalMineMarketCaller_spec _ _) fun _ _ ↦ ?_
  refine Outcome.revertIf_bind (fun _ ↦ by simp [NotViolation]) fun _ ↦ ?_
  refine Outcome.revertIf_bind (fun _ ↦ by simp [NotViolation]) fun _ ↦ ?_
  rw [hve]
  refine Outcome.bind (transferOwnership_spec _ _ _) ?_
  rintro s ⟨hassigned, hlocks⟩
  refine Outcome.revertIf_bind (fun _ ↦ by simp [NotViolation]) fun _ ↦ ⟨?_, ?_⟩ <;>
    rw [pinShareholderObservedMin_ve, pinShareholderObservedMin_ve]
  · refine hs₀.sound.accounted.assign ?_ hassigned hlocks hdst
    exact hs₀.owners ▸ howned
  · exact (congrArg globalLastTs hassigned.global).trans_le hs₀.sound.le_now

theorem setListed_spec (h : Sound w call.timestamp) (tokenId : ℕ) (listed : Bool) :
    Outcome (fun w' ↦ Sound w' call.timestamp) NotViolation
      (setListed call w tokenId listed) := by
  unfold setListed
  refine Outcome.bind (requireCanonicalMineMarketCaller_spec _ _) fun _ _ ↦ ?_
  refine Outcome.revertIf_bind (fun _ ↦ by simp [NotViolation]) fun howned ↦ ?_
  have hrestyle (flag : Bool) : Sound { w with
      ve := (w.ve.setLock tokenId { w.ve.locks tokenId with listed := flag }).emit
        (.MetadataUpdate tokenId) } call.timestamp :=
    ⟨h.accounted.restyle howned rfl (h.accounted.clamps.emit (by simp)) rfl rfl rfl rfl
      fun _ ↦ rfl, h.le_now⟩
  dsimp only
  split_ifs
  · refine Outcome.revertIf_bind (fun _ ↦ by simp [NotViolation]) fun _ ↦ ?_
    exact Outcome.revertIf_bind (fun _ ↦ by simp [NotViolation]) fun _ ↦ hrestyle true
  · exact hrestyle false

end ClaimRush.VeClaimNFT
