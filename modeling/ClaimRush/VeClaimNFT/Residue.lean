import ClaimRush.VeClaimNFT.Holdings

/-!
# Residue of early removals

Slopes are added rounded up and removed rounded down.  A lock that leaves its
bucket before its end can therefore leave one unit of slope behind, which stays
scheduled until the end of that lock.  A recorded run remembers those ends.
-/

open Function

namespace ClaimRush.VeClaimNFT

open Constants GlobalState VeState

namespace Lock

variable (l : Lock)

/-- Slope that a removal takes out at time `e`. -/
def slopeRemovedAt (e : ℕ) : ℕ :=
  if l.autoMax = false ∧ l.lockEnd = e then floorSlope l.amount else 0

/-- The end of a decaying lock. -/
def decayingEnds : List ℕ := if l.autoMax then [] else [l.lockEnd]

theorem ceilSlope_le_floorSlope (amount : ℕ) : ceilSlope amount ≤ floorSlope amount + 1 := by
  unfold ceilSlope floorSlope ceilDiv
  split_ifs <;> omega

/-- A removal leaves at most one unit of slope at the end of the lock. -/
theorem slopeAt_le_removed (e : ℕ) :
    l.slopeAt e ≤ l.slopeRemovedAt e + l.decayingEnds.count e := by
  unfold slopeAt slopeRemovedAt decayingEnds
  have hround := ceilSlope_le_floorSlope l.amount
  cases hauto : l.autoMax with
  | true => simp
  | false =>
      by_cases hend : l.lockEnd = e
      · simpa [hend] using hround
      · simp [hend]

theorem slopeAt_eq_zero {e : ℕ} (h : l.lockEnd < e) : l.slopeAt e = 0 := by
  have hne : l.lockEnd ≠ e := h.ne
  simp [slopeAt, hne]

theorem slopeRemovedAt_eq_zero {e : ℕ} (h : l.lockEnd < e) : l.slopeRemovedAt e = 0 := by
  have hne : l.lockEnd ≠ e := h.ne
  simp [slopeRemovedAt, hne]

end Lock

/-! ## Moves of the schedule -/

theorem addSigned_eq (cur : ℕ) (delta : ℤ) :
    Returns (fun n : ℕ ↦ (n : ℤ) = cur + delta) (addSigned cur delta) := by
  unfold addSigned
  split_ifs with hpos
  · refine (outcome_uint256 _).mpr ⟨fun _ ↦ ?_, fun _ ↦ trivial⟩
    push_cast
    omega
  · refine Returns.guard fun _ ↦ Returns.guard fun hle ↦ ?_
    change ((cur - (-delta).toNat : ℕ) : ℤ) = cur + delta
    omega

namespace GlobalState

variable (g : GlobalState)

theorem applyGlobalDelta_schedule (dSlope dBias : ℤ) :
    Returns (fun g' ↦ g'.slopeChanges = g.slopeChanges) (g.applyGlobalDelta dSlope dBias) := by
  unfold applyGlobalDelta
  refine Returns.seq fun slope _ ↦ ?_
  dsimp only
  split_ifs
  · rfl
  · exact Returns.seq fun bias _ ↦ rfl

theorem applySlopeChangeDelta_schedule (time : ℕ) (delta : ℤ) :
    Returns (fun g' ↦ ∀ e, (g'.slopeChanges e : ℤ) =
        g.slopeChanges e + if e = time then delta else 0)
      (g.applySlopeChangeDelta time delta) := by
  unfold applySlopeChangeDelta
  split_ifs with hzero
  · intro e
    simp [hzero]
  · refine Outcome.bind (addSigned_eq _ _) fun next hnext ↦ ?_
    have hwrite (e : ℕ) : ((update g.slopeChanges time next e : ℕ) : ℤ) =
        g.slopeChanges e + if e = time then delta else 0 := by
      by_cases he : e = time
      · subst he
        simpa using hnext
      · simp [he]
    dsimp only
    split_ifs
    · exact hwrite
    · exact hwrite
    · exact Returns.guard fun _ ↦ hwrite
    · exact hwrite

variable (l : Lock) (t : ℕ)

theorem removeContribution_schedule (dSlope dBias : ℤ) :
    Returns (fun r ↦ ∀ e, (r.1.slopeChanges e : ℤ) = g.slopeChanges e - l.slopeRemovedAt e)
      (g.removeContribution l t dSlope dBias) := by
  unfold removeContribution
  split_ifs with hauto
  · refine Returns.seq fun _ _ ↦ Returns.seq fun _ _ ↦ Returns.seq fun _ _ ↦ ?_
    intro e
    simp [Lock.slopeRemovedAt, hauto]
  · refine Outcome.bind (Returns.of_outcome (outcome_slopeScaledRemove _)) ?_
    rintro _ rfl
    refine Outcome.toInt256_bind trivial fun _ ↦ Returns.seq fun _ _ ↦ Returns.seq fun _ _ ↦ ?_
    refine Returns.seq fun _ _ ↦ Returns.seq fun _ _ ↦ ?_
    refine Outcome.bind (g.applySlopeChangeDelta_schedule _ _) fun g' hg' e ↦ ?_
    rw [hg']
    by_cases he : l.lockEnd = e
    · simp [Lock.slopeRemovedAt, hauto, he, sub_eq_add_neg]
    · simp [Lock.slopeRemovedAt, he, Ne.symm he]

theorem addContribution_schedule (dSlope dBias : ℤ) :
    Returns (fun r ↦ ∀ e, (r.1.slopeChanges e : ℤ) = g.slopeChanges e + l.slopeAt e)
      (g.addContribution l t dSlope dBias) := by
  unfold addContribution
  split_ifs with hauto
  · refine Returns.seq fun _ _ ↦ Returns.seq fun _ _ ↦ Returns.seq fun _ _ ↦ ?_
    intro e
    simp [Lock.slopeAt, hauto]
  · refine Outcome.bind (Returns.of_outcome (outcome_slopeScaledAdd _)) ?_
    rintro _ rfl
    refine Outcome.toInt256_bind trivial fun _ ↦ Returns.seq fun _ _ ↦ Returns.seq fun _ _ ↦ ?_
    refine Returns.seq fun _ _ ↦ Returns.seq fun _ _ ↦ ?_
    refine Outcome.bind (g.applySlopeChangeDelta_schedule _ _) fun g' hg' e ↦ ?_
    rw [hg']
    by_cases he : l.lockEnd = e
    · simp [Lock.slopeAt, hauto, he]
    · simp [Lock.slopeAt, he, Ne.symm he]

theorem createContribution_schedule :
    Returns (fun g' ↦ ∀ e, (g'.slopeChanges e : ℤ) = g.slopeChanges e + l.slopeAt e)
      (g.createContribution l t) := by
  refine Outcome.bind (g.addContribution_schedule l t 0 0) fun r hr ↦ ?_
  refine (r.1.applyGlobalDelta_schedule _ _).weaken fun g' hg' e ↦ ?_
  rw [hg', hr]

theorem toggleContribution_schedule (l' : Lock) :
    Returns (fun g' ↦ ∀ e, (g'.slopeChanges e : ℤ) =
        g.slopeChanges e - l.slopeRemovedAt e + l'.slopeAt e)
      (g.toggleContribution l l' t) := by
  refine Outcome.bind (g.removeContribution_schedule l t 0 0) fun r₁ hr₁ ↦ ?_
  refine Outcome.bind (r₁.1.addContribution_schedule l' t _ _) fun r₂ hr₂ ↦ ?_
  refine (r₂.1.applyGlobalDelta_schedule _ _).weaken fun g' hg' e ↦ ?_
  rw [hg', hr₂, hr₁]

theorem mergeContribution_schedule (fromL intoL l' : Lock) :
    Returns (fun g' ↦ ∀ e, (g'.slopeChanges e : ℤ) = g.slopeChanges e -
        fromL.slopeRemovedAt e - intoL.slopeRemovedAt e + l'.slopeAt e)
      (g.mergeContribution fromL intoL l' t) := by
  refine Outcome.bind (g.removeContribution_schedule fromL t 0 0) fun r₁ hr₁ ↦ ?_
  refine Outcome.bind (r₁.1.removeContribution_schedule intoL t _ _) fun r₂ hr₂ ↦ ?_
  refine Outcome.bind (r₂.1.addContribution_schedule l' t _ _) fun r₃ hr₃ ↦ ?_
  refine (r₃.1.applyGlobalDelta_schedule _ _).weaken fun g' hg' e ↦ ?_
  rw [hg', hr₃, hr₂, hr₁]

/-- A top-up moves the bucket of its lock from one ceiling slope to the next. -/
theorem topUpContribution_schedule {r : Lock} (amount : ℕ) (hmode : r.autoMax = l.autoMax)
    (hsame : l.autoMax = false → r.lockEnd = l.lockEnd) :
    Returns (fun g' ↦ ∀ e, (g'.slopeChanges e : ℤ) =
        g.slopeChanges e - l.slopeAt e + r.slopeAt e)
      (g.topUpContribution l amount r.amount t) := by
  unfold topUpContribution
  split_ifs with hauto
  · refine Returns.seq fun _ _ ↦ Returns.seq fun _ _ ↦ ?_
    refine (g.applyGlobalDelta_schedule _ _).weaken fun g' hg' e ↦ ?_
    rw [hg', Lock.slopeAt_of_autoMax hauto, Lock.slopeAt_of_autoMax (hmode.trans hauto)]
    simp
  · have hdecay : l.autoMax = false := by simpa using hauto
    refine Outcome.bind (Returns.of_outcome (outcome_slopeScaledAdd _)) ?_
    rintro _ rfl
    refine Outcome.bind (Returns.of_outcome (outcome_slopeScaledAdd _)) ?_
    rintro _ rfl
    refine Outcome.usub_bind trivial fun hmono ↦ Returns.seq fun _ _ ↦ ?_
    refine Outcome.toInt256_bind trivial fun _ ↦ Returns.seq fun _ _ ↦ ?_
    refine Outcome.bind (g.applySlopeChangeDelta_schedule _ _) fun g₁ hg₁ ↦ ?_
    refine (g₁.applyGlobalDelta_schedule _ _).weaken fun g' hg' e ↦ ?_
    rw [hg', hg₁, Lock.slopeAt_of_decaying hdecay, Lock.slopeAt_of_decaying (hmode.trans hdecay),
      hsame hdecay]
    split_ifs <;> omega

theorem extendContribution_schedule (amount oldEnd newEnd : ℕ) :
    Returns (fun g' ↦ ∀ e, (g'.slopeChanges e : ℤ) = g.slopeChanges e -
        (if e = oldEnd then (ceilSlope amount : ℤ) else 0) +
          if e = newEnd then (ceilSlope amount : ℤ) else 0)
      (g.extendContribution amount oldEnd newEnd t) := by
  unfold extendContribution
  refine Outcome.bind (Returns.of_outcome (outcome_slopeScaledAdd _)) ?_
  rintro _ rfl
  refine Returns.seq fun _ _ ↦ Returns.seq fun _ _ ↦ Returns.seq fun _ _ ↦ ?_
  refine Outcome.bind (g.applyGlobalDelta_schedule _ _) fun g₁ hg₁ ↦ ?_
  refine Outcome.toInt256_bind trivial fun _ ↦ ?_
  refine Outcome.bind (g₁.applySlopeChangeDelta_schedule _ _) fun g₂ hg₂ ↦ ?_
  refine (g₂.applySlopeChangeDelta_schedule _ _).weaken fun g' hg' e ↦ ?_
  rw [hg', hg₂, hg₁]
  split_ifs <;> omega

/-- An expired lock is taken out of no bucket later than its end. -/
theorem expireContribution_schedule :
    Returns (fun g' ↦ ∀ e, l.lockEnd < e → g'.slopeChanges e = g.slopeChanges e)
      (g.expireContribution l t) := by
  unfold expireContribution
  split_ifs
  · refine Returns.seq fun _ _ ↦ Returns.seq fun _ _ ↦ Returns.seq fun _ _ ↦ ?_
    refine Returns.seq fun _ _ ↦ ?_
    refine Outcome.bind (g.applyGlobalDelta_schedule _ _) fun g₁ hg₁ ↦ ?_
    refine (g₁.applySlopeChangeDelta_schedule _ _).weaken fun g' hg' e he ↦ ?_
    have hmoved := hg' e
    rw [if_neg (by omega), hg₁] at hmoved
    omega
  · exact fun _ _ ↦ rfl

theorem burnContribution_schedule :
    Returns (fun g' ↦ ∀ e, t < e →
        (g'.slopeChanges e : ℤ) = g.slopeChanges e - l.slopeRemovedAt e)
      (g.burnContribution l t) := by
  unfold burnContribution
  split_ifs with hcounts
  · refine Outcome.bind (g.removeContribution_schedule l t 0 0) fun r hr ↦ ?_
    refine (r.1.applyGlobalDelta_schedule _ _).weaken fun g' hg' e _ ↦ ?_
    rw [hg', hr]
  · push Not at hcounts
    refine (g.applyGlobalDelta_schedule _ _).weaken fun g' hg' e he ↦ ?_
    rw [hg', l.slopeRemovedAt_eq_zero (by omega)]
    simp

end GlobalState

/-! ## One operation -/

/-- `s'` comes after `s`: the slopes scheduled after `nowTs` exceed the demanded
ones by at most `δ` more than before, and no lock outlives the maximal
duration. -/
structure Drift (nowTs : ℕ) (δ : ℕ → ℤ) (s s' : VeState) : Prop where
  finite : FiniteLocks s.locks → FiniteLocks s'.locks
  slope_le : FiniteLocks s.locks → ∀ e, nowTs < e →
    (s'.global.slopeChanges e : ℤ) - demand s'.locks e ≤
      s.global.slopeChanges e - demand s.locks e + δ e
  horizon : (∀ id, (s.locks id).lockEnd ≤ nowTs + MAX_LOCK_DURATION) →
    ∀ id, (s'.locks id).lockEnd ≤ nowTs + MAX_LOCK_DURATION

namespace Drift

variable {nowTs : ℕ} {δ δ' : ℕ → ℤ} {s s' s'' : VeState}

theorem trans (h : Drift nowTs δ s s') (h' : Drift nowTs δ' s' s'') :
    Drift nowTs (fun e ↦ δ e + δ' e) s s'' where
  finite hs := h'.finite (h.finite hs)
  slope_le hs e he := by
    have h₁ := h.slope_le hs e he
    have h₂ := h'.slope_le (h.finite hs) e he
    omega
  horizon hs := h'.horizon (h.horizon hs)

theorem mono (h : Drift nowTs δ s s') (hle : ∀ e, nowTs < e → δ e ≤ δ' e) :
    Drift nowTs δ' s s' where
  finite := h.finite
  slope_le hs e he := (h.slope_le hs e he).trans (Int.add_le_add_left (hle e he) _)
  horizon := h.horizon

theorem after (h : Drift nowTs (fun _ ↦ 0) s s') (h' : Drift nowTs δ s' s'') :
    Drift nowTs δ s s'' :=
  (h.trans h').mono fun e _ ↦ by simp

/-- Neither the schedule after `nowTs` nor the lock table changes. -/
theorem of_same (hslopes : ∀ e, nowTs < e → s'.global.slopeChanges e = s.global.slopeChanges e)
    (hlocks : s'.locks = s.locks) : Drift nowTs (fun _ ↦ 0) s s' where
  finite hs := hlocks ▸ hs
  slope_le _ e he := by
    rw [hslopes e he, hlocks, add_zero]
  horizon hs := hlocks ▸ hs

/-- Writing one lock. -/
theorem write {tokenId : ℕ} {l : Lock} (hlocks : s'.locks = update s.locks tokenId l)
    (hslope : ∀ e, nowTs < e → (s'.global.slopeChanges e : ℤ) - l.slopeAt e ≤
      s.global.slopeChanges e - (s.locks tokenId).slopeAt e + δ e)
    (hend : (∀ id, (s.locks id).lockEnd ≤ nowTs + MAX_LOCK_DURATION) →
      l.lockEnd ≤ nowTs + MAX_LOCK_DURATION) : Drift nowTs δ s s' where
  finite hs := hlocks ▸ hs.update tokenId l
  slope_le hs e he := by
    have hdemand := demand_update hs tokenId l e
    have := hslope e he
    rw [hlocks]
    omega
  horizon hs id := by
    rw [hlocks]
    by_cases hid : id = tokenId
    · rw [hid, update_self]
      exact hend hs
    · rw [update_of_ne hid]
      exact hs id

/-- Writing one lock whose slopes have been exchanged exactly. -/
theorem exchange {tokenId : ℕ} {l : Lock} (hlocks : s'.locks = update s.locks tokenId l)
    (hslope : ∀ e, (s'.global.slopeChanges e : ℤ) =
      s.global.slopeChanges e - (s.locks tokenId).slopeAt e + l.slopeAt e)
    (hend : (∀ id, (s.locks id).lockEnd ≤ nowTs + MAX_LOCK_DURATION) →
      l.lockEnd ≤ nowTs + MAX_LOCK_DURATION) : Drift nowTs (fun _ ↦ 0) s s' := by
  refine .write hlocks (fun e _ ↦ ?_) hend
  rw [hslope]
  omega

theorem emit (h : Drift nowTs δ s s') (e : Event) : Drift nowTs δ s (s'.emit e) :=
  ⟨h.finite, h.slope_le, h.horizon⟩

/-- Rewriting a lock that needs the same slope. -/
theorem restyle {tokenId : ℕ} {l : Lock} (hglobal : s'.global = s.global)
    (hlocks : s'.locks = update s.locks tokenId l)
    (hslope : ∀ e, l.slopeAt e = (s.locks tokenId).slopeAt e)
    (hend : (∀ id, (s.locks id).lockEnd ≤ nowTs + MAX_LOCK_DURATION) →
      l.lockEnd ≤ nowTs + MAX_LOCK_DURATION) : Drift nowTs (fun _ ↦ 0) s s' := by
  refine .exchange hlocks (fun e ↦ ?_) hend
  rw [hglobal, hslope]
  omega

/-- Burning a token whose slope is still counted. -/
theorem burn {tokenId : ℕ} {l : Lock} (hl : s.locks tokenId = l)
    (hglobal : s'.global = s.global) (hlocks : s'.locks = update s.locks tokenId {}) :
    Drift nowTs (fun e ↦ l.slopeAt e) s s' := by
  refine .write hlocks (fun e _ ↦ ?_) fun _ ↦ Nat.zero_le _
  rw [hglobal, Lock.slopeAt_default, hl]
  omega

end Drift

theorem refreshedEnd_le (nowTs lockEnd : ℕ) (autoMax : Bool) :
    Returns (fun e ↦ lockEnd ≤ nowTs + MAX_LOCK_DURATION → e ≤ nowTs + MAX_LOCK_DURATION)
      (refreshedEnd nowTs lockEnd autoMax) := by
  unfold refreshedEnd
  split_ifs
  · exact (outcome_uint256 _).mpr ⟨fun _ _ ↦ le_rfl, fun _ ↦ trivial⟩
  · exact id

/-- The ends of the slopes that an operation takes out of their buckets: both
locks of a merge, a lock that becomes AutoMax, and a sold lock. -/
def earlyRemovals (s : VeState) : Op → List ℕ
  | .mergeLocksFor _ fromTokenId intoTokenId =>
      (s.locks fromTokenId).decayingEnds ++ (s.locks intoTokenId).decayingEnds
  | .setAutoMax tokenId enabled =>
      if (s.locks tokenId).autoMax = enabled then [] else (s.locks tokenId).decayingEnds
  | .furnaceBurnAndWithdraw tokenId _ => (s.locks tokenId).decayingEnds
  | _ => []

section Operations

variable {S : Type} (port : IShareholderRoyalties S) (call : Call) {w : World S}

theorem checkpoint_drift (h : Sound w call.timestamp) :
    Returns (fun s ↦ Opened w { w with ve := s } call.timestamp ∧
        Drift call.timestamp (fun _ ↦ 0) w.ve s)
      (w.ve.checkpointGlobalStateInternal call.timestamp) := by
  refine (Returns.of_outcome (h.checkpoint call)).and ?_
  refine Outcome.bind (Returns.of_outcome
    (((checkpointGlobalStateInternal_spec h.accounted.backed.exact h.le_now).mono
      (fun _ ↦ id) fun _ ↦ False.elim : Outcome _ NotViolation _))) ?_
  rintro ⟨g, log⟩ ⟨hcp, -⟩
  refine .of_same (fun e he ↦ ?_) rfl
  exact hcp.later e (hcp.le_now.trans_lt he)

theorem beginMutation_drift (h : Sound w call.timestamp) (user : Address) :
    Returns (fun w' ↦ Opened w w' call.timestamp ∧
        Drift call.timestamp (fun _ ↦ 0) w.ve w'.ve) (beginMutation port call w user) := by
  refine (Returns.of_outcome (h.beginMutation port call user)).and ?_
  refine Outcome.bind (checkpoint_drift call h) fun s hs ↦ ?_
  refine (Returns.of_outcome (checkpointShareholderRoyalties_spec port call user)).weaken ?_
  rintro w' ⟨hve, -⟩
  rw [hve]
  exact hs.2

theorem createLock_drift (h : Sound w call.timestamp) (payer user : Address)
    (amount duration : ℕ) (autoMax : Bool) :
    Returns (fun w' ↦ Drift call.timestamp (fun _ ↦ 0) w.ve w'.ve)
      (createLock port call w payer user amount duration autoMax) := by
  unfold createLock
  refine Returns.guard fun _ ↦ Returns.guard fun _ ↦ Returns.guard fun _ ↦ ?_
  refine Returns.guard fun hduration ↦ Returns.guard fun _ ↦ Returns.guard fun _ ↦ ?_
  refine Outcome.uint256_bind trivial fun _ ↦ ?_
  refine Outcome.bind (beginMutation_drift port call h user) ?_
  rintro w' ⟨hw', hbegin⟩
  refine Returns.guard fun _ ↦ ?_
  refine Outcome.bind (createContribution_schedule _ _ _) fun g hg ↦ ?_
  refine Returns.seq fun _ _ ↦ Returns.seq fun _ _ ↦ ?_
  refine Outcome.bind (mint_table _ _ _) ?_
  rintro s ⟨hassigned, hlocks, -⟩
  refine Returns.seq fun claim _ ↦ ?_
  have hunminted := hw'.sound.accounted.burned _ (hw'.sound.accounted.fresh _ le_rfl)
  change Drift _ _ _ (pinShareholderObservedMin call port _ _).ve
  rw [pinShareholderObservedMin_ve]
  refine hbegin.after (.write (congrArg (update · _ _) hlocks) (fun e _ ↦ ?_) fun _ ↦ ?_)
  · have hslopes : s.global.slopeChanges = g.slopeChanges :=
      congrArg slopeChanges hassigned.global
    change (s.global.slopeChanges e : ℤ) - _ ≤ _
    rw [hslopes, hg, hunminted, Lock.slopeAt_default]
    simp
  · dsimp only
    split_ifs <;> omega

theorem addToLock_drift (h : Sound w call.timestamp) (payer user : Address)
    (tokenId amount : ℕ) :
    Returns (fun w' ↦ Drift call.timestamp (fun _ ↦ 0) w.ve w'.ve)
      (addToLock port call w payer user tokenId amount) := by
  unfold addToLock
  refine Returns.guard fun _ ↦ Returns.guard fun _ ↦ Returns.guard fun _ ↦ ?_
  refine Returns.guard fun _ ↦ Returns.seq fun _ _ ↦ ?_
  refine Outcome.bind (beginMutation_drift port call h user) ?_
  rintro w' ⟨-, hbegin⟩
  refine Returns.guard fun _ ↦ Outcome.uint256_bind trivial fun _ ↦ ?_
  refine Outcome.bind ((Returns.of_outcome (refreshedEnd_spec _ _ _)).and
    (refreshedEnd_le _ _ _)) ?_
  rintro lockEnd ⟨hsame, hend⟩
  dsimp only
  refine Outcome.bind (topUpContribution_schedule _ _ _ (r :=
    { w'.ve.locks tokenId with
      amount := (w'.ve.locks tokenId).amount + amount
      lockStart := call.timestamp
      lockEnd := lockEnd }) _ rfl hsame) fun g hg ↦ ?_
  refine Returns.seq fun _ _ ↦ Returns.seq fun claim _ ↦ ?_
  change Drift _ _ _ (pinShareholderObservedMin call port _ _).ve
  rw [pinShareholderObservedMin_ve]
  exact hbegin.after (.exchange rfl hg fun hs ↦ hend (hs tokenId))

theorem extendLockToInternal_drift (h : Sound w call.timestamp) (user : Address)
    (tokenId newEnd : ℕ) (hdecay : (w.ve.locks tokenId).autoMax = false)
    (hhorizon : newEnd ≤ call.timestamp + MAX_LOCK_DURATION) :
    Returns (fun w' ↦ Drift call.timestamp (fun _ ↦ 0) w.ve w'.ve)
      (extendLockToInternal port call w user tokenId newEnd) := by
  unfold extendLockToInternal
  refine Returns.guard fun _ ↦ ?_
  refine Outcome.bind (beginMutation_drift port call h user) ?_
  rintro w' ⟨hw', hbegin⟩
  rw [← hw'.locks] at hdecay ⊢
  refine Returns.guard fun _ ↦ ?_
  refine Outcome.bind (extendContribution_schedule _ _ _ _ _) fun g hg ↦ ?_
  change Drift _ _ _ (pinShareholderObservedMin call port _ _).ve
  rw [pinShareholderObservedMin_ve]
  refine hbegin.after (.exchange rfl (fun e ↦ ?_) fun _ ↦ hhorizon)
  refine (hg e).trans ?_
  rw [Lock.slopeAt_of_decaying hdecay, Lock.slopeAt_of_decaying (l :=
    { w'.ve.locks tokenId with lockEnd := newEnd, lockStart := call.timestamp }) hdecay]
  push_cast
  rfl

theorem extendLockToFor_drift (h : Sound w call.timestamp) (user : Address)
    (tokenId newEnd : ℕ) :
    Returns (fun w' ↦ Drift call.timestamp (fun _ ↦ 0) w.ve w'.ve)
      (extendLockToFor port call w user tokenId newEnd) := by
  unfold extendLockToFor
  refine Returns.seq fun _ _ ↦ Returns.guard fun _ ↦ Returns.guard fun _ ↦ ?_
  refine Returns.seq fun _ _ ↦ ?_
  dsimp only
  split_ifs with hauto
  · refine Outcome.bind (beginMutation_drift port call h user) ?_
    rintro w' ⟨hw', hbegin⟩
    rw [← hw'.locks] at hauto
    refine Outcome.uint256_bind trivial fun _ ↦ ?_
    refine hbegin.after (.restyle rfl rfl (fun e ↦ ?_) fun _ ↦ le_rfl)
    simp [Lock.slopeAt, hauto]
  · refine Returns.guard fun _ ↦ Outcome.uint256_bind trivial fun _ ↦ ?_
    refine Returns.guard fun hmax ↦ ?_
    exact extendLockToInternal_drift port call h user tokenId newEnd (by simpa using hauto)
      (not_lt.mp hmax)

theorem mergeLocksInternal_drift (h : Sound w call.timestamp) (user : Address)
    (fromTokenId intoTokenId : ℕ) :
    Returns (fun w' ↦ Drift call.timestamp (fun e ↦ ((w.ve.locks fromTokenId).decayingEnds ++
        (w.ve.locks intoTokenId).decayingEnds).count e) w.ve w'.ve)
      (mergeLocksInternal port call w user fromTokenId intoTokenId) := by
  unfold mergeLocksInternal
  refine Returns.guard fun hne ↦ Returns.seq fun _ _ ↦ Returns.seq fun _ _ ↦ ?_
  refine Returns.seq fun _ _ ↦ Returns.seq fun _ _ ↦ ?_
  refine Outcome.bind (beginMutation_drift port call h user) ?_
  rintro w' ⟨hw', hbegin⟩
  rw [← hw'.locks]
  refine Returns.guard fun _ ↦ Outcome.uint256_bind trivial fun _ ↦ ?_
  refine Outcome.bind (refreshedEnd_le _ _ _) fun newEnd hend ↦ ?_
  refine Outcome.bind (mergeContribution_schedule _ _ _ _ _) fun g hg ↦ ?_
  refine Outcome.bind (Returns.of_outcome (burn_spec _)) ?_
  rintro s ⟨hassigned, hlocks⟩
  change Drift _ _ _ (pinShareholderObservedMin call port _ _).ve
  rw [pinShareholderObservedMin_ve]
  -- The surviving lock is written with both old slopes gone, then the other token is burned.
  have hburn : Drift call.timestamp (fun e ↦ (w'.ve.locks fromTokenId).slopeAt e) _ s :=
    .burn (update_of_ne hne _ _) hassigned.global hlocks
  refine hbegin.after (((((.write rfl (fun e _ ↦ ?_) fun hs ↦ ?_ : Drift call.timestamp
    (fun e ↦ (w'.ve.locks intoTokenId).decayingEnds.count e -
      (w'.ve.locks fromTokenId).slopeRemovedAt e) w'.ve _)).trans hburn).mono fun e _ ↦ ?_
      ).emit _ |>.emit _)
  · have hmoved := hg e
    have hinto := (w'.ve.locks intoTokenId).slopeAt_le_removed e
    change (g.slopeChanges e : ℤ) - _ ≤ _
    omega
  · refine hend ?_
    split_ifs
    · exact hs intoTokenId
    · exact hs fromTokenId
  · have hfrom := (w'.ve.locks fromTokenId).slopeAt_le_removed e
    rw [List.count_append]
    omega

theorem setAutoMax_drift (h : Sound w call.timestamp) (tokenId : ℕ) (enabled : Bool) :
    Returns (fun w' ↦ Drift call.timestamp (fun e ↦
        (earlyRemovals w.ve (.setAutoMax tokenId enabled)).count e) w.ve w'.ve)
      (setAutoMax port call w tokenId enabled) := by
  unfold setAutoMax earlyRemovals
  refine Outcome.bind (Returns.of_outcome (requireOwnedLock_spec _ _ _)) ?_
  rintro _ ⟨-, rfl⟩
  refine Returns.seq fun _ _ ↦ ?_
  dsimp only
  split_ifs with hsame henabled
  · refine Outcome.bind (beginMutation_drift port call h _) ?_
    rintro w' ⟨hw', hbegin⟩
    rw [← hw'.locks] at hsame
    refine Returns.guard fun _ ↦ Outcome.uint256_bind trivial fun _ ↦ ?_
    refine hbegin.after (.restyle rfl rfl (fun e ↦ ?_) fun _ ↦ le_rfl)
    simp [Lock.slopeAt, hsame, henabled]
  · exact .of_same (fun _ _ ↦ rfl) rfl
  · refine Outcome.bind (beginMutation_drift port call h _) ?_
    rintro w' ⟨hw', hbegin⟩
    rw [← hw'.locks]
    refine Returns.guard fun _ ↦ Outcome.uint256_bind trivial fun _ ↦ ?_
    refine Outcome.bind (toggleContribution_schedule _ _ _ _) fun g hg ↦ ?_
    change Drift _ _ _ (pinShareholderObservedMin call port _ _).ve
    rw [pinShareholderObservedMin_ve]
    refine hbegin.after (.write rfl (fun e _ ↦ ?_) fun _ ↦ le_rfl)
    have hmoved := hg e
    have hremoved := (w'.ve.locks tokenId).slopeAt_le_removed e
    change (g.slopeChanges e : ℤ) - _ ≤ _
    omega

theorem unlockTo_drift (h : Sound w call.timestamp) (tokenOwner : Address) (tokenId : ℕ)
    (recipient : Address) :
    Returns (fun w' ↦ Drift call.timestamp (fun _ ↦ 0) w.ve w'.ve)
      (unlockTo port call w tokenOwner tokenId recipient) := by
  unfold unlockTo
  refine Returns.guard fun _ ↦ ?_
  refine Outcome.bind (Returns.of_outcome (requireOwnedLock_spec _ _ _)) ?_
  rintro _ ⟨-, rfl⟩
  refine Returns.guard fun _ ↦ Returns.guard fun _ ↦ Returns.guard fun hexpired ↦ ?_
  refine Outcome.bind (beginMutation_drift port call h _) ?_
  rintro w' ⟨hw', hbegin⟩
  rw [← hw'.locks] at hexpired
  refine Returns.guard fun _ ↦ ?_
  refine Outcome.bind (expireContribution_schedule _ _ _) fun g hg ↦ Returns.seq fun _ _ ↦ ?_
  refine Outcome.bind (Returns.of_outcome (burn_spec _)) ?_
  rintro s ⟨hassigned, hlocks⟩
  refine Returns.seq fun claim _ ↦ ?_
  change Drift _ _ _ (VeState.emit (pinShareholderObservedMin call port _ _).ve _)
  rw [pinShareholderObservedMin_ve]
  refine hbegin.after (.write hlocks (fun e he ↦ ?_) fun _ ↦ Nat.zero_le _)
  have hslopes : s.global.slopeChanges = g.slopeChanges :=
    congrArg slopeChanges hassigned.global
  change (s.global.slopeChanges e : ℤ) - _ ≤ _
  rw [hslopes, hg e (by omega), Lock.slopeAt_default, Lock.slopeAt_eq_zero _ (by omega)]
  simp

theorem furnaceBurnAndWithdraw_drift (h : Sound w call.timestamp) (tokenId : ℕ)
    (recipient : Address) :
    Returns (fun w' ↦ Drift call.timestamp
        (fun e ↦ (w.ve.locks tokenId).decayingEnds.count e) w.ve w'.ve)
      (furnaceBurnAndWithdraw port call w tokenId recipient) := by
  unfold furnaceBurnAndWithdraw
  refine Returns.seq fun _ _ ↦ Returns.guard fun _ ↦ Returns.guard fun _ ↦ ?_
  refine Returns.guard fun _ ↦ Outcome.bind (checkpoint_drift call h) ?_
  rintro s₀ ⟨hs₀, hbegin⟩
  have hw' := hs₀.sound.bestEffort port call s₀.furnace
  obtain ⟨hglobal, hlocks₀⟩ :
      (checkpointShareholderRoyaltiesBestEffort call port
        { w with ve := s₀ } s₀.furnace).ve.global = s₀.global ∧
      (checkpointShareholderRoyaltiesBestEffort call port { w with ve := s₀ } s₀.furnace).ve.locks =
        s₀.locks := by
    unfold checkpointShareholderRoyaltiesBestEffort
    dsimp only
    split_ifs
    · exact ⟨rfl, rfl⟩
    · split <;> exact ⟨rfl, rfl⟩
  dsimp only
  generalize checkpointShareholderRoyaltiesBestEffort call port { w with ve := s₀ } s₀.furnace =
    w' at hw' hglobal hlocks₀ ⊢
  refine Returns.guard fun _ ↦ ?_
  refine Outcome.bind (burnContribution_schedule _ _ _) fun g hg ↦ Returns.seq fun _ _ ↦ ?_
  refine Outcome.bind (Returns.of_outcome (burn_spec _)) ?_
  rintro s ⟨hassigned, hlocks⟩
  refine Returns.seq fun claim _ ↦ ?_
  change Drift _ _ _ (VeState.emit (pinShareholderObservedMin call port _ _).ve _)
  rw [pinShareholderObservedMin_ve]
  have hbest : Drift call.timestamp (fun _ ↦ 0) s₀ w'.ve :=
    .of_same (fun e _ ↦ by rw [hglobal]) hlocks₀
  have hlocks₁ : w.ve.locks = w'.ve.locks := (hlocks₀.trans hs₀.locks).symm
  rw [hlocks₁]
  refine (hbegin.after hbest).after (.write hlocks (fun e he ↦ ?_) fun _ ↦ Nat.zero_le _)
  have hslopes : s.global.slopeChanges = g.slopeChanges :=
    congrArg slopeChanges hassigned.global
  have hremoved := (w'.ve.locks tokenId).slopeAt_le_removed e
  have hmoved := hg e (hw'.le_now.trans_lt he)
  change (s.global.slopeChanges e : ℤ) - _ ≤ _
  rw [hslopes, hmoved, Lock.slopeAt_default]
  omega

theorem transferFrom_drift (h : Sound w call.timestamp) (src dst : Address) (tokenId : ℕ) :
    Returns (fun w' ↦ Drift call.timestamp (fun _ ↦ 0) w.ve w'.ve)
      (transferFrom port call w src dst tokenId) := by
  unfold transferFrom
  refine Returns.guard fun _ ↦ Returns.guard fun _ ↦ ?_
  refine Outcome.bind (checkpoint_drift call h) ?_
  rintro s₀ ⟨-, hbegin⟩
  refine Returns.guard fun _ ↦ ?_
  refine Outcome.bind (Returns.of_outcome (checkpointShareholderRoyalties_spec port call _))
    fun w₁ hw₁ ↦ ?_
  refine Outcome.bind (Returns.of_outcome (checkpointShareholderRoyalties_spec port call _))
    fun w₂ hw₂ ↦ ?_
  have hve : w₂.ve = s₀ := hw₂.1.trans hw₁.1
  refine Returns.seq fun _ _ ↦ Returns.guard fun _ ↦ Returns.guard fun _ ↦ ?_
  rw [hve]
  refine Outcome.bind (Returns.of_outcome (transferOwnership_spec _ _ _)) ?_
  rintro s ⟨hassigned, hlocks⟩
  refine Returns.guard fun _ ↦ ?_
  change Drift _ _ _ (pinShareholderObservedMin call port _ _).ve
  rw [pinShareholderObservedMin_ve, pinShareholderObservedMin_ve]
  exact hbegin.after (.of_same (fun e _ ↦ by rw [hassigned.global]) hlocks)

theorem setListed_drift (tokenId : ℕ) (listed : Bool) :
    Returns (fun w' ↦ Drift call.timestamp (fun _ ↦ 0) w.ve w'.ve)
      (setListed call w tokenId listed) := by
  have hrestyle (flag : Bool) : Drift call.timestamp (fun _ ↦ 0) w.ve
      ((w.ve.setLock tokenId { w.ve.locks tokenId with listed := flag }).emit
        (.MetadataUpdate tokenId)) := by
    exact .restyle rfl rfl (fun _ ↦ rfl) fun hs ↦ hs tokenId
  unfold setListed
  refine Returns.seq fun _ _ ↦ Returns.guard fun _ ↦ ?_
  dsimp only
  split_ifs
  · exact Returns.guard fun _ ↦ Returns.guard fun _ ↦ hrestyle true
  · exact hrestyle false

/-- Every operation leaves at most one unit of slope behind for each lock that it
removes early. -/
theorem exec_drift (h : Sound w call.timestamp) (op : Op) :
    Returns (fun w' ↦ Drift call.timestamp (fun e ↦ (earlyRemovals w.ve op).count e) w.ve w'.ve)
      (exec port call w op) := by
  have hsame {s : VeState} (hglobal : s.global = w.ve.global) (hlocks : s.locks = w.ve.locks) :
      Drift call.timestamp (fun _ ↦ 0) w.ve s :=
    .of_same (fun e _ ↦ by rw [hglobal]) hlocks
  cases op with
  | createLockFor user amount duration autoMax =>
      exact Returns.seq fun _ _ ↦ createLock_drift port call h _ _ _ _ _
  | addToLockFor user tokenId amount =>
      exact Returns.seq fun _ _ ↦ addToLock_drift port call h _ _ _ _
  | extendLockToFor user tokenId newEnd => exact extendLockToFor_drift port call h _ _ _
  | mergeLocksFor user fromTokenId intoTokenId =>
      exact Returns.seq fun _ _ ↦ mergeLocksInternal_drift port call h _ _ _
  | setAutoMax tokenId enabled => exact setAutoMax_drift port call h _ _
  | unlock tokenId => exact unlockTo_drift port call h _ _ _
  | unlockExpiredForUser user tokenId =>
      refine Returns.seq fun _ _ ↦ ?_
      exact Outcome.bind (unlockTo_drift port call h _ _ _) fun w' hw' ↦ hw'.emit _
  | furnaceBurnAndWithdraw tokenId recipient =>
      exact furnaceBurnAndWithdraw_drift port call h _ _
  | transferFrom src dst tokenId => exact transferFrom_drift port call h _ _ _
  | safeTransferFrom src dst tokenId =>
      refine Outcome.bind (transferFrom_drift port call h _ _ _) fun w' hw' ↦ ?_
      exact Returns.guard fun _ ↦ hw'
  | setListed tokenId listed => exact setListed_drift call _ _
  | checkpointGlobalState => exact Outcome.bind (checkpoint_drift call h) fun s hs ↦ hs.2
  | setMineMarket mineMarket =>
      refine Returns.guard fun _ ↦ Returns.guard fun _ ↦ Returns.guard fun _ ↦ ?_
      exact Returns.guard fun _ ↦ Returns.guard fun _ ↦ Returns.seq fun _ _ ↦ hsame rfl rfl
  | setFurnace furnace =>
      refine Returns.guard fun _ ↦ Returns.guard fun _ ↦ Returns.guard fun _ ↦ ?_
      exact Returns.guard fun _ ↦ Returns.guard fun _ ↦ Returns.seq fun _ _ ↦ hsame rfl rfl
  | freezeConfig =>
      refine Returns.guard fun _ ↦ Returns.guard fun _ ↦ Returns.guard fun _ ↦ ?_
      refine Returns.guard fun _ ↦ Returns.seq fun _ _ ↦ Returns.guard fun _ ↦ ?_
      refine Returns.seq fun sr _ ↦ ?_
      dsimp only
      split_ifs
      · exact Returns.guard fun _ ↦ Returns.guard fun _ ↦ hsame rfl rfl
      · exact hsame rfl rfl

end Operations

/-! ## Recorded runs -/

/-- A configuration together with the ends of all early removals of its run. -/
structure Recorded (S : Type) where
  config : Config S
  removedEnds : List ℕ

section Runs

variable {S : Type} {port : IShareholderRoyalties S}

inductive RecordedStep (port : IShareholderRoyalties S) : Recorded S → Recorded S → Prop
  | op {c : Config S} {w : World S} (ends : List ℕ) (call : Call) (op : Op)
      (hnow : c.now ≤ call.timestamp) (hexec : exec port call c.world op = .ok w) :
      RecordedStep port ⟨c, ends⟩ ⟨⟨call.timestamp, w⟩, earlyRemovals c.world.ve op ++ ends⟩
  | outside (c : Config S) (ends : List ℕ) (royalties : S) (claim : ClaimToken) :
      RecordedStep port ⟨c, ends⟩
        ⟨⟨c.now, { ve := c.world.ve, royalties := royalties, claim := claim }⟩, ends⟩

/-- The runs of the lock contract, with their early removals recorded. -/
def recordedSystem (port : IShareholderRoyalties S) : TransitionSystem (Recorded S) where
  init r := (system port).init r.config ∧ r.removedEnds = []
  step := RecordedStep port

/-- Recording changes nothing: every reachable configuration has a record. -/
theorem reachable_iff_recorded {c : Config S} : (system port).Reachable c ↔
    ∃ ends, (recordedSystem port).Reachable ⟨c, ends⟩ := by
  constructor
  · intro h
    induction h with
    | init h => exact ⟨[], .init ⟨h, rfl⟩⟩
    | step _ hstep ih =>
        obtain ⟨ends, hr⟩ := ih
        cases hstep with
        | op call op hnow hexec => exact ⟨_, hr.step (.op ends call op hnow hexec)⟩
        | outside royalties claim => exact ⟨_, hr.step (.outside _ ends royalties claim)⟩
  · rintro ⟨ends, h⟩
    refine h.invariant (I := fun r ↦ (system port).Reachable r.config) ?_ ?_
    · exact fun r hr ↦ .init hr.1
    rintro r r' - hr hstep
    cases hstep with
    | op ends call op hnow hexec => exact hr.step (.op call op hnow hexec)
    | outside c ends royalties claim => exact hr.step (.outside c royalties claim)

/-- The residue at each later time is at most the number of recorded removals,
and no lock or removal ends beyond the maximal duration. -/
structure Bounded (r : Recorded S) : Prop where
  slope_le : ∀ e, r.config.now < e → r.config.world.ve.global.slopeChanges e ≤
    demand r.config.world.ve.locks e + r.removedEnds.count e
  horizon : ∀ id, (r.config.world.ve.locks id).lockEnd ≤ r.config.now + MAX_LOCK_DURATION
  removed : ∀ e ∈ r.removedEnds, e ≤ r.config.now + MAX_LOCK_DURATION

/-- Every recorded end is the end of some lock. -/
theorem mem_earlyRemovals {s : VeState} {op : Op} {e : ℕ} (h : e ∈ earlyRemovals s op) :
    ∃ id, (s.locks id).lockEnd = e := by
  have hends {id : ℕ} (hid : e ∈ (s.locks id).decayingEnds) : (s.locks id).lockEnd = e := by
    unfold Lock.decayingEnds at hid
    split_ifs at hid
    · cases hid
    · exact (List.mem_singleton.mp hid).symm
  cases op with
  | mergeLocksFor user fromTokenId intoTokenId =>
      rcases List.mem_append.mp h with h | h
      · exact ⟨_, hends h⟩
      · exact ⟨_, hends h⟩
  | setAutoMax tokenId enabled =>
      unfold earlyRemovals at h
      dsimp only at h
      split_ifs at h
      · cases h
      · exact ⟨_, hends h⟩
  | furnaceBurnAndWithdraw tokenId recipient => exact ⟨_, hends h⟩
  | _ => cases h

theorem Bounded.step {r r' : Recorded S} (h : Bounded r)
    (hsound : Sound r.config.world r.config.now) (hstep : RecordedStep port r r') :
    Bounded r' := by
  cases hstep with
  | op ends call op hnow hexec =>
      rename_i c w
      have hdrift := (exec_drift port call
        ⟨hsound.accounted, hsound.le_now.trans hnow⟩ op).of_ok hexec
      have hhorizon (id : ℕ) : (c.world.ve.locks id).lockEnd ≤
          call.timestamp + MAX_LOCK_DURATION :=
        (h.horizon id).trans (Nat.add_le_add_right hnow _)
      refine ⟨fun e he ↦ ?_, hdrift.horizon hhorizon, fun e he ↦ ?_⟩
      · have hbefore := h.slope_le e (hnow.trans_lt he)
        have hafter := hdrift.slope_le hsound.accounted.finite e he
        rw [List.count_append]
        dsimp only at hbefore hafter ⊢
        omega
      · rcases List.mem_append.mp he with he | he
        · obtain ⟨id, rfl⟩ := mem_earlyRemovals he
          exact hhorizon id
        · exact (h.removed e he).trans (Nat.add_le_add_right hnow _)
  | outside c ends royalties claim => exact ⟨h.slope_le, h.horizon, h.removed⟩

theorem reachable_bounded {r : Recorded S} (h : (recordedSystem port).Reachable r) :
    Sound r.config.world r.config.now ∧ Bounded r := by
  have hsound {r : Recorded S} (hr : (recordedSystem port).Reachable r) :
      Sound r.config.world r.config.now :=
    reachable_sound (reachable_iff_recorded.mpr ⟨r.removedEnds, hr⟩)
  refine ⟨hsound h, h.invariant (I := Bounded) ?_ fun r r' hr hb hstep ↦ hb.step (hsound hr) hstep⟩
  rintro r ⟨⟨deployment, -, self, claimToken, owner, hve⟩, hends⟩
  refine ⟨fun e _ ↦ ?_, fun id ↦ ?_, fun e he ↦ ?_⟩
  · rw [hve]
    exact Nat.zero_le _
  · rw [hve]
    exact Nat.zero_le _
  · rw [hends] at he
    cases he

end Runs

end ClaimRush.VeClaimNFT
