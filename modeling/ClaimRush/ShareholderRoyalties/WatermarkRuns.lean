import ClaimRush.ShareholderRoyalties.Watermark

/-!
# Runs without an override of the watermark

The watermark stays sound over all operations of both contracts, with payouts
that call back, when the owner does not override it and every aggregate raise is
a call of its own that names all holders of decaying locks.
-/

namespace ClaimRush.ShareholderRoyalties

open Constants VeClaimNFT

/-! ## Permitted calls -/

/-- The owner's writes of the watermark. -/
def UnguardedOp.raises : UnguardedOp → Bool
  | .forceSetOldestObservedNonAutoMaxLockEnd _ => true
  | .seedWatermarkOnUpgrade => true
  | .recomputeGlobalWatermark _ _ => true
  | _ => false

/-- No override, and a raise with all holders. -/
def UnguardedOp.Permitted (w : Worlds) : UnguardedOp → Prop
  | .forceSetOldestObservedNonAutoMaxLockEnd _ => False
  | .seedWatermarkOnUpgrade => False
  | .recomputeGlobalWatermark candidates _ => Exhaustive w.ve candidates
  | _ => True

/-- The callee does not write the watermark as the owner. -/
def Callee.Quiet (callee : Callee) : Prop := ∀ step ∈ callee.reentries, step.2.raises = false

def Op.Permitted (w : Worlds) : Op → Prop
  | .unguarded op => op.Permitted w
  | .sweepDust _ callee => callee.Quiet
  | .claimShareholder _ callee => callee.Quiet
  | .claimShareholderFor _ _ callee => callee.Quiet
  | .claimShareholderForTo _ _ callee => callee.Quiet
  | .claimShareholderTo _ _ callee => callee.Quiet
  | .compoundFor _ attempt => attempt.callee.Quiet
  | .compoundForMany _ _ attempts => ∀ i, (attempts i).callee.Quiet
  | .onTakeover _ _ _ | .addPendingShareholderETH _ _ _ | .flushPendingShareholderETH _ => True

/-- Both contracts, with permitted calls only. -/
def watched : TransitionSystem Config where
  init := system.init
  step c c' := ∃ call op w, c.now ≤ call.timestamp ∧ op.Permitted c.world ∧
    exec call c.world op = .ok w ∧ c' = ⟨call.timestamp, w⟩

theorem UnguardedOp.permitted_of_quiet {op : UnguardedOp} (h : op.raises = false) (w : Worlds) :
    op.Permitted w := by
  cases op <;> trivial

/-! ## Unguarded operations and callees -/

section Operations

variable {call : Call} {w w' : Worlds}

theorem execUnguarded_watched (h : Watched w call.timestamp) (op : UnguardedOp)
    (hop : op.Permitted w) : Returns (Watched · call.timestamp) (execUnguarded call w op) := by
  cases op with
  | lock op => exact lock_watched call h op
  | checkpointUser user => exact checkpoint_watched h user
  | checkpointUserBatch users maxUsers => exact h.royalties (checkpointUserBatch_narrows _ _ _ _)
  | checkpointTransfer src dst =>
      refine Outcome.bind (Q := fun r ↦ r.oldestObservedNonAutoMaxLockEnd ≤
        w.royalties.oldestObservedNonAutoMaxLockEnd) ?_ fun r hr ↦ h.royalties hr
      unfold checkpointTransfer
      refine Returns.guard fun _ ↦ Returns.ite (fun _ ↦ le_rfl) fun _ ↦ ?_
      refine Outcome.bind (checkpointUser_narrows call w.ve w.royalties src) fun r₁ hr₁ ↦ ?_
      exact (checkpointUser_narrows call w.ve r₁ dst).weaken fun r₂ hr₂ ↦ hr₂.trans hr₁
  | pinUserObservedMin user => exact h.royalties (pinUserObservedMin_narrows _ _ _)
  | setWiring mineCore mineMarket furnace gasLoops => exact setWiring_watched h _ _ _ _
  | freezeConfig =>
      refine Returns.seq fun _ _ ↦ Returns.guard fun _ ↦ Returns.guard fun _ ↦ ?_
      refine Returns.guard fun _ ↦ Returns.guard fun _ ↦ Returns.seq fun _ _ ↦ ?_
      exact h.royalties le_rfl
  | setClaimAllHelper helper =>
      refine Returns.seq fun _ _ ↦ Returns.guard fun _ ↦ Returns.guard fun _ ↦ ?_
      exact Returns.guard fun _ ↦ Returns.guard fun _ ↦ h.royalties le_rfl
  | setAutoCompoundKeeper keeper allowed =>
      refine Returns.seq fun _ _ ↦ Returns.guard fun _ ↦ Returns.guard fun _ ↦ ?_
      exact h.royalties le_rfl
  | setMinAutoCompoundEth floor => exact Returns.seq fun _ _ ↦ h.royalties le_rfl
  | forceSetOldestObservedNonAutoMaxLockEnd newValue => exact hop.elim
  | seedWatermarkOnUpgrade => exact hop.elim
  | recomputeGlobalWatermark candidates exhaustive =>
      exact recomputeGlobalWatermark_watched h hop exhaustive
  | setAutoCompoundConfig cfg => exact setAutoCompoundConfigOf_watched h _ cfg
  | setAutoCompoundConfigForUser user cfg =>
      refine Returns.guard fun _ ↦ Returns.seq fun _ _ ↦ ?_
      exact Outcome.bind (setAutoCompoundConfigOf_watched h user cfg) fun _ hw' ↦
        hw'.royalties le_rfl
  | forceEth amount => exact h.royalties le_rfl
  | moveClaim claim =>
      exact ⟨⟨h.sound.accounted, h.sound.le_now⟩, h.enumerated, h.live, h.ceiling, h.below⟩

theorem reenter_watched (h : Watched w call.timestamp) {step : Call × UnguardedOp}
    (hquiet : step.2.raises = false) : Watched (reenter call w step) call.timestamp := by
  have hblock : Watched w (inBlock call step.1).timestamp := h
  have hspec := execUnguarded_watched hblock step.2 (UnguardedOp.permitted_of_quiet hquiet w)
  unfold reenter
  cases hrun : execUnguarded (inBlock call step.1) w step.2 with
  | ok w' => exact hspec.of_ok hrun
  | error e => exact h

theorem reentries_watched (h : Watched w call.timestamp) {steps : List (Call × UnguardedOp)}
    (hquiet : ∀ step ∈ steps, step.2.raises = false) :
    Watched (steps.foldl (reenter call) w) call.timestamp := by
  induction steps generalizing w with
  | nil => exact h
  | cons step steps ih =>
      obtain ⟨hstep, hsteps⟩ := List.forall_mem_cons.mp hquiet
      exact ih (reenter_watched h hstep) hsteps

theorem callee_watched {callee : Callee} {value : ℕ} (h : Watched w call.timestamp)
    (hquiet : callee.Quiet) (hrun : callee.run call w value = some w') :
    Watched w' call.timestamp := by
  unfold Callee.run at hrun
  split_ifs at hrun
  obtain rfl := Option.some.inj hrun
  refine reentries_watched (h.royalties ?_) hquiet
  exact le_rfl

/-! ## Payouts -/

section Payouts

variable {callee : Callee} {user : Address} {amount : ℕ}

theorem takeStored_watched (h : Watched w call.timestamp) (user : Address) (amount : ℕ) :
    Returns (fun r ↦ Watched { w with royalties := r } call.timestamp)
      (takeStored user amount w.royalties) := by
  refine (takeStored_spec user amount w.royalties).weaken ?_
  rintro _ ⟨-, rfl⟩
  exact h.royalties le_rfl

theorem pushEth_watched (h : Watched w call.timestamp) (hquiet : callee.Quiet) (amount : ℕ) :
    Returns (Watched · call.timestamp) (pushEth call w callee amount) :=
  pushEth_returns.weaken fun _ hrun ↦ callee_watched h hquiet hrun

theorem lockEthReward_watched (h : Watched w call.timestamp) (hquiet : callee.Quiet) (amount : ℕ) :
    Returns (Watched · call.timestamp) (lockEthReward call w callee amount) :=
  lockEthReward_returns.weaken fun _ hrun ↦ callee_watched h hquiet hrun

theorem claimShareholderOf_watched (h : Watched w call.timestamp) (hquiet : callee.Quiet)
    (user : Address) (mode : Mode) :
    Returns (Watched · call.timestamp) (claimShareholderOf call w user mode callee) := by
  unfold claimShareholderOf
  refine Returns.guard fun _ ↦ Outcome.bind (checkpoint_watched h user) fun w₁ hw₁ ↦ ?_
  refine Returns.ite (fun _ ↦ hw₁) fun _ ↦ ?_
  refine Outcome.bind (takeStored_watched hw₁ user _) fun r hr ↦ ?_
  cases mode with
  | eth => exact Outcome.bind (pushEth_watched hr hquiet _) fun _ hw₂ ↦ hw₂.royalties le_rfl
  | lockFurnace =>
      exact Outcome.bind (lockEthReward_watched hr hquiet _) fun _ hw₂ ↦ hw₂.royalties le_rfl
  | invalid => trivial

theorem claimShareholderForTo_watched (h : Watched w call.timestamp) (hquiet : callee.Quiet)
    (user dst : Address) :
    Returns (Watched · call.timestamp) (claimShareholderForTo call w user dst callee) := by
  unfold claimShareholderForTo
  refine Returns.seq fun _ _ ↦ Returns.guard fun _ ↦ ?_
  refine Outcome.bind (checkpoint_watched h user) fun w₁ hw₁ ↦ ?_
  refine Returns.ite (fun _ ↦ hw₁) fun _ ↦ ?_
  refine Outcome.bind (takeStored_watched hw₁ user _) fun r hr ↦ ?_
  exact Outcome.bind (pushEth_watched hr hquiet _) fun _ hw₂ ↦ hw₂.royalties le_rfl

theorem claimShareholderTo_watched (h : Watched w call.timestamp) (hquiet : callee.Quiet)
    (dst : Address) (mode : Mode) :
    Returns (Watched · call.timestamp) (claimShareholderTo call w dst mode callee) := by
  unfold claimShareholderTo
  refine Returns.guard fun _ ↦ Outcome.bind (checkpoint_watched h _) fun w₁ hw₁ ↦ ?_
  refine Returns.ite (fun _ ↦ hw₁) fun _ ↦ ?_
  refine Outcome.bind (takeStored_watched hw₁ _ _) fun r hr ↦ ?_
  cases mode with
  | eth => exact Outcome.bind (pushEth_watched hr hquiet _) fun _ hw₂ ↦ hw₂.royalties le_rfl
  | lockFurnace =>
      exact Returns.guard fun _ ↦ Outcome.bind (lockEthReward_watched hr hquiet _) fun _ hw₂ ↦
        hw₂.royalties le_rfl
  | invalid => trivial

theorem sweepDust_watched (h : Watched w call.timestamp) (hquiet : callee.Quiet) (dst : Address) :
    Returns (Watched · call.timestamp) (sweepDust call w dst callee) := by
  unfold sweepDust
  refine Returns.seq fun _ _ ↦ Returns.seq fun _ _ ↦ Returns.guard fun _ ↦ ?_
  refine Returns.seq fun _ _ ↦ Returns.seq fun _ _ ↦ ?_
  refine Returns.guard fun _ ↦ Returns.guard fun _ ↦ Returns.guard fun _ ↦ ?_
  refine Outcome.bind pushEth_returns fun w₂ hrun ↦ ?_
  have hw₂ : Watched w₂ call.timestamp := by
    refine callee_watched (h.royalties ?_) hquiet hrun
    exact le_rfl
  exact hw₂.royalties le_rfl

/-! ## Auto-compounding -/

theorem beginCompound_watched (h : Watched w call.timestamp) (user : Address) (amount : ℕ) :
    Returns (fun r ↦ Watched { w with royalties := r } call.timestamp)
      (beginCompound call user amount w.royalties) := by
  refine Outcome.bind (takeStored_watched h user amount) fun r hr ↦ ?_
  exact hr.royalties le_rfl

theorem reportBelowMinimum_watched (h : Watched w call.timestamp) (user : Address) (amount : ℕ) :
    Watched { w with royalties := reportBelowMinimum user amount w.royalties } call.timestamp := by
  refine h.royalties ?_
  unfold reportBelowMinimum
  split_ifs
  · exact le_rfl
  · exact le_rfl

theorem compoundStored_watched (h : Watched w call.timestamp) {attempt : CompoundAttempt}
    (hquiet : attempt.callee.Quiet) (user : Address) :
    Returns (Watched · call.timestamp) (compoundStored call w user attempt) := by
  unfold compoundStored
  dsimp only
  refine Returns.ite (fun _ ↦ reportBelowMinimum_watched h _ _) fun _ ↦ ?_
  split
  · exact h.royalties le_rfl
  · refine Returns.seq fun _ _ ↦ Returns.guard fun _ ↦ Returns.guard fun _ ↦ ?_
    refine Outcome.bind (beginCompound_watched h user _) fun r hr ↦ ?_
    refine (Outcome.bind_iff _ _).mpr ((outcome_externalCall _).mpr ⟨fun w₂ hrun ↦ ?_, ?_⟩)
    · exact (callee_watched hr hquiet hrun).royalties le_rfl
    · exact fun _ ↦ trivial

theorem compoundFor_watched (h : Watched w call.timestamp) {attempt : CompoundAttempt}
    (hquiet : attempt.callee.Quiet) (user : Address) :
    Returns (Watched · call.timestamp) (compoundFor call w user attempt) := by
  unfold compoundFor
  refine Returns.seq fun _ _ ↦ Returns.guard fun _ ↦ Returns.guard fun _ ↦ ?_
  refine Returns.guard fun _ ↦ Returns.guard fun _ ↦ ?_
  exact Outcome.bind (checkpoint_watched h user) fun _ hw₁ ↦ compoundStored_watched hw₁ hquiet user

theorem attemptLockWithRestore_watched (h : Watched w call.timestamp) {attempt : CompoundAttempt}
    (hquiet : attempt.callee.Quiet) (user : Address) (amount : ℕ) :
    Returns (fun p ↦ Watched p.1 call.timestamp)
      (attemptLockWithRestore call w user amount attempt) := by
  unfold attemptLockWithRestore
  refine Outcome.bind (beginCompound_watched h user amount) fun began hbegan ↦ ?_
  have hcases := lockEthRewardBestEffort_cases call { w with royalties := began } attempt amount
  generalize
    lockEthRewardBestEffort call { w with royalties := began } attempt amount = p at hcases ⊢
  obtain ⟨w₁, result⟩ := p
  have hw₁ : Watched w₁ call.timestamp := by
    rcases hcases with ⟨-, hrun⟩ | ⟨-, hsame⟩
    · exact callee_watched hbegan hquiet hrun
    · obtain rfl : w₁ = { w with royalties := began } := hsame
      exact hbegan
  refine Returns.ite (fun _ ↦ hw₁) fun _ ↦ Returns.seq fun r hr ↦ hw₁.royalties ?_
  obtain ⟨_, -, hr⟩ := bind_eq_ok_iff.mp hr
  obtain rfl := Except.ok.inj hr
  exact le_rfl

theorem compoundStoredInBatch_watched (h : Watched w call.timestamp) {attempt : CompoundAttempt}
    (hquiet : attempt.callee.Quiet) (executor user : Address) :
    Returns (fun p ↦ Watched p.1 call.timestamp)
      (compoundStoredInBatch call w executor user attempt) := by
  unfold compoundStoredInBatch
  dsimp only
  refine Returns.ite (fun _ ↦ reportBelowMinimum_watched h _ _) fun _ ↦ ?_
  split
  · exact h.royalties le_rfl
  · refine Returns.seq fun minVeOut _ ↦ Returns.ite (fun _ ↦ h.royalties le_rfl) fun _ ↦ ?_
    refine Outcome.bind (attemptLockWithRestore_watched h hquiet user _) ?_
    rintro ⟨w₂, result⟩ hw₂
    have hw₂ : Watched w₂ call.timestamp := hw₂
    cases result with
    | Success => exact hw₂.royalties le_rfl
    | NotAttempted => exact hw₂
    | Failed => exact hw₂.royalties le_rfl

theorem compoundForUserInBatch_watched (h : Watched w call.timestamp) {attempt : CompoundAttempt}
    (hquiet : attempt.callee.Quiet) (executor user : Address) :
    Returns (fun p ↦ Watched p.1 call.timestamp)
      (compoundForUserInBatch call w executor user attempt) := by
  unfold compoundForUserInBatch
  refine Returns.ite (fun _ ↦ h) fun _ ↦ Returns.ite (fun _ ↦ h) fun _ ↦ ?_
  refine Returns.ite (fun _ ↦ h) fun _ ↦ ?_
  have hcheckpoint := checkpoint_watched h user
  split
  · exact h.royalties le_rfl
  · next w₁ hw₁ =>
      exact compoundStoredInBatch_watched (hcheckpoint.of_ok hw₁) hquiet executor user

theorem compoundLoop_watched (h : Watched w call.timestamp) {attempts : ℕ → CompoundAttempt}
    (hquiet : ∀ i, (attempts i).callee.Quiet) (n i : ℕ) (users : List Address) :
    Returns (Watched · call.timestamp) (compoundLoop call attempts n i users w) := by
  induction users generalizing i w with
  | nil => exact h
  | cons user users ih =>
      refine Outcome.bind (compoundForUserInBatch_watched h (hquiet i) call.sender user) ?_
      rintro ⟨w₁, shouldContinue⟩ hw₁
      cases shouldContinue with
      | true => exact ih hw₁ (i + 1)
      | false => exact Watched.royalties hw₁ le_rfl

theorem compoundForMany_watched (h : Watched w call.timestamp) {attempts : ℕ → CompoundAttempt}
    (hquiet : ∀ i, (attempts i).callee.Quiet) (users : List Address) (maxUsers : ℕ) :
    Returns (Watched · call.timestamp) (compoundForMany call w users maxUsers attempts) := by
  unfold compoundForMany
  refine Returns.seq fun _ _ ↦ Returns.seq fun _ _ ↦ ?_
  have hbegin : Watched { w with royalties := { w.royalties with batchWiringVerified := true } }
      call.timestamp := h.royalties le_rfl
  refine Outcome.bind (compoundLoop_watched hbegin hquiet _ 0 _) fun w₁ hw₁ ↦ ?_
  exact hw₁.royalties le_rfl

end Payouts

theorem exec_watched (h : Watched w call.timestamp) (op : Op) (hop : op.Permitted w) :
    Returns (Watched · call.timestamp) (exec call w op) := by
  cases op with
  | onTakeover reignId value gasLoops => exact onTakeover_watched h _ _ _
  | addPendingShareholderETH reignId value gasLoops => exact onTakeover_watched h _ _ _
  | flushPendingShareholderETH gasLoops => exact flushPendingShareholderETH_watched h _
  | sweepDust dst callee => exact sweepDust_watched h hop dst
  | claimShareholder mode callee => exact claimShareholderOf_watched h hop _ mode
  | claimShareholderFor user mode callee =>
      exact Returns.seq fun _ _ ↦ claimShareholderOf_watched h hop user mode
  | claimShareholderForTo user dst callee => exact claimShareholderForTo_watched h hop user dst
  | claimShareholderTo dst mode callee => exact claimShareholderTo_watched h hop dst mode
  | compoundFor user attempt => exact compoundFor_watched h hop user
  | compoundForMany users maxUsers attempts => exact compoundForMany_watched h hop users maxUsers
  | unguarded op => exact execUnguarded_watched h op hop

end Operations

/-! ## Runs -/

theorem watched_init {c : Config} (hc : watched.init c) : Watched c.world c.now := by
  obtain ⟨deployment, hnow, ⟨self, claimToken, owner, hve⟩, _, _, _, hroyalties⟩ := hc
  refine ⟨⟨?_, ?_⟩, ?_, ?_, ?_, ?_⟩
  · rw [hve]
    exact initial_accounted _ _ _ deployment.timestamp_pos
  · rw [hve]
    exact hnow.ge
  · rw [hve]
    refine ⟨fun u id ↦ ?_, fun u i id hid ↦ ?_⟩
    · change id ∈ [] ↔ u ≠ 0 ∧ 0 = u
      simp [eq_comm]
    · cases hid
  · intro id hlive
    rw [hve] at hlive
    exact absurd rfl hlive
  · rw [hroyalties]
    exact le_rfl
  · intro id hlive
    rw [hve] at hlive
    exact absurd rfl hlive

theorem watched_reachable {c : Config} (hc : watched.Reachable c) : Watched c.world c.now := by
  refine hc.invariant (I := fun c ↦ Watched c.world c.now) (fun c ↦ watched_init) ?_
  rintro c c' - h ⟨call, op, w, hnow, hop, hexec, rfl⟩
  exact (exec_watched (h.later hnow) op hop).of_ok hexec

/-- In every such run the watermark is at most the end of every live lock that
decays. -/
theorem watermark_sound {c : Config} (hc : watched.Reachable c) : WatermarkSound c.world :=
  fun id hlive hdecays _ ↦ (watched_reachable hc).below id hlive hdecays

/-- Calls that are permitted in every state. -/
theorem watched_run {calls : List (Call × Op)} {now : ℕ} {w w' : Worlds}
    (hc : watched.Reachable ⟨now, w⟩) (hrun : run calls w = .ok w')
    (hpermitted : ∀ c ∈ calls, ∀ w, c.2.Permitted w)
    (hsorted : (now :: calls.map fun c ↦ c.1.timestamp).IsChain (· ≤ ·)) :
    watched.Reachable ⟨(calls.map fun c ↦ c.1.timestamp).getLastD now, w'⟩ := by
  induction calls generalizing now w with
  | nil =>
      obtain rfl := Except.ok.inj hrun
      exact hc
  | cons c calls ih =>
      obtain ⟨call, op⟩ := c
      obtain ⟨w₁, hexec, hrest⟩ := bind_eq_ok_iff.mp hrun
      obtain ⟨hle, hsorted⟩ := List.isChain_cons_cons.mp hsorted
      obtain ⟨hop, hops⟩ := List.forall_mem_cons.mp hpermitted
      rw [List.map_cons, List.getLastD_cons]
      exact ih (hc.step ⟨call, op, w₁, hle, hop w, hexec, rfl⟩) hrest hops hsorted

/-- A decaying lock of user 7, a takeover, and a pin. -/
def pinnedRun : List (Call × Op) :=
  lockedBundle (1500 * 10 ^ 18) 604800 false ++
    [takeover 200 (10 ^ 18), (wiredCall 300 8, .unguarded (.pinUserObservedMin 7))]

theorem watermark_sound_pinned :
    ∃ c : Config, watched.Reachable c ∧ c.world.ve.owners 1 = 7 ∧
      c.world.royalties.oldestObservedNonAutoMaxLockEnd = 604901 ∧ WatermarkSound c.world := by
  have hok : ((run pinnedRun deployed).toOption.any fun w ↦ decide (w.ve.owners 1 = 7 ∧
      w.royalties.oldestObservedNonAutoMaxLockEnd = 604901)) = true := by
    decide +kernel
  cases hrun : run pinnedRun deployed with
  | error e =>
      rw [hrun] at hok
      cases hok
  | ok w =>
      rw [hrun] at hok
      obtain ⟨howner, hmark⟩ := of_decide_eq_true hok
      have hreach := watched_run (.init ⟨wiredCall 0 9, rfl, ⟨1, 2, 9, rfl⟩, 5, 9, 0, rfl⟩) hrun
        (fun c hc w ↦ by
          simp only [pinnedRun, lockedBundle, takeover, List.cons_append, List.nil_append,
            List.mem_cons, List.not_mem_nil, or_false] at hc
          rcases hc with rfl | rfl | rfl | rfl | rfl | rfl <;> trivial) (by decide)
      exact ⟨_, hreach, howner, hmark, watermark_sound hreach⟩

end ClaimRush.ShareholderRoyalties
