import ClaimRush.ShareholderRoyalties.Effects
import ClaimRush.ShareholderRoyalties.System
import ClaimRush.VeClaimNFT.Tables

/-!
# The eviction watermark

An overflow entry is evicted only when its time is below the watermark, so the
watermark must not pass the end of a lock that decays.  Checkpoints and pins
only lower it, a lock that starts to decay is pinned at once, and a raise looks
at every holder.
-/

open Function

namespace ClaimRush.ShareholderRoyalties

open Constants VeClaimNFT RoyaltiesState

/-- The watermark is at most the end of every live lock that decays. -/
def WatermarkSound (w : Worlds) : Prop :=
  ∀ id, w.ve.IsLive id → (w.ve.locks id).autoMax = false → (w.ve.locks id).amount ≠ 0 →
    w.royalties.oldestObservedNonAutoMaxLockEnd ≤ (w.ve.locks id).lockEnd

/-! ## Observed ends -/

section Observed

variable {l : Lock} {ls : List Lock} {m : ℕ}

theorem observeLockEnd_le (l : Lock) (m : ℕ) : observeLockEnd l m ≤ m := by
  unfold observeLockEnd
  split_ifs with h
  · exact Nat.le_of_lt h.2.2.2
  · exact le_rfl

theorem observeLockEnd_le_end (hdecays : l.autoMax = false) (hamount : l.amount ≠ 0)
    (hm : m ≤ UINT40_MAX) : observeLockEnd l m ≤ l.lockEnd := by
  unfold observeLockEnd
  split_ifs with h
  · exact le_rfl
  · simp only [hdecays, Bool.not_false, hamount, true_and, not_and, not_lt, not_false_eq_true,
      ne_eq] at h
    rcases Nat.lt_or_ge UINT40_MAX l.lockEnd with hfar | hnear
    · exact hm.trans hfar.le
    · exact h hnear

theorem observeLockEnd_ne_zero (hend : l.lockEnd ≠ 0) (hm : m ≠ 0) : observeLockEnd l m ≠ 0 := by
  unfold observeLockEnd
  split_ifs
  · exact hend
  · exact hm

/-- One more lock in the loop of `_computeUserObservedMin`. -/
def observeNext (m : ℕ) (l : Lock) : ℕ := if l.lockEnd ≠ 0 then observeLockEnd l m else m

theorem observeNext_le (m : ℕ) (l : Lock) : observeNext m l ≤ m := by
  unfold observeNext
  split_ifs
  · exact observeLockEnd_le l m
  · exact le_rfl

theorem foldl_observeNext_le (ls : List Lock) (m : ℕ) : ls.foldl observeNext m ≤ m := by
  induction ls generalizing m with
  | nil => exact le_rfl
  | cons l ls ih => exact (ih _).trans (observeNext_le m l)

theorem foldl_observeNext_ne_zero (ls : List Lock) (hm : m ≠ 0) : ls.foldl observeNext m ≠ 0 := by
  induction ls generalizing m with
  | nil => exact hm
  | cons l ls ih =>
      refine ih ?_
      unfold observeNext
      split_ifs with hend
      · exact observeLockEnd_ne_zero hend hm
      · exact hm

theorem foldl_observeNext_le_end (hl : l ∈ ls) (hdecays : l.autoMax = false)
    (hamount : l.amount ≠ 0) (hend : l.lockEnd ≠ 0) (hm : m ≤ UINT40_MAX) :
    ls.foldl observeNext m ≤ l.lockEnd := by
  induction ls generalizing m with
  | nil => cases hl
  | cons l' ls ih =>
      rcases List.mem_cons.mp hl with rfl | hl
      · have hnext : observeNext m l ≤ l.lockEnd := by
          unfold observeNext
          rw [if_pos hend]
          exact observeLockEnd_le_end hdecays hamount hm
        exact (foldl_observeNext_le ls _).trans hnext
      · exact ih hl ((observeNext_le m l').trans hm)

theorem UINT40_MAX_ne_zero : UINT40_MAX ≠ 0 := by
  simp [UINT40_MAX]

variable {s : VeState} {user : Address} {r r' : RoyaltiesState}

theorem computeUserObservedMin_ne_zero (s : VeState) (user : Address) :
    computeUserObservedMin s user ≠ 0 :=
  foldl_observeNext_ne_zero _ UINT40_MAX_ne_zero

/-- The observed minimum bounds the ends of the user's decaying locks. -/
theorem computeUserObservedMin_le_end (h : s.Enumerated) {id : ℕ} (hlive : s.IsLive id)
    (hdecays : (s.locks id).autoMax = false) (hamount : (s.locks id).amount ≠ 0)
    (hend : (s.locks id).lockEnd ≠ 0) :
    computeUserObservedMin s (s.owners id) ≤ (s.locks id).lockEnd := by
  have hmem : id ∈ s.ownedTokens (s.owners id) := (h.mem_iff _ _).mpr ⟨hlive, rfl⟩
  exact foldl_observeNext_le_end (List.mem_map_of_mem hmem) hdecays hamount hend le_rfl

/-! ## Pins and checkpoints -/

theorem updateUserObservedMin_narrows (r : RoyaltiesState) (s : VeState) (user : Address) :
    (r.updateUserObservedMin s user).oldestObservedNonAutoMaxLockEnd ≤
      r.oldestObservedNonAutoMaxLockEnd := by
  unfold updateUserObservedMin
  dsimp only
  split_ifs with h
  · exact Nat.le_of_lt h.2.2
  · exact le_rfl

/-- After a pin the watermark is at most the observed minimum. -/
theorem updateUserObservedMin_le (hceiling : r.oldestObservedNonAutoMaxLockEnd ≤ UINT40_MAX)
    (s : VeState) (user : Address) :
    (r.updateUserObservedMin s user).oldestObservedNonAutoMaxLockEnd ≤
      computeUserObservedMin s user := by
  unfold updateUserObservedMin
  dsimp only
  split_ifs with h
  · exact le_rfl
  · by_cases hmax : computeUserObservedMin s user = UINT40_MAX
    · exact hmax ▸ hceiling
    · by_contra hlt
      exact h ⟨computeUserObservedMin_ne_zero s user, hmax, not_le.mp hlt⟩

theorem recordObservedMin_narrows (r : RoyaltiesState) (user : Address) (m : ℕ) :
    (r.recordObservedMin user m).oldestObservedNonAutoMaxLockEnd ≤
      r.oldestObservedNonAutoMaxLockEnd := by
  unfold recordObservedMin
  dsimp only
  split_ifs with h
  · exact h.le
  · exact le_rfl

theorem creditAccrual_keeps (r : RoyaltiesState) (user : Address) (whole : ℕ) :
    Returns (fun r' ↦ r'.oldestObservedNonAutoMaxLockEnd = r.oldestObservedNonAutoMaxLockEnd)
      (r.creditAccrual user whole) := by
  unfold creditAccrual
  dsimp only
  generalize (if whole > r.indexedEthOwed then r.indexedEthOwed else whole) = credited
  refine Returns.ite (fun _ ↦ rfl) fun _ ↦ ?_
  exact Returns.seq fun _ _ ↦ Returns.seq fun _ _ ↦ Returns.seq fun _ _ ↦ rfl

theorem crystallise_narrows (r : RoyaltiesState) (s : VeState) (user : Address) :
    Returns (fun r' ↦ r'.oldestObservedNonAutoMaxLockEnd ≤ r.oldestObservedNonAutoMaxLockEnd)
      (r.crystallise s user) := by
  unfold crystallise
  refine Returns.seq ?_
  rintro ⟨whole, remainder, minEnd⟩ -
  refine Outcome.bind (creditAccrual_keeps _ _ _) fun r' hr' ↦ ?_
  exact hr'.trans_le (recordObservedMin_narrows (r.markPaid user) user minEnd)

variable (call : Call)

theorem checkpointUser_narrows (s : VeState) (r : RoyaltiesState) (user : Address) :
    Returns (fun r' ↦ r'.oldestObservedNonAutoMaxLockEnd ≤ r.oldestObservedNonAutoMaxLockEnd)
      (checkpointUser call s r user) := by
  unfold checkpointUser
  refine Returns.ite (fun _ ↦ le_rfl) fun _ ↦ Returns.seq fun _ _ ↦ ?_
  refine Returns.ite (fun _ ↦ ?_) fun _ ↦ crystallise_narrows r s user
  change (r.pinFirstObservation s user).oldestObservedNonAutoMaxLockEnd ≤ _
  unfold pinFirstObservation
  dsimp only
  split_ifs
  · exact updateUserObservedMin_narrows r s user
  · exact le_rfl

theorem pinUserObservedMin_narrows (s : VeState) (r : RoyaltiesState) (user : Address) :
    (pinUserObservedMin s r user).oldestObservedNonAutoMaxLockEnd ≤
      r.oldestObservedNonAutoMaxLockEnd := by
  unfold pinUserObservedMin
  split_ifs
  · exact le_rfl
  · exact updateUserObservedMin_narrows r s user

/-- No operation of the lock contract raises the watermark. -/
theorem narrowing : HoldingRules (royaltiesPort call) (fun _ _ ↦ True) (fun x y ↦
    (x.1.Enumerated → y.1.Enumerated) ∧
      y.2.oldestObservedNonAutoMaxLockEnd ≤ x.2.oldestObservedNonAutoMaxLockEnd) where
  refl _ := ⟨id, le_rfl⟩
  trans h h' := ⟨h'.1 ∘ h.1, h'.2.trans h.2⟩
  lock h := ⟨h.enumerated, le_rfl⟩
  checkpointUser := by
    intro sr t s user r r' huser hr'
    have hok : checkpointUser call s r user = .ok r' := toOption_eq_some.mp hr'
    exact ⟨⟨id, (checkpointUser_narrows call s r user).of_ok hok⟩, trivial, fun _ _ ↦ trivial⟩
  pinUserObservedMin := by
    intro sr t s user r r' hr'
    obtain rfl := Option.some.inj hr'
    exact ⟨id, pinUserObservedMin_narrows s r user⟩

end Observed

/-! ## Locks that start to decay -/

section Pinned

variable (call : Call) {w : Worlds}

/-- After the checkpoint of a holder the wiring resolves to the royalties contract. -/
theorem beginMutation_resolves {user : Address} (huser : user ≠ 0) :
    Returns (fun w' ↦ ∃ sr, resolveShareholderRoyalties call w'.ve = .ok sr ∧ sr ≠ 0 ∧
        call.codeLength sr ≠ 0) (beginMutation (royaltiesPort call) call w user) := by
  unfold beginMutation checkpointShareholderRoyalties
  refine Returns.seq fun s _ ↦ ?_
  rw [if_neg huser]
  refine Returns.seq fun sr hsr ↦ Returns.seq fun _ hcanonical ↦ Returns.seq fun _ _ ↦ ?_
  obtain ⟨_, hne, hcanonical⟩ := bind_eq_ok_iff.mp hcanonical
  obtain ⟨_, hcode, -⟩ := bind_eq_ok_iff.mp hcanonical
  exact ⟨sr, hsr, revertIf_eq_ok.mp hne, revertIf_eq_ok.mp hcode⟩

theorem pinShareholderObservedMin_royalties {user sr : Address} (huser : user ≠ 0)
    (hsr : resolveShareholderRoyalties call w.ve = .ok sr) (hne : sr ≠ 0)
    (hcode : call.codeLength sr ≠ 0) :
    (pinShareholderObservedMin call (royaltiesPort call) w user).royalties =
      w.royalties.updateUserObservedMin w.ve user := by
  unfold pinShareholderObservedMin tryResolveShareholderRoyalties
  simp [hsr, huser, hne, hcode, royaltiesPort, pinUserObservedMin]

/-- The watermark is at most the observed minimum of `user`. -/
def Pinned (user : Address) (w : Worlds) : Prop :=
  w.royalties.oldestObservedNonAutoMaxLockEnd ≤ computeUserObservedMin w.ve user

theorem pinned_of_pin {user sr : Address} (huser : user ≠ 0)
    (hceiling : w.royalties.oldestObservedNonAutoMaxLockEnd ≤ UINT40_MAX)
    (hsr : resolveShareholderRoyalties call w.ve = .ok sr) (hne : sr ≠ 0)
    (hcode : call.codeLength sr ≠ 0) :
    Pinned user (pinShareholderObservedMin call (royaltiesPort call) w user) := by
  unfold Pinned
  rw [pinShareholderObservedMin_royalties call huser hsr hne hcode, pinShareholderObservedMin_ve]
  exact updateUserObservedMin_le hceiling w.ve user

theorem createLock_pinned (hceiling : w.royalties.oldestObservedNonAutoMaxLockEnd ≤ UINT40_MAX)
    (payer user : Address) (amount duration : ℕ) (autoMax : Bool) :
    Returns (Pinned user)
      (createLock (royaltiesPort call) call w payer user amount duration autoMax) := by
  unfold createLock
  refine Returns.guard fun huser ↦ Returns.guard fun _ ↦ Returns.guard fun _ ↦ ?_
  refine Returns.guard fun _ ↦ Returns.guard fun _ ↦ Returns.guard fun _ ↦ ?_
  refine Returns.seq fun _ _ ↦ ?_
  refine Outcome.bind ((beginMutation_rule (narrowing call) call user).and
    (beginMutation_resolves call huser)) ?_
  rintro w' ⟨⟨-, ⟨-, hnarrow⟩, -⟩, sr, hsr, hne, hcode⟩
  refine Returns.guard fun _ ↦ Returns.seq fun g _ ↦ Returns.seq fun _ _ ↦ ?_
  refine Returns.seq fun _ _ ↦ Returns.seq fun m hm ↦ Returns.seq fun claim _ ↦ ?_
  obtain ⟨-, -, -, rfl⟩ := VeState.mint_eq_ok hm
  exact pinned_of_pin call huser (hnarrow.trans hceiling) hsr hne hcode

/-- A lock that leaves AutoMax is pinned. -/
theorem setAutoMax_pinned (h : Sound w call.timestamp)
    (hceiling : w.royalties.oldestObservedNonAutoMaxLockEnd ≤ UINT40_MAX) (tokenId : ℕ)
    (enabled : Bool) :
    Returns (fun w' ↦ (w.ve.locks tokenId).autoMax ≠ enabled → Pinned call.sender w')
      (setAutoMax (royaltiesPort call) call w tokenId enabled) := by
  unfold setAutoMax
  refine Returns.seq fun l hl ↦ ?_
  obtain ⟨howner, rfl⟩ := requireOwnedLock_eq_ok hl
  refine Returns.seq fun _ hmutable ↦ ?_
  have huser : call.sender ≠ 0 :=
    howner ▸ h.accounted.owned_of_mutable (requireMutable_eq_ok hmutable).unexpired
  refine Returns.ite (fun hsame ↦ ?_) fun _ ↦ ?_
  · exact Returns.iff_forall.mpr fun _ _ hne ↦ absurd hsame hne
  · refine Outcome.bind ((beginMutation_rule (narrowing call) call call.sender).and
      (beginMutation_resolves call huser)) ?_
    rintro w' ⟨⟨-, ⟨-, hnarrow⟩, -⟩, sr, hsr, hne, hcode⟩
    refine Returns.guard fun _ ↦ Returns.seq fun _ _ ↦ Returns.seq fun g _ ↦ fun _ ↦ ?_
    exact pinned_of_pin call huser (hnarrow.trans hceiling) hsr hne hcode

end Pinned

/-! ## The invariant -/

/-- The locks are in order, and the watermark bounds the decaying ones. -/
structure Watched (w : Worlds) (now : ℕ) : Prop where
  sound : Sound w now
  enumerated : w.ve.Enumerated
  live : ∀ id, w.ve.IsLive id → (w.ve.locks id).amount ≠ 0 ∧ (w.ve.locks id).lockEnd ≠ 0
  ceiling : w.royalties.oldestObservedNonAutoMaxLockEnd ≤ UINT40_MAX
  below : ∀ id, w.ve.IsLive id → (w.ve.locks id).autoMax = false →
    w.royalties.oldestObservedNonAutoMaxLockEnd ≤ (w.ve.locks id).lockEnd

section Locks

variable {w w' : Worlds} {now : ℕ}

theorem Watched.later {now' : ℕ} (h : Watched w now) (hnow : now ≤ now') : Watched w now' :=
  ⟨⟨h.sound.accounted, h.sound.le_now.trans hnow⟩, h.enumerated, h.live, h.ceiling, h.below⟩

/-- The royalties storage changes without a raise. -/
theorem Watched.royalties {r : RoyaltiesState} (h : Watched w now)
    (hnarrow : r.oldestObservedNonAutoMaxLockEnd ≤ w.royalties.oldestObservedNonAutoMaxLockEnd) :
    Watched { w with royalties := r } now where
  sound := ⟨h.sound.accounted, h.sound.le_now⟩
  enumerated := h.enumerated
  live := h.live
  ceiling := hnarrow.trans h.ceiling
  below id hlive hdecays := hnarrow.trans (h.below id hlive hdecays)

/-- A lock of a pinned holder is above the watermark. -/
theorem Pinned.below {user : Address} {id : ℕ} (h : Pinned user w') (henum : w'.ve.Enumerated)
    (howner : w'.ve.owners id = user) (huser : user ≠ 0) (hamount : (w'.ve.locks id).amount ≠ 0)
    (hend : (w'.ve.locks id).lockEnd ≠ 0) (hdecays : (w'.ve.locks id).autoMax = false) :
    w'.royalties.oldestObservedNonAutoMaxLockEnd ≤ (w'.ve.locks id).lockEnd := by
  subst howner
  exact h.trans (computeUserObservedMin_le_end henum huser hdecays hamount hend)

/-- Every live lock was there before, or is in order on its own. -/
theorem Watched.next (h : Watched w now) (hsound : Sound w' now) (henum : w'.ve.Enumerated)
    (hnarrow : w'.royalties.oldestObservedNonAutoMaxLockEnd ≤
      w.royalties.oldestObservedNonAutoMaxLockEnd)
    (hlocks : ∀ id, w'.ve.IsLive id → (w.ve.IsLive id ∧ w'.ve.locks id = w.ve.locks id) ∨
      (w'.ve.locks id).amount ≠ 0 ∧ (w'.ve.locks id).lockEnd ≠ 0 ∧
        ((w'.ve.locks id).autoMax = false →
          w'.royalties.oldestObservedNonAutoMaxLockEnd ≤ (w'.ve.locks id).lockEnd)) :
    Watched w' now where
  sound := hsound
  enumerated := henum
  live id hlive := by
    rcases hlocks id hlive with ⟨hbefore, hsame⟩ | ⟨hamount, hend, -⟩
    · rw [hsame]
      exact h.live id hbefore
    · exact ⟨hamount, hend⟩
  ceiling := hnarrow.trans h.ceiling
  below id hlive hdecays := by
    rcases hlocks id hlive with ⟨hbefore, hsame⟩ | ⟨-, -, hbelow⟩
    · rw [hsame] at hdecays ⊢
      exact hnarrow.trans (h.below id hbefore hdecays)
    · exact hbelow hdecays

/-- The lock of one token is rewritten. -/
theorem Watched.rewrite (total : ℕ) (h : Watched w now) (hsound : Sound w' now)
    (henum : w'.ve.Enumerated)
    (hnarrow : w'.royalties.oldestObservedNonAutoMaxLockEnd ≤
      w.royalties.oldestObservedNonAutoMaxLockEnd) {tokenId : ℕ} {l : Lock}
    (hve : ({ w.ve with totalLockedClaim := total }.setLock tokenId l).Follows w'.ve)
    (hamount : l.amount ≠ 0) (hend : l.lockEnd ≠ 0)
    (hbelow : l.autoMax = false → w'.royalties.oldestObservedNonAutoMaxLockEnd ≤ l.lockEnd) :
    Watched w' now := by
  have hlocks : w'.ve.locks = update w.ve.locks tokenId l := by
    obtain ⟨g, es, hve⟩ := hve
    rw [hve]
    rfl
  have howners : w'.ve.owners = w.ve.owners := by
    obtain ⟨g, es, hve⟩ := hve
    rw [hve]
    rfl
  refine h.next hsound henum hnarrow fun id hlive ↦ ?_
  by_cases hid : id = tokenId
  · subst hid
    rw [hlocks, update_self]
    exact .inr ⟨hamount, hend, hbelow⟩
  · refine .inl ⟨?_, by rw [hlocks, update_of_ne hid]⟩
    unfold VeState.IsLive at hlive ⊢
    rwa [howners] at hlive

/-- A token leaves. -/
theorem Watched.burn (h : Watched w now) (hsound : Sound w' now) (henum : w'.ve.Enumerated)
    (hnarrow : w'.royalties.oldestObservedNonAutoMaxLockEnd ≤
      w.royalties.oldestObservedNonAutoMaxLockEnd) {tokenId : ℕ}
    (howners : w'.ve.owners = update w.ve.owners tokenId 0)
    (hlocks : w'.ve.locks = update w.ve.locks tokenId {}) : Watched w' now := by
  refine h.next hsound henum hnarrow fun id hlive ↦ .inl ?_
  unfold VeState.IsLive at hlive ⊢
  rw [howners] at hlive
  by_cases hid : id = tokenId
  · subst hid
    exact absurd (update_self _ _ _) hlive
  · rw [update_of_ne hid] at hlive
    exact ⟨hlive, by rw [hlocks, update_of_ne hid]⟩

/-- A token changes hands. -/
theorem Watched.handed (h : Watched w now) (hsound : Sound w' now) (henum : w'.ve.Enumerated)
    (hnarrow : w'.royalties.oldestObservedNonAutoMaxLockEnd ≤
      w.royalties.oldestObservedNonAutoMaxLockEnd) {sender src dst : Address} {tokenId : ℕ}
    (hhanded : Handed sender src dst tokenId w w') : Watched w' now := by
  obtain ⟨g, es, hve⟩ := hhanded.ve
  refine h.next hsound henum hnarrow fun id hlive ↦ .inl ?_
  have hlocks : w'.ve.locks = w.ve.locks := by
    rw [hve]
    rfl
  have howners : w'.ve.owners = update w.ve.owners tokenId dst := by
    rw [hve]
    rfl
  refine ⟨?_, by rw [hlocks]⟩
  unfold VeState.IsLive at hlive ⊢
  by_cases hid : id = tokenId
  · rw [hid, hhanded.owner]
    exact hhanded.src_ne
  · rwa [howners, update_of_ne hid] at hlive

theorem Watched.rewired (h : Watched w now) (hsound : Sound w' now) (henum : w'.ve.Enumerated)
    (hnarrow : w'.royalties.oldestObservedNonAutoMaxLockEnd ≤
      w.royalties.oldestObservedNonAutoMaxLockEnd) (hrewired : Rewired w w') : Watched w' now := by
  obtain ⟨g, es, hve⟩ := hrewired.ve
  have hlocks : w'.ve.locks = w.ve.locks := by rw [hve]
  have howners : w'.ve.owners = w.ve.owners := by rw [hve]
  refine h.next hsound henum hnarrow fun id hlive ↦ .inl ⟨?_, by rw [hlocks]⟩
  unfold VeState.IsLive at hlive ⊢
  rwa [howners] at hlive

end Locks

/-! ## Lock operations -/

section LockOps

variable (call : Call) {w w' : Worlds}

/-- The observed minimum of the holder covers a lock that starts to decay; the
other locks keep their end or get a later one. -/
theorem lock_watched (h : Watched w call.timestamp) (op : VeClaimNFT.Op) :
    Returns (Watched · call.timestamp) (VeClaimNFT.exec (royaltiesPort call) call w op) := by
  rw [Returns.iff_forall]
  intro w' hexec
  have heffect := (exec_effect (royaltiesPort call) call w op).of_ok hexec
  have hsound := (exec_spec (royaltiesPort call) call h.sound op).of_ok hexec
  obtain ⟨henumerated, hnarrow⟩ := (exec_rule (narrowing call) call h.sound op).of_ok hexec
  have henum : w'.ve.Enumerated := henumerated h.enumerated
  have hnarrow : w'.royalties.oldestObservedNonAutoMaxLockEnd ≤
    w.royalties.oldestObservedNonAutoMaxLockEnd := hnarrow
  have hsame (hve : w.ve.Follows w'.ve) : Watched w' call.timestamp := by
    obtain ⟨g, es, hve⟩ := hve
    refine h.next hsound henum hnarrow fun id hlive ↦ .inl ?_
    rw [hve] at hlive ⊢
    exact ⟨hlive, rfl⟩
  cases op with
  | createLockFor user amount duration autoMax =>
      obtain ⟨-, hcreated⟩ := heffect
      obtain ⟨_, -, hcreate⟩ := bind_eq_ok_iff.mp hexec
      have hpinned := (createLock_pinned call h.ceiling _ _ _ _ _).of_ok hcreate
      obtain ⟨g, es, hve⟩ := hcreated.ve
      have hamount : amount ≠ 0 := (Nat.lt_of_lt_of_le MIN_LOCK_AMOUNT_pos hcreated.amount_ge).ne'
      have hend : call.timestamp + duration ≠ 0 := by
        have := call.timestamp_pos
        omega
      have howners : w'.ve.owners = update w.ve.owners w.ve.nextTokenId user := by
        rw [hve]
        rfl
      have hlocks : w'.ve.locks = update w.ve.locks w.ve.nextTokenId
          { amount := amount, lockStart := call.timestamp, lockEnd := call.timestamp + duration
            autoMax := autoMax } := by
        rw [hve]
        rfl
      refine h.next hsound henum hnarrow fun id hlive ↦ ?_
      by_cases hid : id = w.ve.nextTokenId
      · subst hid
        have howner : w'.ve.owners w.ve.nextTokenId = user := by
          rw [howners, update_self]
        have hbelow := Pinned.below hpinned henum howner hcreated.user_ne
        rw [hlocks, update_self] at hbelow ⊢
        exact .inr ⟨hamount, hend, hbelow hamount hend⟩
      · unfold VeState.IsLive at hlive ⊢
        rw [howners, update_of_ne hid] at hlive
        exact .inl ⟨hlive, by rw [hlocks, update_of_ne hid]⟩
  | addToLockFor user tokenId amount =>
      obtain ⟨-, htopped⟩ := heffect
      have hlive : w.ve.IsLive tokenId := htopped.owner.trans_ne htopped.user_ne
      obtain ⟨hamount, hend⟩ := h.live tokenId hlive
      refine h.rewrite _ hsound henum hnarrow htopped.ve ?_ ?_ ?_
      · exact (Nat.add_pos_left (Nat.pos_of_ne_zero hamount) _).ne'
      · dsimp only
        split_ifs
        · exact (Nat.add_pos_left call.timestamp_pos _).ne'
        · exact hend
      · intro hdecays
        dsimp only at hdecays ⊢
        rw [if_neg (by simp [hdecays])]
        exact hnarrow.trans (h.below tokenId hlive hdecays)
  | extendLockToFor user tokenId newEnd =>
      obtain ⟨-, hextended⟩ := heffect
      have hlive : w.ve.IsLive tokenId := hextended.owner.trans_ne hextended.user_ne
      obtain ⟨hamount, hend⟩ := h.live tokenId hlive
      refine h.rewrite w.ve.totalLockedClaim hsound henum hnarrow hextended.ve hamount ?_ ?_
      · unfold extendedEnd
        dsimp only
        split_ifs with hauto
        · exact (Nat.add_pos_left call.timestamp_pos _).ne'
        · have := (hextended.later (by simpa using hauto)).1
          omega
      · intro hdecays
        unfold extendedEnd
        dsimp only at hdecays ⊢
        rw [if_neg (by simp [hdecays])]
        exact hnarrow.trans ((h.below tokenId hlive hdecays).trans (hextended.later hdecays).1.le)
  | mergeLocksFor user fromTokenId intoTokenId =>
      obtain ⟨-, hmerged⟩ := heffect
      obtain ⟨g, es, hve⟩ := hmerged.ve
      have hfrom : w.ve.IsLive fromTokenId := hmerged.from_owner.trans_ne hmerged.user_ne
      have hinto : w.ve.IsLive intoTokenId := hmerged.into_owner.trans_ne hmerged.user_ne
      have howners : w'.ve.owners = update w.ve.owners fromTokenId 0 := by
        rw [hve]
        rfl
      have hlocks : w'.ve.locks = update (update w.ve.locks intoTokenId
          (VeState.mergedLock call.timestamp (w.ve.locks fromTokenId) (w.ve.locks intoTokenId)))
          fromTokenId {} := by
        rw [hve]
        rfl
      obtain ⟨hamount, hend⟩ := h.live intoTokenId hinto
      refine h.next hsound henum hnarrow fun id hlive ↦ ?_
      have hid : id ≠ fromTokenId := by
        rintro rfl
        unfold VeState.IsLive at hlive
        rw [howners, update_self] at hlive
        exact hlive rfl
      rw [hlocks, update_of_ne hid]
      by_cases hid' : id = intoTokenId
      · subst hid'
        rw [update_self]
        refine .inr ⟨(Nat.add_pos_left (Nat.pos_of_ne_zero hamount) _).ne', ?_, fun hdecays ↦ ?_⟩
        · unfold VeState.mergedLock
          dsimp only
          split_ifs
          · exact (Nat.add_pos_left call.timestamp_pos _).ne'
          · exact (lt_max_of_lt_right (Nat.pos_of_ne_zero hend)).ne'
        · unfold VeState.mergedLock at hdecays ⊢
          dsimp only at hdecays ⊢
          rw [if_neg (by simp [hdecays])]
          have hdecays' := (Bool.or_eq_false_iff.mp hdecays).1
          exact hnarrow.trans ((h.below id hinto hdecays').trans (le_max_right _ _))
      · rw [update_of_ne hid']
        unfold VeState.IsLive at hlive ⊢
        rw [howners, update_of_ne hid] at hlive
        exact .inl ⟨hlive, rfl⟩
  | setAutoMax tokenId enabled =>
      obtain ⟨howner, hmutable, hfollows, -⟩ := heffect
      obtain ⟨g, es, hve⟩ := id hfollows
      have hlive : w.ve.IsLive tokenId := h.sound.accounted.owned_of_mutable hmutable.unexpired
      have hpinned := (setAutoMax_pinned call h.sound h.ceiling tokenId enabled).of_ok hexec
      obtain ⟨hamount, hend⟩ := h.live tokenId hlive
      have howner' : w'.ve.owners tokenId = call.sender := by
        rw [hve]
        exact howner
      have hlocks : w'.ve.locks = update w.ve.locks tokenId
          (toggledLock call.timestamp enabled (w.ve.locks tokenId)) := by
        rw [hve]
        rfl
      have hamount' : (toggledLock call.timestamp enabled (w.ve.locks tokenId)).amount ≠ 0 := by
        unfold toggledLock
        split_ifs <;> exact hamount
      have hend' : (toggledLock call.timestamp enabled (w.ve.locks tokenId)).lockEnd ≠ 0 := by
        unfold toggledLock
        split_ifs
        · exact hend
        · exact (Nat.add_pos_left call.timestamp_pos _).ne'
      refine h.rewrite w.ve.totalLockedClaim hsound henum hnarrow hfollows hamount' hend'
        fun hdecays ↦ ?_
      by_cases hauto : (w.ve.locks tokenId).autoMax = enabled
      · have hoff : (w.ve.locks tokenId).autoMax = false := by
          unfold toggledLock at hdecays
          split_ifs at hdecays with h'
          · exact h'.1
          · exact hauto.trans hdecays
        rw [toggledLock, if_pos ⟨hoff, hauto ▸ hoff⟩]
        exact hnarrow.trans (h.below tokenId hlive hoff)
      · have hbelow := Pinned.below (hpinned hauto) henum howner' (howner ▸ hlive)
        rw [hlocks, update_self] at hbelow
        exact hbelow hamount' hend' hdecays
  | unlock tokenId =>
      obtain ⟨g, es, hve⟩ := heffect.ve
      exact h.burn hsound henum hnarrow (by rw [hve]; rfl) (by rw [hve]; rfl)
  | unlockExpiredForUser user tokenId =>
      obtain ⟨g, es, hve⟩ := heffect.ve
      exact h.burn hsound henum hnarrow (by rw [hve]; rfl) (by rw [hve]; rfl)
  | furnaceBurnAndWithdraw tokenId recipient =>
      obtain ⟨g, es, hve⟩ := heffect.2.2.ve
      exact h.burn hsound henum hnarrow (by rw [hve]; rfl) (by rw [hve]; rfl)
  | transferFrom src dst tokenId => exact h.handed hsound henum hnarrow heffect
  | safeTransferFrom src dst tokenId => exact h.handed hsound henum hnarrow heffect
  | setListed tokenId listed =>
      obtain ⟨-, howner, -, hve, -⟩ := heffect
      obtain ⟨hamount, hend⟩ := h.live tokenId howner
      exact h.rewrite w.ve.totalLockedClaim hsound henum hnarrow hve hamount hend
        fun hdecays ↦ hnarrow.trans (h.below tokenId howner hdecays)
  | checkpointGlobalState => exact hsame heffect.ve
  | setMineMarket mineMarket => exact h.rewired hsound henum hnarrow heffect
  | setFurnace furnace => exact h.rewired hsound henum hnarrow heffect
  | freezeConfig => exact h.rewired hsound henum hnarrow heffect

end LockOps

/-! ## Royalties operations -/

section RoyaltiesOps

variable {call : Call} {w w' : Worlds}

theorem checkpoint_watched (h : Watched w call.timestamp) (user : Address) :
    Returns (Watched · call.timestamp) (checkpoint call w user) :=
  Outcome.bind (checkpointUser_narrows call w.ve w.royalties user) fun _ hr' ↦ h.royalties hr'

theorem storeOverflowCheckpoint_keeps (r : RoyaltiesState) (rewardTs : ℕ) :
    Returns (fun r' ↦ r'.oldestObservedNonAutoMaxLockEnd = r.oldestObservedNonAutoMaxLockEnd)
      (r.storeOverflowCheckpoint rewardTs) := by
  unfold storeOverflowCheckpoint
  dsimp only
  refine Returns.ite (fun _ ↦ rfl) fun _ ↦ Returns.ite (fun _ ↦ ?_) fun _ ↦ ?_
  · by_cases hnil : r.overflowCheckpoints = []
    · rw [if_pos hnil]
      rfl
    · rw [if_neg hnil]
      rfl
  · exact Returns.ite (fun _ ↦ rfl) fun _ ↦ trivial

theorem storeRewardCheckpoint_keeps (r : RoyaltiesState) (rewardTs : ℕ) :
    Returns (fun r' ↦ r'.oldestObservedNonAutoMaxLockEnd = r.oldestObservedNonAutoMaxLockEnd)
      (r.storeRewardCheckpoint rewardTs) := by
  unfold storeRewardCheckpoint
  dsimp only
  refine Returns.ite (fun _ ↦ storeOverflowCheckpoint_keeps r rewardTs) fun _ ↦ ?_
  exact Returns.ite (fun _ ↦ rfl) fun _ ↦ rfl

theorem indexPending_keeps (r : RoyaltiesState) (s : VeState) (nowTs : ℕ) (bypass : Bool) :
    Returns (fun r' ↦ r'.oldestObservedNonAutoMaxLockEnd = r.oldestObservedNonAutoMaxLockEnd)
      (r.indexPending s nowTs bypass) := by
  have hadvance (rewardTs totalWeight delta : ℕ) :
      Returns (fun r' ↦ r'.oldestObservedNonAutoMaxLockEnd = r.oldestObservedNonAutoMaxLockEnd)
        (r.advanceIndex rewardTs totalWeight delta) := by
    unfold advanceIndex
    refine Returns.seq fun _ _ ↦ Returns.seq fun _ _ ↦ Returns.seq fun _ _ ↦ ?_
    refine Outcome.bind (storeRewardCheckpoint_keeps _ _) fun r' hr' ↦ ?_
    exact Returns.seq fun _ _ ↦ Returns.seq fun _ _ ↦ Returns.seq fun _ _ ↦ hr'
  unfold indexPending
  dsimp only
  refine Returns.ite (fun _ ↦ rfl) fun _ ↦ Returns.ite (fun _ ↦ rfl) fun _ ↦ ?_
  refine Returns.ite (fun _ ↦ rfl) fun _ ↦ Returns.guard fun _ ↦
    Returns.ite (fun _ ↦ rfl) fun _ ↦ ?_
  exact Returns.seq fun _ _ ↦ Returns.ite (fun _ ↦ rfl) fun _ ↦ hadvance _ _ _

theorem flushPending_watched (h : Watched w call.timestamp) (bypass : Bool) (gasLoops : ℕ) :
    Returns (Watched · call.timestamp) (flushPending call w bypass gasLoops) := by
  unfold flushPending
  refine Returns.ite (fun _ ↦ h) fun _ ↦ ?_
  refine Outcome.bind (checkpointLoops_spec h.sound.accounted h.sound.le_now _) ?_
  rintro ve ⟨htable, hacc, hle⟩
  refine Outcome.bind (indexPending_keeps _ _ _ _) fun r hr ↦ ?_
  refine h.next ⟨hacc, hle⟩ ?_ hr.le fun id hlive ↦ .inl ⟨?_, congrFun htable.locks id⟩
  · exact h.enumerated.congr htable.owners htable.ownedTokens htable.ownedTokensIndex
  · unfold VeState.IsLive at hlive ⊢
    rwa [htable.owners] at hlive

theorem onTakeover_watched (h : Watched w call.timestamp) (reignId value gasLoops : ℕ) :
    Returns (Watched · call.timestamp) (onTakeover call w reignId value gasLoops) := by
  unfold onTakeover
  refine Returns.guard fun _ ↦ Returns.ite (fun _ ↦ h.royalties le_rfl) fun _ ↦ ?_
  refine Returns.seq fun _ _ ↦ Returns.seq fun r hr ↦ flushPending_watched (h.royalties ?_) true _
  obtain ⟨_, -, hr⟩ := bind_eq_ok_iff.mp hr
  obtain rfl := Except.ok.inj hr
  exact le_rfl

theorem flushPendingShareholderETH_watched (h : Watched w call.timestamp) (gasLoops : ℕ) :
    Returns (Watched · call.timestamp) (flushPendingShareholderETH call w gasLoops) := by
  unfold flushPendingShareholderETH
  exact Returns.ite (fun _ ↦ h) fun _ ↦ Returns.seq fun _ _ ↦ flushPending_watched h false _

theorem setWiring_watched (h : Watched w call.timestamp) (mineCore mineMarket furnace : Address)
    (gasLoops : ℕ) :
    Returns (Watched · call.timestamp) (setWiring call w mineCore mineMarket furnace gasLoops) := by
  have hflush : Returns (Watched · call.timestamp) (flushBeforeRewiring call w gasLoops) := by
    unfold flushBeforeRewiring
    exact Returns.ite (fun _ ↦ flushPending_watched h true _) fun _ ↦ h
  unfold setWiring
  refine Returns.seq fun _ _ ↦ Returns.guard fun _ ↦ Returns.guard fun _ ↦ ?_
  refine Returns.guard fun _ ↦ Returns.guard fun _ ↦ Outcome.bind hflush fun w₁ hw₁ ↦ ?_
  exact Returns.guard fun _ ↦ Returns.guard fun _ ↦ hw₁.royalties le_rfl

theorem setAutoCompoundConfigOf_watched (h : Watched w call.timestamp) (user : Address)
    (cfg : AutoCompoundConfig) :
    Returns (Watched · call.timestamp) (setAutoCompoundConfigOf call w user cfg) := by
  unfold setAutoCompoundConfigOf
  refine Returns.ite (fun _ ↦ h.royalties le_rfl) fun _ ↦ ?_
  refine Returns.guard fun _ ↦ Returns.guard fun _ ↦ Returns.guard fun _ ↦ ?_
  refine Returns.guard fun _ ↦ Returns.guard fun _ ↦ Returns.guard fun _ ↦ ?_
  exact Returns.guard fun _ ↦ Returns.guard fun _ ↦ Returns.guard fun _ ↦ h.royalties le_rfl

theorem checkpointUserBatch_narrows (s : VeState) (r : RoyaltiesState) (users : List Address)
    (maxUsers : ℕ) :
    (checkpointUserBatch call s r users maxUsers).oldestObservedNonAutoMaxLockEnd ≤
      r.oldestObservedNonAutoMaxLockEnd := by
  unfold checkpointUserBatch
  generalize users.take maxUsers = us
  induction us generalizing r with
  | nil => exact le_rfl
  | cons u us ih =>
      rw [List.foldl_cons]
      refine (ih _).trans ?_
      cases hrun : checkpointUser call s r u with
      | ok r' => exact (checkpointUser_narrows call s r u).of_ok hrun
      | error e => exact le_rfl

/-! ## Raises -/

/-- A candidate with a concrete observation bounds the result of the loop. -/
theorem refreshCandidates_bounds (s : VeState) (us : List Address) (r : RoyaltiesState) (m : ℕ)
    (found : Bool) :
    (refreshCandidates s us r m found).1.oldestObservedNonAutoMaxLockEnd =
        r.oldestObservedNonAutoMaxLockEnd ∧
      (refreshCandidates s us r m found).2.1 ≤ m ∧
      (found = true → (refreshCandidates s us r m found).2.2 = true) ∧
      ∀ u ∈ us, u ≠ 0 → computeUserObservedMin s u ≠ UINT40_MAX →
        (refreshCandidates s us r m found).2.2 = true ∧
          (refreshCandidates s us r m found).2.1 ≤ computeUserObservedMin s u := by
  induction us generalizing r m found with
  | nil => exact ⟨rfl, le_rfl, id, fun u hu ↦ absurd hu List.not_mem_nil⟩
  | cons u us ih =>
      unfold refreshCandidates
      by_cases huser : u = 0
      · rw [if_pos huser]
        obtain ⟨hkeeps, hle, hfound, hall⟩ := ih r m found
        refine ⟨hkeeps, hle, hfound, fun v hv hne hmin ↦ ?_⟩
        rcases List.mem_cons.mp hv with rfl | hv
        · exact absurd huser hne
        · exact hall v hv hne hmin
      · rw [if_neg huser]
        have hobserved : (refreshUserObservedMin s u r).userObservedMinNonAutoMaxLockEnd u =
            computeUserObservedMin s u := update_self _ _ _
        dsimp only
        rw [hobserved]
        by_cases hconcrete :
          computeUserObservedMin s u ≠ 0 ∧ computeUserObservedMin s u ≠ UINT40_MAX
        · rw [if_pos hconcrete]
          obtain ⟨hkeeps, hle, hfound, hall⟩ := ih (refreshUserObservedMin s u r)
            (if computeUserObservedMin s u < m then computeUserObservedMin s u else m) true
          have hmin : (if computeUserObservedMin s u < m then computeUserObservedMin s u else m) ≤
              min (computeUserObservedMin s u) m := by
            split_ifs <;> omega
          refine ⟨hkeeps, hle.trans (hmin.trans (min_le_right _ _)), fun _ ↦ hfound rfl,
            fun v hv hne hv' ↦ ?_⟩
          rcases List.mem_cons.mp hv with rfl | hv
          · exact ⟨hfound rfl, hle.trans (hmin.trans (min_le_left _ _))⟩
          · exact hall v hv hne hv'
        · rw [if_neg hconcrete]
          obtain ⟨hkeeps, hle, hfound, hall⟩ := ih (refreshUserObservedMin s u r) m found
          refine ⟨hkeeps, hle, hfound, fun v hv hne hv' ↦ ?_⟩
          rcases List.mem_cons.mp hv with rfl | hv
          · exact absurd ⟨computeUserObservedMin_ne_zero s v, hv'⟩ hconcrete
          · exact hall v hv hne hv'

/-- The candidates include every holder of a decaying lock. -/
def Exhaustive (s : VeState) (candidates : List Address) : Prop :=
  ∀ id, s.IsLive id → (s.locks id).autoMax = false → s.owners id ∈ candidates

/-- A raise that looks at every holder stays at or below every end. -/
theorem recomputeGlobalWatermark_watched (h : Watched w call.timestamp)
    {candidates : List Address} (hall : Exhaustive w.ve candidates) (exhaustive : Bool) :
    Returns (Watched · call.timestamp)
      (recomputeGlobalWatermark call w candidates exhaustive) := by
  unfold recomputeGlobalWatermark
  refine Returns.seq fun _ _ ↦ Returns.guard fun _ ↦ ?_
  obtain ⟨hkeeps, hle, -, hbounds⟩ :=
    refreshCandidates_bounds w.ve candidates w.royalties UINT40_MAX false
  generalize refreshCandidates w.ve candidates w.royalties UINT40_MAX false = result at *
  obtain ⟨r, minObserved, anyConcrete⟩ := result
  dsimp only at hkeeps hle hbounds ⊢
  have hkept : Watched { w with royalties := r } call.timestamp := h.royalties hkeeps.le
  -- A value that no holder's observation is below may be set.
  have hraise (m : ℕ) (hm : m ≤ UINT40_MAX) (hcovers : ∀ id, w.ve.IsLive id →
      (w.ve.locks id).autoMax = false →
      computeUserObservedMin w.ve (w.ve.owners id) ≠ UINT40_MAX →
      m ≤ computeUserObservedMin w.ve (w.ve.owners id)) :
      Watched { w with royalties := setWatermark m r } call.timestamp := by
    refine ⟨⟨h.sound.accounted, h.sound.le_now⟩, h.enumerated, h.live, hm,
      fun id hlive hdecays ↦ ?_⟩
    obtain ⟨hamount, hend⟩ := h.live id hlive
    have hobserved := computeUserObservedMin_le_end h.enumerated hlive hdecays hamount hend
    by_cases hmax : computeUserObservedMin w.ve (w.ve.owners id) = UINT40_MAX
    · exact hm.trans (hmax ▸ hobserved)
    · exact (hcovers id hlive hdecays hmax).trans hobserved
  cases anyConcrete with
  | false =>
      simp only [Bool.not_false, if_true]
      by_cases hset : exhaustive = true ∧ r.oldestObservedNonAutoMaxLockEnd ≠ UINT40_MAX
      · rw [if_pos hset]
        refine hraise _ le_rfl fun id hlive hdecays hmax ↦ ?_
        have hfound := (hbounds _ (hall id hlive hdecays) hlive hmax).1
        cases hfound
      · rw [if_neg hset]
        exact hkept
  | true =>
      simp only [Bool.not_true, Bool.false_eq_true, if_false]
      by_cases hset : minObserved > r.oldestObservedNonAutoMaxLockEnd
      · rw [if_pos hset]
        exact hraise _ hle fun id hlive hdecays hmax ↦
          (hbounds _ (hall id hlive hdecays) hlive hmax).2
      · rw [if_neg hset]
        exact hkept

end RoyaltiesOps

end ClaimRush.ShareholderRoyalties
