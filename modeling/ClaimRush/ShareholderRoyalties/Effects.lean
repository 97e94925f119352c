import ClaimRush.ShareholderRoyalties.Attempts
import ClaimRush.VeClaimNFT.Holdings

/-!
# Effects of the royalties operations

Every operation of the joint system is a sequence of a few effects on the lock
table and the ETH accounting.  Invariants are proved once for each effect.
-/

open Function Relation

namespace ClaimRush.ShareholderRoyalties

open Constants VeClaimNFT

namespace RoyaltiesState

/-- The user has been paid up to the current index. -/
def IsSettled (r : RoyaltiesState) (user : Address) : Prop :=
  r.userEthPerVePaid user = r.ethPerVe

/-- The payout of a stored balance. -/
def payOut (r : RoyaltiesState) (user : Address) (amount : ℕ) : RoyaltiesState :=
  { r with
    claimableEthStored := update r.claimableEthStored user 0
    totalCrystallisedStored := r.totalCrystallisedStored - amount
    balance := r.balance - amount }

/-- The payout of unaccounted ETH. -/
def sweep (r : RoyaltiesState) (dust : ℕ) : RoyaltiesState :=
  { r with
    ghost := { r.ghost with unaccountedEth := r.ghost.unaccountedEth - dust }
    balance := r.balance - dust }

end RoyaltiesState

open RoyaltiesState

/-- One effect, in a block at `nowTs`. -/
inductive Effect (nowTs : ℕ) : VeState × RoyaltiesState → VeState × RoyaltiesState → Prop
  | lock {s s' : VeState} {r : RoyaltiesState} (h : LockChange r.IsSettled s s') :
      Effect nowTs (s, r) (s', r)
  | keep {s : VeState} {r r' : RoyaltiesState} (h : SameLedger r r') :
      Effect nowTs (s, r) (s, r')
  | crystallise {s : VeState} {r r' : RoyaltiesState} (user : Address) (huser : user ≠ 0)
      (h : r.crystallise s user = .ok r') : Effect nowTs (s, r) (s, r')
  | receive {s : VeState} {r r' : RoyaltiesState} (reignId value : ℕ)
      (h : receivePending reignId value r = .ok r') : Effect nowTs (s, r) (s, r')
  | index {s : VeState} {r r' : RoyaltiesState} (bypass : Bool) (hs : s.Accounted)
      (h : r.indexPending s nowTs bypass = .ok r') : Effect nowTs (s, r) (s, r')
  | forceEth {s : VeState} {r : RoyaltiesState} (amount : ℕ) :
      Effect nowTs (s, r) (s, forceEth amount r)
  | payOut {s : VeState} {r : RoyaltiesState} (user : Address) (amount : ℕ)
      (hstored : r.claimableEthStored user = amount) (hbalance : amount ≤ r.balance) :
      Effect nowTs (s, r) (s, r.payOut user amount)
  | sweep {s : VeState} {r : RoyaltiesState} (dust : ℕ)
      (hdust : r.pendingShareholderETH + r.indexedEthOwed + r.totalCrystallisedStored + dust =
        r.balance) : Effect nowTs (s, r) (s, r.sweep dust)

/-- A sequence of effects in one block. -/
abbrev Effects (nowTs : ℕ) : VeState × RoyaltiesState → VeState × RoyaltiesState → Prop :=
  ReflTransGen (Effect nowTs)

theorem Effects.keep {nowTs : ℕ} {s : VeState} {r r' : RoyaltiesState} (h : SameLedger r r') :
    Effects nowTs (s, r) (s, r') :=
  .single (.keep h)

theorem Effects.invariant {nowTs : ℕ} {I : VeState × RoyaltiesState → Prop}
    (hstep : ∀ x y, Effect nowTs x y → I x → I y) {x y : VeState × RoyaltiesState}
    (h : Effects nowTs x y) (hx : I x) : I y := by
  induction h with
  | refl => exact hx
  | tail _ heffect ih => exact hstep _ _ heffect ih

/-! ## Checkpoints -/

theorem IsSettled.crystallise {r r' : RoyaltiesState} {s : VeState} {user : Address}
    (h : r.crystallise s user = .ok r') :
    r'.IsSettled user ∧ ∀ v, r.IsSettled v → r'.IsSettled v := by
  obtain ⟨_, _, _, -, hcredited, -⟩ := (crystallise_credited r s user).of_ok h
  have hpaid : r'.userEthPerVePaid = update r.userEthPerVePaid user r.ethPerVe := hcredited.paid
  have hindex : r'.ethPerVe = r.ethPerVe := hcredited.index.ethPerVe
  unfold IsSettled
  rw [hindex, hpaid]
  refine ⟨update_self _ _ _, fun v hv ↦ ?_⟩
  by_cases hvu : v = user
  · rw [hvu, update_self]
  · rw [update_of_ne hvu]
    exact hv

section Calls

variable (call : Call)

/-- A checkpoint is one effect, and settles the user. -/
theorem checkpointUser_effects (s : VeState) (r : RoyaltiesState) (user : Address) :
    Returns (fun r' ↦ Effects call.timestamp (s, r) (s, r') ∧ (user ≠ 0 → r'.IsSettled user) ∧
      ∀ v, r.IsSettled v → r'.IsSettled v) (checkpointUser call s r user) := by
  unfold checkpointUser
  split_ifs with huser hpaid
  · exact ⟨.refl, fun h ↦ absurd huser h, fun _ ↦ id⟩
  · refine Returns.seq fun _ _ ↦ ?_
    have hsame : SameLedger r (r.pinFirstObservation s user) := by
      unfold RoyaltiesState.pinFirstObservation
      dsimp only
      split_ifs
      · exact sameLedger_pin r s user
      · exact .refl r
    have hkeep (v : Address) (hv : r.IsSettled v) :
        (r.pinFirstObservation s user).IsSettled v := by
      unfold IsSettled
      rw [hsame.paid, hsame.ethPerVe]
      exact hv
    exact ⟨.keep hsame, fun _ ↦ hkeep user hpaid.symm, hkeep⟩
  · refine Returns.seq fun _ _ ↦ Returns.iff_forall.mpr fun r' hr' ↦ ?_
    obtain ⟨hsettled, hkeep⟩ := IsSettled.crystallise hr'
    exact ⟨.single (.crystallise user huser hr'), fun _ ↦ hsettled, hkeep⟩

/-- The effects satisfy the rules of a royalties contract. -/
theorem holdingRules : HoldingRules (royaltiesPort call) IsSettled (Effects call.timestamp) where
  refl _ := .refl
  trans := .trans
  lock h := .single (.lock h)
  checkpointUser := by
    intro sr t s user r r' huser hr'
    have hok : checkpointUser call s r user = .ok r' := by
      cases hrun : checkpointUser call s r user with
      | ok a => simpa [royaltiesPort, hrun, Except.toOption] using hr'
      | error e => simp [royaltiesPort, hrun, Except.toOption] at hr'
    obtain ⟨heffects, hsettled, hkeep⟩ := (checkpointUser_effects call s r user).of_ok hok
    exact ⟨heffects, hsettled huser, hkeep⟩
  pinUserObservedMin := by
    intro sr t s user r r' hr'
    obtain rfl := Option.some.inj hr'
    unfold pinUserObservedMin
    split_ifs
    · exact .refl
    · exact .keep (sameLedger_pin r s user)

/-! ## Operations -/

variable {call} {w w' w'' : Worlds}

/-- `w'` follows from `w` by effects, with the books of the lock contract in
order. -/
structure Follows (call : Call) (w w' : Worlds) : Prop where
  effects : Effects call.timestamp w.holdings w'.holdings
  sound : Sound w' call.timestamp

theorem Sound.withRoyalties (h : Sound w call.timestamp) (r : RoyaltiesState) :
    Sound { w with royalties := r } call.timestamp :=
  ⟨h.accounted, h.le_now⟩

theorem Follows.refl (h : Sound w call.timestamp) : Follows call w w :=
  ⟨.refl, h⟩

theorem Follows.trans (h : Follows call w w') (h' : Follows call w' w'') : Follows call w w'' :=
  ⟨h.effects.trans h'.effects, h'.sound⟩

/-- A step of the royalties contract alone. -/
theorem Follows.royalties {r : RoyaltiesState} (h : Sound w call.timestamp)
    (heffects : Effects call.timestamp (w.ve, w.royalties) (w.ve, r)) :
    Follows call w { w with royalties := r } :=
  ⟨heffects, ⟨h.accounted, h.le_now⟩⟩

theorem Follows.keep {r : RoyaltiesState} (h : Sound w call.timestamp)
    (hsame : SameLedger w.royalties r) : Follows call w { w with royalties := r } :=
  .royalties h (.keep hsame)

theorem Follows.emit {e : Event} (h : Follows call w w') (he : IsQuiet e) :
    Follows call w { w' with royalties := w'.royalties.emit e } :=
  h.trans (.keep h.sound (sameLedger_emit _ he))

theorem checkpoint_follows (h : Sound w call.timestamp) (user : Address) :
    Returns (Follows call w) (checkpoint call w user) :=
  Outcome.bind (checkpointUser_effects call w.ve w.royalties user) fun _ hr' ↦
    .royalties h hr'.1

theorem checkpointLoops_spec {s : VeState} {nowTs : ℕ} (h : s.Accounted)
    (hle : s.global.globalLastTs ≤ nowTs) (loops : ℕ) :
    Returns (fun s' ↦ SameTable s s' ∧ s'.Accounted ∧ s'.global.globalLastTs ≤ nowTs)
      (checkpointLoops nowTs loops s) := by
  induction loops generalizing s with
  | zero => exact ⟨⟨rfl, rfl, rfl, rfl, rfl⟩, h, hle⟩
  | succ loops ih =>
      unfold checkpointLoops
      split_ifs
      · exact ⟨⟨rfl, rfl, rfl, rfl, rfl⟩, h, hle⟩
      · refine Returns.seq fun s' hs' ↦ ?_
        obtain ⟨hacc, hle', -⟩ := (h.checkpoint hle).of_ok hs'
        have htable := (checkpointGlobal_table s nowTs).of_ok hs'
        refine (ih hacc hle').weaken ?_
        rintro s'' ⟨htable', hrest⟩
        exact ⟨⟨htable'.furnace.trans htable.furnace, htable'.locks.trans htable.locks,
          htable'.owners.trans htable.owners, htable'.ownedTokens.trans htable.ownedTokens,
          htable'.ownedTokensIndex.trans htable.ownedTokensIndex⟩, hrest⟩

theorem flushPending_follows (h : Sound w call.timestamp) (bypass : Bool) (gasLoops : ℕ) :
    Returns (Follows call w) (flushPending call w bypass gasLoops) := by
  unfold flushPending
  split_ifs
  · exact .refl h
  · refine Outcome.bind (checkpointLoops_spec h.accounted h.le_now _) ?_
    rintro ve ⟨htable, hacc, hle⟩
    refine Returns.seq fun r hr ↦ ⟨?_, hacc, hle⟩
    exact .tail (.single (.lock htable.change)) (.index bypass hacc hr)

theorem onTakeover_follows (h : Sound w call.timestamp) (reignId value gasLoops : ℕ) :
    Returns (Follows call w) (onTakeover call w reignId value gasLoops) := by
  unfold onTakeover
  refine Returns.guard fun _ ↦ ?_
  split_ifs
  · exact (Follows.refl h).emit trivial
  · refine Returns.seq fun _ _ ↦ Returns.seq fun r hr ↦ ?_
    have hreceived := Follows.royalties h (.single (.receive reignId value hr))
    exact (flushPending_follows hreceived.sound true gasLoops).weaken fun _ ↦ hreceived.trans

theorem flushPendingShareholderETH_follows (h : Sound w call.timestamp) (gasLoops : ℕ) :
    Returns (Follows call w) (flushPendingShareholderETH call w gasLoops) := by
  unfold flushPendingShareholderETH
  split_ifs
  · exact .refl h
  · exact Returns.seq fun _ _ ↦ flushPending_follows h false gasLoops

/-! ## Configuration -/

theorem setWiring_follows (h : Sound w call.timestamp) (mineCore mineMarket furnace : Address)
    (gasLoops : ℕ) :
    Returns (Follows call w) (setWiring call w mineCore mineMarket furnace gasLoops) := by
  have hflush : Returns (Follows call w) (flushBeforeRewiring call w gasLoops) := by
    unfold flushBeforeRewiring
    split_ifs
    · exact flushPending_follows h true gasLoops
    · exact .refl h
  unfold setWiring
  refine Returns.seq fun _ _ ↦ Returns.guard fun _ ↦ Returns.guard fun _ ↦ ?_
  refine Returns.guard fun _ ↦ Returns.guard fun _ ↦ Outcome.bind hflush fun w₁ hw₁ ↦ ?_
  refine Returns.guard fun _ ↦ Returns.guard fun _ ↦ hw₁.trans (.keep hw₁.sound ?_)
  exact (sameLedger_config _).emit trivial

theorem freezeConfig_follows (h : Sound w call.timestamp) :
    Returns (Follows call w) (freezeConfig call w) := by
  unfold freezeConfig
  refine Returns.seq fun _ _ ↦ Returns.guard fun _ ↦ Returns.guard fun _ ↦ ?_
  refine Returns.guard fun _ ↦ Returns.guard fun _ ↦ Returns.seq fun _ _ ↦ ?_
  exact .keep h ((sameLedger_config _).emit trivial)

theorem setClaimAllHelper_follows (h : Sound w call.timestamp) (helper : Address) :
    Returns (Follows call w) (setClaimAllHelper call w helper) := by
  unfold setClaimAllHelper
  refine Returns.seq fun _ _ ↦ Returns.guard fun _ ↦ Returns.guard fun _ ↦ ?_
  refine Returns.guard fun _ ↦ Returns.guard fun _ ↦ ?_
  exact .keep h ((sameLedger_config _).emit trivial)

theorem setAutoCompoundKeeper_follows (h : Sound w call.timestamp) (keeper : Address)
    (allowed : Bool) : Returns (Follows call w) (setAutoCompoundKeeper call w keeper allowed) := by
  unfold setAutoCompoundKeeper
  refine Returns.seq fun _ _ ↦ Returns.guard fun _ ↦ Returns.guard fun _ ↦ ?_
  exact .keep h ((sameLedger_config _).emit trivial)

theorem setMinAutoCompoundEth_follows (h : Sound w call.timestamp) (floor : ℕ) :
    Returns (Follows call w) (setMinAutoCompoundEth call w floor) := by
  unfold setMinAutoCompoundEth
  exact Returns.seq fun _ _ ↦ .keep h ((sameLedger_config _).emit trivial)

theorem forceSetWatermark_follows (h : Sound w call.timestamp) (newValue : ℕ) :
    Returns (Follows call w) (forceSetOldestObservedNonAutoMaxLockEnd call w newValue) := by
  unfold forceSetOldestObservedNonAutoMaxLockEnd
  refine Returns.seq fun _ _ ↦ Returns.guard fun _ ↦ Returns.guard fun _ ↦ ?_
  split_ifs
  · exact .refl h
  · exact .keep h (sameLedger_setWatermark _ _)

theorem seedWatermark_follows (h : Sound w call.timestamp) :
    Returns (Follows call w) (seedWatermarkOnUpgrade call w) := by
  unfold seedWatermarkOnUpgrade
  refine Returns.seq fun _ _ ↦ ?_
  split_ifs
  · exact .refl h
  · exact .keep h (sameLedger_setWatermark _ _)

theorem recomputeWatermark_follows (h : Sound w call.timestamp) (candidates : List Address)
    (exhaustive : Bool) :
    Returns (Follows call w) (recomputeGlobalWatermark call w candidates exhaustive) := by
  unfold recomputeGlobalWatermark
  refine Returns.seq fun _ _ ↦ Returns.guard fun _ ↦ ?_
  have hrefresh := sameLedger_refreshCandidates w.ve candidates w.royalties UINT40_MAX false
  generalize refreshCandidates w.ve candidates w.royalties UINT40_MAX false = result at hrefresh ⊢
  obtain ⟨r, minObserved, anyConcrete⟩ := result
  have hset (newValue : ℕ) : SameLedger w.royalties (setWatermark newValue r) :=
    hrefresh.trans (sameLedger_setWatermark r newValue)
  dsimp only
  split_ifs
  · exact .keep h (hset _)
  · exact .keep h hrefresh
  · exact .keep h (hset _)
  · exact .keep h hrefresh

theorem setAutoCompoundConfigOf_follows (h : Sound w call.timestamp) (user : Address)
    (cfg : AutoCompoundConfig) :
    Returns (Follows call w) (setAutoCompoundConfigOf call w user cfg) := by
  unfold setAutoCompoundConfigOf
  dsimp only
  split_ifs
  · exact .keep h ((sameLedger_config _).emit trivial)
  · refine Returns.guard fun _ ↦ Returns.guard fun _ ↦ Returns.guard fun _ ↦ ?_
    refine Returns.guard fun _ ↦ Returns.guard fun _ ↦ Returns.guard fun _ ↦ ?_
    refine Returns.guard fun _ ↦ Returns.guard fun _ ↦ Returns.guard fun _ ↦ ?_
    exact .keep h ((sameLedger_config _).emit trivial)

theorem setAutoCompoundConfigForUser_follows (h : Sound w call.timestamp) (user : Address)
    (cfg : AutoCompoundConfig) :
    Returns (Follows call w) (setAutoCompoundConfigForUser call w user cfg) := by
  unfold setAutoCompoundConfigForUser
  refine Returns.guard fun _ ↦ Returns.seq fun _ _ ↦ ?_
  refine Outcome.bind (setAutoCompoundConfigOf_follows h user cfg) fun w₁ hw₁ ↦ ?_
  exact hw₁.emit trivial

/-! ## Callees -/

theorem checkpointUserBatch_effects (users : List Address) (maxUsers : ℕ) (s : VeState)
    (r : RoyaltiesState) :
    Effects call.timestamp (s, r) (s, checkpointUserBatch call s r users maxUsers) := by
  unfold checkpointUserBatch
  generalize users.take maxUsers = us
  induction us generalizing r with
  | nil => exact .refl
  | cons u us ih =>
      rw [List.foldl_cons]
      refine .trans ?_ (ih _)
      have hspec := checkpointUser_effects call s r u
      cases hrun : checkpointUser call s r u with
      | ok r' => exact (hspec.of_ok hrun).1
      | error e => exact .refl

/-- Every unguarded operation is a sequence of effects. -/
theorem execUnguarded_follows (h : Sound w call.timestamp) (op : UnguardedOp) :
    Returns (Follows call w) (execUnguarded call w op) := by
  cases op with
  | lock op =>
      rw [Returns.iff_forall]
      intro w' hw'
      exact ⟨(exec_rule (holdingRules call) call h op).of_ok hw',
        (exec_spec (royaltiesPort call) call h op).of_ok hw'⟩
  | checkpointUser user => exact checkpoint_follows h user
  | checkpointUserBatch users maxUsers =>
      exact .royalties h (checkpointUserBatch_effects users maxUsers _ _)
  | checkpointTransfer src dst =>
      refine Outcome.bind (Q := fun r ↦ Effects call.timestamp (w.ve, w.royalties) (w.ve, r))
        ?_ fun r hr ↦ .royalties h hr
      unfold checkpointTransfer
      refine Returns.guard fun _ ↦ ?_
      split_ifs
      · exact .refl
      · refine Outcome.bind (checkpointUser_effects call w.ve w.royalties src) fun r₁ hr₁ ↦ ?_
        exact (checkpointUser_effects call w.ve r₁ dst).weaken fun r₂ hr₂ ↦ hr₁.1.trans hr₂.1
  | pinUserObservedMin user =>
      refine .keep h ?_
      unfold pinUserObservedMin
      split_ifs
      · exact .refl _
      · exact sameLedger_pin _ _ _
  | setWiring mineCore mineMarket furnace gasLoops => exact setWiring_follows h _ _ _ _
  | freezeConfig => exact freezeConfig_follows h
  | setClaimAllHelper helper => exact setClaimAllHelper_follows h helper
  | setAutoCompoundKeeper keeper allowed => exact setAutoCompoundKeeper_follows h keeper allowed
  | setMinAutoCompoundEth floor => exact setMinAutoCompoundEth_follows h floor
  | forceSetOldestObservedNonAutoMaxLockEnd newValue => exact forceSetWatermark_follows h newValue
  | seedWatermarkOnUpgrade => exact seedWatermark_follows h
  | recomputeGlobalWatermark candidates exhaustive => exact recomputeWatermark_follows h _ _
  | setAutoCompoundConfig cfg => exact setAutoCompoundConfigOf_follows h _ cfg
  | setAutoCompoundConfigForUser user cfg => exact setAutoCompoundConfigForUser_follows h user cfg
  | forceEth amount => exact .royalties h (.single (.forceEth amount))
  | moveClaim claim => exact ⟨.refl, ⟨h.accounted, h.le_now⟩⟩

theorem reenter_follows (h : Sound w call.timestamp) (step : Call × UnguardedOp) :
    Follows call w (reenter call w step) := by
  have hinner : Sound w (inBlock call step.1).timestamp := h
  have hspec := execUnguarded_follows hinner step.2
  unfold reenter
  cases hrun : execUnguarded (inBlock call step.1) w step.2 with
  | ok w' => exact ⟨(hspec.of_ok hrun).effects, (hspec.of_ok hrun).sound⟩
  | error e => exact .refl h

theorem reentries_follow (h : Sound w call.timestamp) (steps : List (Call × UnguardedOp)) :
    Follows call w (steps.foldl (reenter call) w) := by
  induction steps generalizing w with
  | nil => exact .refl h
  | cons step steps ih =>
      have hstep := reenter_follows h step
      exact hstep.trans (ih hstep.sound)

/-- A callee that succeeds takes the value and goes on by effects. -/
theorem callee_follows {callee : Callee} {value : ℕ} (h : Sound w call.timestamp)
    (hrun : callee.run call w value = some w') :
    value ≤ w.royalties.balance ∧
      Follows call
        { w with royalties := { w.royalties with balance := w.royalties.balance - value } } w' := by
  unfold Callee.run at hrun
  split_ifs at hrun with hsucceeds
  obtain rfl := Option.some.inj hrun
  exact ⟨hsucceeds.2, reentries_follow (Sound.withRoyalties h _) _⟩

/-! ## Payouts -/

/-- A step that changes no lock and nothing of the ledger. -/
theorem Follows.ledger (h : Sound w call.timestamp) (hve : w'.ve = w.ve)
    (hledger : SameLedger w.royalties w'.royalties) : Follows call w w' := by
  obtain ⟨ve, royalties, claim⟩ := w'
  subst hve
  exact ⟨.keep hledger, ⟨h.accounted, h.le_now⟩⟩

/-- The balance of `user` is taken, the configuration may change, and the
callee gets the ETH. -/
theorem Paid.follows {user : Address} {callee : Callee} (h : Sound w call.timestamp)
    (hpaid : Paid call user callee w w') : Follows call w w' := by
  obtain ⟨taken, r, w₁, htake, hconfig, hrun, hve, hledger⟩ := hpaid
  obtain ⟨-, rfl⟩ := (takeStored_spec user _ w.royalties).of_ok htake
  obtain ⟨hbalance, hfollows⟩ := callee_follows (Sound.withRoyalties h r) hrun
  have hbalance : w.royalties.claimableEthStored user ≤ w.royalties.balance :=
    hbalance.trans hconfig.balance.le
  refine Follows.trans ⟨.trans ?_ hfollows.effects, hfollows.sound⟩
    (.ledger hfollows.sound hve hledger)
  refine .tail (.single (.payOut user _ rfl hbalance)) (.keep ?_)
  exact { hconfig with balance := congrArg (· - _) hconfig.balance }

theorem Attempted.follows {user : Address} {callee : Callee} (h : Sound w call.timestamp)
    (hattempted : Attempted call user callee w w') : Follows call w w' := by
  obtain ⟨w₁, hcheckpoint, hrest⟩ := hattempted
  have hw₁ := (checkpoint_follows h user).of_ok hcheckpoint
  rcases hrest with hunpaid | hpaid
  · exact hw₁.trans (.ledger hw₁.sound hunpaid.ve hunpaid.ledger)
  · exact hw₁.trans (hpaid.follows hw₁.sound)

theorem BatchRun.follows {attempts : ℕ → CompoundAttempt} {i : ℕ} {users : List Address}
    (h : Sound w call.timestamp) (hrun : BatchRun call attempts i users w w') :
    Follows call w w' := by
  induction hrun with
  | stop hunpaid => exact .ledger h hunpaid.ve hunpaid.ledger
  | pass hunpaid _ ih =>
      have hw₁ := Follows.ledger h hunpaid.ve hunpaid.ledger
      exact hw₁.trans (ih hw₁.sound)
  | attempt hattempted _ ih =>
      have hw₁ := hattempted.follows h
      exact hw₁.trans (ih hw₁.sound)

theorem compoundForMany_follows (h : Sound w call.timestamp) (users : List Address)
    (maxUsers : ℕ) (attempts : ℕ → CompoundAttempt) :
    Returns (Follows call w) (compoundForMany call w users maxUsers attempts) := by
  refine (compoundForMany_run users maxUsers attempts).weaken ?_
  rintro w' ⟨n, w₀, w₁, hbegin, hrun, hend⟩
  have hw₀ := Follows.ledger h hbegin.ve hbegin.ledger
  have hw₁ := hw₀.trans (hrun.follows hw₀.sound)
  exact hw₁.trans (.ledger hw₁.sound hend.ve hend.ledger)

theorem sweepDust_follows (h : Sound w call.timestamp) (dst : Address) (callee : Callee) :
    Returns (Follows call w) (sweepDust call w dst callee) := by
  unfold sweepDust
  refine Returns.seq fun _ _ ↦ Returns.seq fun _ _ ↦ Returns.guard fun _ ↦ ?_
  refine Outcome.uint256_bind trivial fun _ ↦ Outcome.uint256_bind trivial fun _ ↦ ?_
  refine Returns.guard fun hcovered ↦ Returns.guard fun _ ↦ Returns.guard fun _ ↦ ?_
  refine Outcome.bind pushEth_returns fun w₂ hw₂ ↦ ?_
  obtain ⟨-, hfollows⟩ := callee_follows (Sound.withRoyalties h _) hw₂
  have hswept : Follows call w w₂ := by
    refine ⟨.trans (.single (.sweep _ ?_)) hfollows.effects, hfollows.sound⟩
    exact Nat.add_sub_cancel' (not_lt.mp hcovered)
  exact hswept.emit trivial

/-- Every operation of the joint system is a sequence of effects. -/
theorem exec_follows (h : Sound w call.timestamp) (op : Op) :
    Returns (Follows call w) (exec call w op) := by
  cases op with
  | onTakeover reignId value gasLoops => exact onTakeover_follows h _ _ _
  | addPendingShareholderETH reignId value gasLoops => exact onTakeover_follows h _ _ _
  | flushPendingShareholderETH gasLoops => exact flushPendingShareholderETH_follows h _
  | sweepDust dst callee => exact sweepDust_follows h _ _
  | claimShareholder mode callee =>
      exact (claimShareholderOf_attempted mode).weaken fun _ ↦ Attempted.follows h
  | claimShareholderFor user mode callee =>
      refine Returns.seq fun _ _ ↦ ?_
      exact (claimShareholderOf_attempted mode).weaken fun _ ↦ Attempted.follows h
  | claimShareholderForTo user dst callee =>
      exact (claimShareholderForTo_attempted dst).weaken fun _ ↦ Attempted.follows h
  | claimShareholderTo dst mode callee =>
      exact (claimShareholderTo_attempted dst mode).weaken fun _ ↦ Attempted.follows h
  | compoundFor user attempt =>
      exact (compoundFor_attempted attempt).weaken fun _ ↦ Attempted.follows h
  | compoundForMany users maxUsers attempts => exact compoundForMany_follows h _ _ _
  | unguarded op => exact execUnguarded_follows h op

/-- The induction rule of the joint system: what the passing of time and each
effect keep holds in every reachable configuration, together with the books of
the locks. -/
theorem reachable_induction {I : ℕ → VeState × RoyaltiesState → Prop}
    (hinit : ∀ now s r, (∃ self claimToken owner,
      s = VeClaimNFT.initial self claimToken owner now) →
      (∃ self owner balance, r = initial self owner balance) → I now (s, r))
    (htime : ∀ now now' x, now ≤ now' → I now x → I now' x)
    (hstep : ∀ now x y, Effect now x y → I now x → I now y) {c : Config}
    (hc : system.Reachable c) : Sound c.world c.now ∧ I c.now c.world.holdings := by
  refine hc.invariant (I := fun c ↦ Sound c.world c.now ∧ I c.now c.world.holdings) ?_ ?_
  · rintro c ⟨deployment, hnow, ⟨self, claimToken, owner, hve⟩, hroyalties⟩
    refine ⟨⟨?_, ?_⟩, hinit _ _ _ ⟨self, claimToken, owner, hnow ▸ hve⟩ hroyalties⟩ <;> rw [hve]
    · exact initial_accounted _ _ _ deployment.timestamp_pos
    · exact hnow.ge
  · rintro c c' - ⟨hsound, hI⟩ hstep'
    cases hstep' with
    | op call op hnow hexec =>
        obtain ⟨heffects, hsound'⟩ :=
          (exec_follows ⟨hsound.accounted, hsound.le_now.trans hnow⟩ op).of_ok hexec
        exact ⟨hsound', Effects.invariant (hstep call.timestamp) heffects (htime _ _ _ hnow hI)⟩

end Calls

end ClaimRush.ShareholderRoyalties
