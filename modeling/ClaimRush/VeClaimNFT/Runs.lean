import ClaimRush.VeClaimNFT.Exactness
import ClaimRush.Lib.Transition

/-!
# Runs of the lock contract

A configuration is the time of the last block and the state of the world.  A
step executes one operation in a block that is not earlier, or lets other
contracts change the royalties storage and the token.
-/

open Function

namespace ClaimRush.VeClaimNFT

open Constants GlobalState VeState

inductive Op
  | createLockFor (user : Address) (amount duration : ℕ) (autoMax : Bool)
  | addToLockFor (user : Address) (tokenId amount : ℕ)
  | extendLockToFor (user : Address) (tokenId newEnd : ℕ)
  | mergeLocksFor (user : Address) (fromTokenId intoTokenId : ℕ)
  | setAutoMax (tokenId : ℕ) (enabled : Bool)
  | unlock (tokenId : ℕ)
  | unlockExpiredForUser (user : Address) (tokenId : ℕ)
  | furnaceBurnAndWithdraw (tokenId : ℕ) (recipient : Address)
  | transferFrom (src dst : Address) (tokenId : ℕ)
  | safeTransferFrom (src dst : Address) (tokenId : ℕ)
  | setListed (tokenId : ℕ) (listed : Bool)
  | checkpointGlobalState
  | setMineMarket (mineMarket : Address)
  | setFurnace (furnace : Address)
  | freezeConfig
  deriving DecidableEq, Repr

variable {S : Type}

/-- Execute one external call on the lock contract. -/
def exec (port : IShareholderRoyalties S) (call : Call) (w : World S) :
    Op → Except Error (World S)
  | .createLockFor user amount duration autoMax =>
      createLockFor port call w user amount duration autoMax
  | .addToLockFor user tokenId amount => addToLockFor port call w user tokenId amount
  | .extendLockToFor user tokenId newEnd => extendLockToFor port call w user tokenId newEnd
  | .mergeLocksFor user fromTokenId intoTokenId =>
      mergeLocksFor port call w user fromTokenId intoTokenId
  | .setAutoMax tokenId enabled => setAutoMax port call w tokenId enabled
  | .unlock tokenId => unlock port call w tokenId
  | .unlockExpiredForUser user tokenId => unlockExpiredForUser port call w user tokenId
  | .furnaceBurnAndWithdraw tokenId recipient =>
      furnaceBurnAndWithdraw port call w tokenId recipient
  | .transferFrom src dst tokenId => transferFrom port call w src dst tokenId
  | .safeTransferFrom src dst tokenId => safeTransferFrom port call w src dst tokenId
  | .setListed tokenId listed => setListed call w tokenId listed
  | .checkpointGlobalState => checkpointGlobalState call w
  | .setMineMarket mineMarket => setMineMarket call w mineMarket
  | .setFurnace furnace => setFurnace call w furnace
  | .freezeConfig => freezeConfig call w

/-- The world and the time of its last block. -/
structure Config (S : Type) where
  now : ℕ
  world : World S

inductive Step (port : IShareholderRoyalties S) : Config S → Config S → Prop
  | op {c : Config S} {w : World S} (call : Call) (op : Op) (hnow : c.now ≤ call.timestamp)
      (hexec : exec port call c.world op = .ok w) : Step port c ⟨call.timestamp, w⟩
  | outside (c : Config S) (royalties : S) (claim : ClaimToken) :
      Step port c ⟨c.now, { ve := c.world.ve, royalties := royalties, claim := claim }⟩

/-- The lock contract from its deployment on. -/
def system (port : IShareholderRoyalties S) : TransitionSystem (Config S) where
  init c := ∃ deployment : Call, c.now = deployment.timestamp ∧
    ∃ self claimToken owner, c.world.ve = initial self claimToken owner deployment.timestamp
  step := Step port

theorem initial_accounted (self claimToken owner : Address) {deployedAt : ℕ}
    (hpos : 0 < deployedAt) : (initial self claimToken owner deployedAt).Accounted := by
  have hflat : flatBias (fun _ ↦ {}) = 0 := by
    simp [flatBias]
  have hdemand (e : ℕ) : demand (fun _ ↦ {}) e = 0 := by
    simp [demand]
  refine ⟨⟨⟨⟨⟨?_, ?_, ?_, ?_, ?_⟩, ?_, ?_⟩, ?_, hpos⟩, ?_⟩, ?_, ?_, ?_⟩
  · exact finiteEntries_zero
  · exact IndexedHeap.empty_wellFormed
  · intro e
    simp [initial, IndexedHeap.Mem, IndexedHeap.empty]
  · intro e he
    exact absurd rfl he
  · exact (by decide : 0 < uint256Bound)
  · exact total_zero.symm
  · simp [initial, hflat]
  · simp [initial]
  · intro e _
    simp [initial, hdemand]
  · intro id _
    rfl
  · intro id _
    rfl
  · simp [initial, ClampsExact]

section Steps

variable (port : IShareholderRoyalties S) (call : Call) {w : World S}

theorem wiring_sound (h : Sound w call.timestamp) {s : VeState} {e : Event}
    (hglobal : s.global = w.ve.global) (hlocks : s.locks = w.ve.locks)
    (howners : s.owners = w.ve.owners) (hnext : s.nextTokenId = w.ve.nextTokenId)
    (hevents : s.events = w.ve.events)
    (he : ∀ time change slope, e ≠ .SlopeDriftClamped time change slope) :
    Sound { w with ve := s.emit e } call.timestamp := by
  refine ⟨h.accounted.keep hglobal ?_ hlocks howners hnext, ?_⟩
  · exact ClampsExact.emit (hevents ▸ h.accounted.clamps) he
  · exact (congrArg globalLastTs hglobal).trans_le h.le_now

/-- Every operation keeps the books and never raises an invariant violation. -/
theorem exec_spec (h : Sound w call.timestamp) (op : Op) :
    Outcome (fun w' ↦ Sound w' call.timestamp) NotViolation (exec port call w op) := by
  cases op with
  | createLockFor user amount duration autoMax =>
      exact Outcome.bind (requireCanonicalFurnaceCaller_spec _ _) fun _ _ ↦
        createLock_spec port call h _ _ _ _ _
  | addToLockFor user tokenId amount =>
      exact Outcome.bind (requireCanonicalFurnaceCaller_spec _ _) fun _ _ ↦
        addToLock_spec port call h _ _ _ _
  | extendLockToFor user tokenId newEnd => exact extendLockToFor_spec port call h _ _ _
  | mergeLocksFor user fromTokenId intoTokenId =>
      exact Outcome.bind (requireCanonicalFurnaceCaller_spec _ _) fun _ _ ↦
        mergeLocksInternal_spec port call h _ _ _
  | setAutoMax tokenId enabled => exact setAutoMax_spec port call h _ _
  | unlock tokenId => exact unlockTo_spec port call h _ _ _
  | unlockExpiredForUser user tokenId =>
      refine Outcome.bind (requireDelegated_spec _ _ _ _) fun _ _ ↦ ?_
      refine Outcome.bind (unlockTo_spec port call h _ _ _) fun w' hw' ↦ ?_
      exact wiring_sound call hw' rfl rfl rfl rfl rfl (by simp)
  | furnaceBurnAndWithdraw tokenId recipient =>
      exact furnaceBurnAndWithdraw_spec port call h _ _
  | transferFrom src dst tokenId => exact transferFrom_world_spec port call h _ _ _
  | safeTransferFrom src dst tokenId =>
      refine Outcome.bind (transferFrom_world_spec port call h _ _ _) fun w' hw' ↦ ?_
      exact Outcome.revertIf_bind (fun _ ↦ by simp [NotViolation]) fun _ ↦ hw'
  | setListed tokenId listed => exact setListed_spec call h _ _
  | checkpointGlobalState => exact Outcome.bind (h.checkpoint call) fun s hs ↦ hs.sound
  | setMineMarket mineMarket =>
      refine Outcome.revertIf_bind (fun _ ↦ by simp [NotViolation]) fun _ ↦ ?_
      refine Outcome.revertIf_bind (fun _ ↦ by simp [NotViolation]) fun _ ↦ ?_
      refine Outcome.revertIf_bind (fun _ ↦ by simp [NotViolation]) fun _ ↦ ?_
      refine Outcome.revertIf_bind (fun _ ↦ by simp [NotViolation]) fun _ ↦ ?_
      refine Outcome.revertIf_bind (fun _ ↦ by simp [NotViolation]) fun _ ↦ ?_
      refine Outcome.bind (requireCanonicalSetterBundle_spec _ _ _ _) fun _ _ ↦ ?_
      exact wiring_sound call h rfl rfl rfl rfl rfl (by simp)
  | setFurnace furnace =>
      refine Outcome.revertIf_bind (fun _ ↦ by simp [NotViolation]) fun _ ↦ ?_
      refine Outcome.revertIf_bind (fun _ ↦ by simp [NotViolation]) fun _ ↦ ?_
      refine Outcome.revertIf_bind (fun _ ↦ by simp [NotViolation]) fun _ ↦ ?_
      refine Outcome.revertIf_bind (fun _ ↦ by simp [NotViolation]) fun _ ↦ ?_
      refine Outcome.revertIf_bind (fun _ ↦ by simp [NotViolation]) fun _ ↦ ?_
      refine Outcome.bind (requireCanonicalSetterBundle_spec _ _ _ _) fun _ _ ↦ ?_
      exact wiring_sound call h rfl rfl rfl rfl rfl (by simp)
  | freezeConfig =>
      refine Outcome.revertIf_bind (fun _ ↦ by simp [NotViolation]) fun _ ↦ ?_
      refine Outcome.revertIf_bind (fun _ ↦ by simp [NotViolation]) fun _ ↦ ?_
      refine Outcome.revertIf_bind (fun _ ↦ by simp [NotViolation]) fun _ ↦ ?_
      refine Outcome.revertIf_bind (fun _ ↦ by simp [NotViolation]) fun _ ↦ ?_
      refine Outcome.bind (requireCanonicalSetterBundle_spec _ _ _ _) fun _ _ ↦ ?_
      refine Outcome.revertIf_bind (fun _ ↦ by simp [NotViolation]) fun _ ↦ ?_
      refine Outcome.bind (resolveShareholderRoyaltiesFor_spec _ _ _) fun sr _ ↦ ?_
      have hfrozen : Sound { w with ve := { w.ve with configFrozen := true }.emit .ConfigFrozen }
          call.timestamp := wiring_sound call h rfl rfl rfl rfl rfl (by simp)
      dsimp only
      split_ifs
      · refine Outcome.revertIf_bind (fun _ ↦ by simp [NotViolation]) fun _ ↦ ?_
        exact Outcome.revertIf_bind (fun _ ↦ by simp [NotViolation]) fun _ ↦ hfrozen
      · exact hfrozen

end Steps

/-- The books are in order in every reachable configuration. -/
theorem reachable_sound {port : IShareholderRoyalties S} {c : Config S}
    (h : (system port).Reachable c) : Sound c.world c.now := by
  refine h.invariant (I := fun c ↦ Sound c.world c.now) ?_ ?_
  · rintro c ⟨deployment, hnow, self, claimToken, owner, hve⟩
    refine ⟨?_, ?_⟩ <;> rw [hve]
    · exact initial_accounted _ _ _ deployment.timestamp_pos
    · exact hnow.ge
  · rintro c c' - hc hstep
    cases hstep with
    | op call op hnow hexec =>
        exact (exec_spec port call ⟨hc.accounted, hc.le_now.trans hnow⟩ op).of_ok hexec
    | outside royalties claim => exact ⟨hc.accounted, hc.le_now⟩

/-- The accumulators as sums over the schedule and the live locks. -/
structure AccumulatorsExact (s : VeState) : Prop where
  finite_schedule : (support s.global.slopeChanges).Finite
  finite_live : {id | s.IsLive id}.Finite
  future : ∀ e, 0 < s.global.slopeChanges e → s.global.globalLastTs < e
  slope : s.global.globalSlopeScaled = ∑ᶠ e, s.global.slopeChanges e
  bias : s.global.globalBiasScaled =
    (∑ᶠ (id) (_ : s.IsLive id ∧ (s.locks id).autoMax = true), (s.locks id).amount * SLOPE_SCALE) +
      ∑ᶠ e, s.global.slopeChanges e * (e - s.global.globalLastTs)
  covered : ∀ e, s.global.globalLastTs < e →
    (∑ᶠ (id) (_ : s.IsLive id ∧ (s.locks id).autoMax = false ∧ (s.locks id).lockEnd = e),
      ceilDiv ((s.locks id).amount * SLOPE_SCALE) MAX_LOCK_DURATION) ≤ s.global.slopeChanges e

theorem VeState.Accounted.accumulatorsExact {s : VeState} (h : s.Accounted) :
    AccumulatorsExact s := by
  have hflat : (∑ᶠ (id) (_ : s.IsLive id ∧ (s.locks id).autoMax = true),
      (s.locks id).amount * SLOPE_SCALE) = flatBias s.locks := by
    refine finsum_congr fun id ↦ ?_
    by_cases hlive : s.IsLive id
    · cases hauto : (s.locks id).autoMax <;> simp [hlive, hauto, Lock.flatBias]
    · simp [hlive, h.burned id (not_not.mp hlive)]
  have hdemand (e : ℕ) :
      (∑ᶠ (id) (_ : s.IsLive id ∧ (s.locks id).autoMax = false ∧ (s.locks id).lockEnd = e),
        ceilDiv ((s.locks id).amount * SLOPE_SCALE) MAX_LOCK_DURATION) = demand s.locks e := by
    refine finsum_congr fun id ↦ ?_
    by_cases hlive : s.IsLive id
    · by_cases hend : (s.locks id).autoMax = false ∧ (s.locks id).lockEnd = e <;>
        simp [hlive, hend, Lock.slopeAt, ceilSlope]
    · simp [hlive, h.burned id (not_not.mp hlive)]
  have hexact := h.backed.exact.at_last
  refine ⟨hexact.scheduled.finite, ?_, ?_, hexact.slope_eq, ?_, fun e he ↦ ?_⟩
  · refine (Set.finite_lt_nat s.nextTokenId).subset fun id hid ↦ ?_
    by_contra hlt
    exact hid (h.fresh id (not_lt.mp hlt))
  · exact fun e he ↦ hexact.scheduled.future e he.ne'
  · rw [hflat]
    exact hexact.bias_eq
  · rw [hdemand]
    exact_mod_cast h.backed.covers e he

/-- In every run the accumulators are the sums of the schedule and of the live
locks.  No operation, at whatever later time, reverts with an invariant
violation, and no checkpoint meets a scheduled slope larger than the global
slope. -/
theorem accumulators_exact (port : IShareholderRoyalties S) (c : Config S)
    (h : (system port).Reachable c) :
    AccumulatorsExact c.world.ve ∧
      (∀ (call : Call) (op : Op), c.now ≤ call.timestamp →
        exec port call c.world op ≠ .error .InvariantViolation) ∧
      (∀ nowTs, c.now ≤ nowTs → ∃ g log,
        c.world.ve.global.checkpointGlobalStateInternal nowTs = .ok (g, log) ∧
        ∀ time change slope, .SlopeDriftClamped time change slope ∈ log → change ≤ slope) ∧
      ∀ time change slope,
        .SlopeDriftClamped time change slope ∈ c.world.ve.events → change ≤ slope := by
  have hsound := reachable_sound h
  refine ⟨hsound.accounted.accumulatorsExact, fun call op hnow ↦ ?_, fun nowTs hnow ↦ ?_,
    hsound.accounted.clamps⟩
  · have hspec := exec_spec port call ⟨hsound.accounted, hsound.le_now.trans hnow⟩ op
    intro herror
    exact hspec.of_error herror rfl
  · have hspec := checkpointGlobalStateInternal_spec hsound.accounted.backed.exact
      (hsound.le_now.trans hnow)
    cases hrun : c.world.ve.global.checkpointGlobalStateInternal nowTs with
    | ok r => exact ⟨r.1, r.2, rfl, (hspec.of_ok hrun).2⟩
    | error e => exact (hspec.of_error hrun).elim

/-! ## A deployed bundle -/

/-- A call into a consistent bundle: lock contract 1, CLAIM 2, Furnace 3,
MineCore 4, royalties 5. -/
def bundleCall (timestamp sender : ℕ) (h : 0 < timestamp) : Call where
  timestamp := timestamp
  timestamp_pos := h
  sender := sender
  codeLength := fun a ↦ if a ≤ 5 then 1 else 0
  delegatedEOA := fun _ ↦ false
  staticcallAddress := fun target selector ↦
    match target, selector with
    | 3, .ve => 1 | 3, .claim => 2 | 3, .mineCore => 4 | 3, .shareholderRoyalties => 5
    | 2, .mineCore => 4
    | 4, .ve => 1 | 4, .claim => 2 | 4, .furnace => 3 | 4, .royalties => 5
    | 5, .ve => 1 | 5, .furnace => 3
    | _, _ => 0
  isAuthorized := fun _ _ _ _ ↦ false
  onERC721Received := fun _ ↦ true

/-- A royalties contract that accepts every checkpoint. -/
def acceptingPort : IShareholderRoyalties Unit where
  checkpointUser := fun _ _ _ _ s ↦ some s
  pinUserObservedMin := fun _ _ _ _ s ↦ some s

def bundleWorld : World Unit where
  ve := initial 1 2 9 100
  royalties := ()
  claim :=
    { self := 2, wiringProbe := 8, mineCore := 4, balanceOf := fun _ ↦ 10 ^ 24
      allowance := fun _ _ ↦ 10 ^ 24, totalSupply := 10 ^ 24 }

/-- The owner wires the Furnace, which then creates a lock. -/
def bundleRun : Except Error (World Unit) := do
  let w ← exec acceptingPort (bundleCall 100 9 (by decide)) bundleWorld (.setFurnace 3)
  exec acceptingPort (bundleCall 200 3 (by decide)) w
    (.createLockFor 7 (1500 * 10 ^ 18) 604800 false)

theorem accumulators_exact_bundle :
    ∃ w, bundleRun = .ok w ∧ (w.ve.locks 1).amount = 1500 * 10 ^ 18 ∧
      AccumulatorsExact w.ve := by
  have hok : (bundleRun.toOption.any fun w ↦ (w.ve.locks 1).amount = 1500 * 10 ^ 18) = true := by
    decide +kernel
  cases hrun : bundleRun with
  | error e => simp [hrun, Except.toOption] at hok
  | ok w =>
      obtain ⟨w₁, hwire, hcreate⟩ := bind_eq_ok_iff.mp hrun
      have hstart : (system acceptingPort).Reachable ⟨100, bundleWorld⟩ :=
        .init ⟨bundleCall 100 9 (by decide), rfl, 1, 2, 9, rfl⟩
      have hwired := hstart.step (.op (bundleCall 100 9 (by decide)) _ le_rfl hwire)
      have hcreated := hwired.step
        (.op (bundleCall 200 3 (by decide)) _ (by simp [bundleCall]) hcreate)
      refine ⟨w, rfl, ?_, (accumulators_exact acceptingPort _ hcreated).1⟩
      simpa [hrun, Except.toOption] using hok

end ClaimRush.VeClaimNFT
