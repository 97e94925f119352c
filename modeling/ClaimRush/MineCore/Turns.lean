import ClaimRush.MineCore.Mints

/-!
# What a call does to the game

A takeover replaces the reign, a change of the pause moves the accrual cursor,
and the genesis collection mints its bucket.  Every other call leaves the game,
the window and the minted totals alone.
-/

open Function

namespace ClaimRush.MineCore

open Constants

variable {S : Type} (port : VeClaimNFT.IShareholderRoyalties S) (call : Call) (w : World S)

/-- The game, the window and the minted totals stay. -/
structure Idle (s s' : CoreState) : Prop where
  game : s'.game = s.game
  window : s'.window = s.window
  genesis : s'.genesis = s.genesis
  kingMinted : s'.ghost.kingMinted = s.ghost.kingMinted
  furnaceMinted : s'.ghost.furnaceMinted = s.ghost.furnaceMinted

theorem Mints.idle {s s' : CoreState} (h : Quiet s s') : Idle s s' :=
  ⟨h.game, h.window, h.genesis, h.kingMinted, h.furnaceMinted⟩

theorem Idle.ite {s s' s'' : CoreState} {c : Prop} [Decidable c] (h : Idle s s') (h' : Idle s s'') :
    Idle s (if c then s' else s'') := by
  split_ifs
  · exact h
  · exact h'

/-- The emissions of the genesis window, minted at most once and after its end. -/
structure GenesisCollected (s s' : CoreState) : Prop where
  before : s.genesis.genesisKingClaimCollected = false
  ended : s.genesis.emissionStartTime + s.genesis.GENESIS_ACCRUAL_DURATION ≤ call.timestamp
  mined : kingEmitted s.genesis.emissionStartTime s.genesis.emissionStartTime
    (s.genesis.emissionStartTime + s.genesis.GENESIS_ACCRUAL_DURATION) =
      .ok s'.genesis.genesisKingClaimMinted
  genesis : s'.genesis = { s.genesis with
    genesisKingClaimCollected := true
    genesisKingClaimMinted := s'.genesis.genesisKingClaimMinted }
  kingMinted : s'.ghost.kingMinted = s.ghost.kingMinted + s'.genesis.genesisKingClaimMinted
  furnaceMinted : s'.ghost.furnaceMinted = s.ghost.furnaceMinted
  game : s'.game = s.game
  window : s'.window = s.window

/-- A change of the pause, which needs the genesis bucket collected to end. -/
structure PauseChanged (paused : Bool) (s s' : CoreState) : Prop where
  changes : s.game.takeoversPaused = !paused
  collected : paused = false → s.genesis.genesisKingClaimCollected = true
  set : s.game.setPaused call.timestamp paused = .ok s'.game
  window : s'.window = s.window
  genesis : s'.genesis = s.genesis
  kingMinted : s'.ghost.kingMinted = s.ghost.kingMinted
  furnaceMinted : s'.ghost.furnaceMinted = s.ghost.furnaceMinted

/-- A change of the pause writes the flag, the start of the pause and the cursor,
which never moves back; without a king no time is moved. -/
theorem setPaused_writes {g g' : Game} {nowTs : ℕ} {paused : Bool}
    (hset : g.setPaused nowTs paused = .ok g') :
    ∃ cursor since, g.currentReignLastAccrualTime ≤ cursor ∧
      (g.currentKing = 0 → g.pausedSince = 0 →
        cursor = g.currentReignLastAccrualTime ∧ since = 0) ∧
      g' = { g with
        takeoversPaused := paused,
        currentReignLastAccrualTime := cursor, pausedSince := since } := by
  unfold Game.setPaused at hset
  split_ifs at hset with hpaused hking hsince
  · obtain rfl := Except.ok.inj hset
    exact ⟨_, _, le_rfl, fun hzero ↦ absurd hzero hking, by rw [hpaused]⟩
  · obtain rfl := Except.ok.inj hset
    exact ⟨_, _, le_rfl, fun _ hzero ↦ ⟨rfl, hzero⟩, by rw [hpaused]⟩
  · obtain ⟨duration, -, hset⟩ := bind_eq_ok_iff.mp hset
    obtain ⟨cursor, hcursor, hset⟩ := bind_eq_ok_iff.mp hset
    obtain ⟨-, rfl⟩ := uint256_eq_ok.mp hcursor
    obtain rfl := Except.ok.inj hset
    refine ⟨g.currentReignLastAccrualTime + duration, 0, Nat.le_add_right _ _,
      fun _ hzero ↦ absurd hzero hsince, ?_⟩
    rw [Bool.eq_false_of_not_eq_true hpaused]
  · obtain rfl := Except.ok.inj hset
    refine ⟨_, _, le_rfl, fun _ hzero ↦ ⟨rfl, hzero⟩, ?_⟩
    rw [Bool.eq_false_of_not_eq_true hpaused]

theorem setPaused_king {g g' : Game} {nowTs : ℕ} {paused : Bool}
    (hset : g.setPaused nowTs paused = .ok g') : g'.currentKing = g.currentKing := by
  obtain ⟨cursor, since, -, -, rfl⟩ := setPaused_writes hset
  rfl

/-- A takeover by another account while takeovers are not paused. -/
structure Taken (newKing : Address) (s s' : CoreState) : Prop where
  unpaused : s.game.takeoversPaused = false
  other : s.game.currentKing ≠ 0 → newKing ≠ s.game.currentKing
  takenOver : ∃ pricePaid k f, TakenOver call newKing pricePaid k f s s'

/-- What a call that makes no king does to the game. -/
inductive Turn (s s' : CoreState) : Prop
  | pauseChanged (paused : Bool) (h : PauseChanged call paused s s')
  | genesisCollected (h : GenesisCollected call s s')
  | idle (h : Idle s s')

variable {call w} in
theorem Turn.of_quiet {w' : World S} (h : Quiet w.core w'.core) : Turn call w.core w'.core :=
  .idle h.idle

/-! ## Takeovers -/

theorem swapTokenToEth_core (r : SwapReplies) (tokenIn amountIn minEthOut : ℕ) :
    Returns (fun p : World S × ℕ ↦
        p.1.core = w.core ∧ p.1.balance = w.balance + p.2 ∧ minEthOut ≤ p.2)
      (swapTokenToEth call w r tokenIn amountIn minEthOut) := by
  have hunwrap : Returns (fun p : World S × ℕ ↦
      p.1.core = w.core ∧ p.1.balance = w.balance + p.2 ∧ minEthOut ≤ p.2)
      (unwrapWeth w r minEthOut) := by
    unfold unwrapWeth
    exact Returns.seq fun ethOut _ ↦ Returns.guard fun hmin ↦ ⟨rfl, rfl, not_lt.mp hmin⟩
  unfold swapTokenToEth
  refine Returns.guard fun _ ↦ Returns.guard fun _ ↦ Returns.guard fun _ ↦ Returns.guard fun _ ↦ ?_
  refine Returns.seq fun config _ ↦ Returns.ite (fun _ ↦ Returns.guard fun _ ↦ hunwrap) fun _ ↦ ?_
  refine Returns.seq fun routes _ ↦ ?_
  split
  · refine Returns.guard fun _ ↦ Returns.seq fun pool _ ↦ ?_
    exact Returns.guard fun _ ↦ Returns.guard fun _ ↦ Returns.seq fun _ _ ↦ hunwrap
  · trivial

variable {call w} in
theorem Taken.of_guards {newKing : Address} {pricePaid : ℕ} {w' : World S}
    (hpaused : ¬ w.core.game.takeoversPaused = true)
    (hother : ¬ (newKing = w.core.game.currentKing ∧ w.core.game.currentKing ≠ 0))
    (h : ∃ k f, TakenOver call newKing pricePaid k f w.core w'.core) :
    Taken call newKing w.core w'.core :=
  ⟨by simpa using hpaused, fun hking heq ↦ hother ⟨heq, hking⟩, pricePaid, h⟩

theorem takeover_taken (r : TakeoverReplies) (maxPrice : ℕ) :
    Returns (fun w' : World S ↦ Taken call call.sender w.core w'.core)
    (takeover port call w r maxPrice) := by
  unfold takeover
  refine Returns.guard fun hpaused ↦ Returns.guard fun hother ↦ Returns.guard fun _ ↦ ?_
  exact (executeTakeover_takenOver port call _ r _ _ _).weaken fun w' h' ↦
    Taken.of_guards hpaused hother h'

theorem takeoverWithToken_taken (r : TakeoverReplies) (swap : SwapReplies)
    (tokenIn amountIn minEthOut maxPrice : ℕ) :
    Returns (fun w' : World S ↦ Taken call call.sender w.core w'.core)
      (takeoverWithToken port call w r swap tokenIn amountIn minEthOut maxPrice) := by
  unfold takeoverWithToken
  refine Returns.guard fun hpaused ↦ Returns.guard fun hother ↦ Returns.guard fun _ ↦ ?_
  refine Outcome.bind (swapTokenToEth_core call w swap tokenIn amountIn minEthOut) ?_
  rintro ⟨w₁, ethOut⟩ ⟨hcore, -, -⟩
  refine (executeTakeover_takenOver port call w₁ r _ _ _).weaken fun w' h' ↦ ?_
  rw [hcore] at h'
  exact Taken.of_guards hpaused hother h'

theorem takeoverWithTokenAndDeadline_taken (r : TakeoverReplies) (swap : SwapReplies)
    (tokenIn amountIn minEthOut maxPrice deadline : ℕ) :
    Returns (fun w' : World S ↦ Taken call call.sender w.core w'.core)
      (takeoverWithTokenAndDeadline port call w r swap tokenIn amountIn minEthOut maxPrice
        deadline) := by
  unfold takeoverWithTokenAndDeadline
  refine Returns.guard fun hpaused ↦ Returns.guard fun hother ↦ Returns.guard fun _ ↦ ?_
  refine Returns.guard fun _ ↦ ?_
  refine Outcome.bind (swapTokenToEth_core call w swap tokenIn amountIn minEthOut) ?_
  rintro ⟨w₁, ethOut⟩ ⟨hcore, -, -⟩
  refine (executeTakeover_takenOver port call w₁ r _ _ _).weaken fun w' h' ↦ ?_
  rw [hcore] at h'
  exact Taken.of_guards hpaused hother h'

theorem takeoverFor_taken (r : TakeoverReplies) (newKing : Address) (maxPrice : ℕ) :
    Returns (fun w' : World S ↦ Taken call newKing w.core w'.core)
      (takeoverFor port call w r newKing maxPrice) := by
  unfold takeoverFor
  refine Returns.guard fun hpaused ↦ Returns.guard fun _ ↦ Returns.guard fun hother ↦ ?_
  refine Returns.guard fun _ ↦ Returns.seq fun hub _ ↦ Returns.guard fun _ ↦ ?_
  exact (executeTakeover_takenOver port call _ r _ _ _).weaken fun w' h' ↦
    Taken.of_guards hpaused hother h'

/-! ## Pull payments -/

theorem withdrawKingBalanceInternal_quiet (user dst : Address) (accepted : Bool × Bool) :
    Returns (fun w' : World S ↦ Quiet w.core w'.core)
      (withdrawKingBalanceInternal w user dst accepted) := by
  unfold withdrawKingBalanceInternal
  refine Returns.guard fun _ ↦ Returns.ite (fun _ ↦ .refl _) fun _ ↦ Returns.seq fun total _ ↦ ?_
  dsimp only
  generalize hcore : ({ w.core with buckets := _ } : CoreState) = core
  have hcleared : Quiet w.core core := by
    rw [← hcore]
    exact .quiet rfl rfl rfl rfl rfl rfl rfl
  have hfirst := hcleared.trans (sendEth_quiet { w with core := core } dst
    (w.core.buckets.kingEthBalance user) accepted.1)
  generalize sendEth { w with core := core } dst (w.core.buckets.kingEthBalance user) accepted.1 =
    first at hfirst ⊢
  have hsecond := hfirst.after (sendEth_quiet first.1 user (w.core.buckets.kingEthBalance user)
    accepted.2)
  generalize hlast : (if first.2 = false ∧ dst ≠ user then
    sendEth first.1 user (w.core.buckets.kingEthBalance user) accepted.2
    else (first.1, first.2)) = last
  have hquiet : Quiet w.core last.1.core := by
    rw [← hlast]
    split_ifs
    · exact hsecond
    · exact hfirst
  refine Returns.guard fun _ ↦ ?_
  by_cases hto : first.2 = true ∧ dst ≠ user
  · rw [if_pos hto]
    exact (hquiet.emit _).emit _
  · rw [if_neg hto]
    exact hquiet.emit _

theorem withdrawRefundBalance_quiet (dst : Address) (accepted : Bool) :
    Returns (fun w' : World S ↦ Quiet w.core w'.core)
    (withdrawRefundBalance call w dst accepted) := by
  unfold withdrawRefundBalance
  refine Returns.guard fun _ ↦ Returns.ite (fun _ ↦ .refl _) fun _ ↦ Returns.seq fun total _ ↦ ?_
  dsimp only
  generalize hcore : ({ w.core with buckets := _ } : CoreState) = core
  have hcleared : Quiet w.core core := by
    rw [← hcore]
    exact .quiet rfl rfl rfl rfl rfl rfl rfl
  have hsent := hcleared.trans (sendEth_quiet { w with core := core } dst
    (w.core.buckets.refundEthBalance call.sender) accepted)
  exact Returns.guard fun _ ↦ hsent.emit _

theorem withdrawPendingClaimInternal_quiet (gas : RouteGas) (user dst : Address) :
    Returns (fun w' : World S ↦ Quiet w.core w'.core)
      (withdrawPendingClaimInternal port call w gas user dst) := by
  unfold withdrawPendingClaimInternal
  refine Returns.guard fun _ ↦ Returns.ite (fun _ ↦ .refl _) fun _ ↦ ?_
  have hrouted := routeClaimToLock_quiet port call w gas dst (w.core.kings.pendingKingClaim user)
  dsimp only
  split
  · trivial
  · refine Returns.seq fun total _ ↦ ?_
    exact hrouted.after (.quiet rfl rfl rfl rfl rfl rfl rfl)

theorem retryPushShareholderEth_quiet (rounds : ℕ) (reply : RoyaltiesReply) :
    Returns (fun w' : World S ↦ Quiet w.core w'.core)
      (retryPushShareholderEth call w rounds reply) := by
  unfold retryPushShareholderEth
  refine Returns.guard fun _ ↦ Returns.seq fun _ _ ↦ Returns.guard fun _ ↦ ?_
  refine Returns.ite (fun _ ↦ .refl _) fun _ ↦ ?_
  refine Outcome.bind (checkpointVeLoop_core call _ rounds) ?_
  rintro w₁ ⟨hcore, -⟩
  refine Returns.guard fun _ ↦ ?_
  have hstamped : Quiet w.core w₁.core := by
    rw [hcore]
    exact .quiet rfl rfl rfl rfl rfl rfl rfl
  dsimp only
  generalize hcleared : ({ w₁.core with buckets := _ } : CoreState) = core
  have hquiet : Quiet w.core core := by
    rw [← hcleared]
    exact hstamped.after (.quiet rfl rfl rfl rfl rfl rfl rfl)
  generalize w₁.core.wiring.royalties = royalties
  generalize w.core.buckets.shareholderEthPending = pending
  have hsent := hquiet.trans (sendEth_quiet { w₁ with core := core } royalties pending
    reply.accepted)
  split
  case h_1 w₂ heq =>
    rw [heq] at hsent
    by_cases hflushed : reply.flushed = true
    · rw [if_pos hflushed]
      exact hsent
    · rw [if_neg hflushed]
      exact hsent.emit _
  case h_2 w₂ heq =>
    rw [heq] at hsent
    exact hsent.after (.quiet rfl rfl rfl rfl rfl rfl rfl)

/-! ## Configuration -/

/-- The functions that only configure the contract or advance the lock contract. -/
def Op.configures : Op → Bool
  | .advanceVeCheckpoint _ => true
  | .setKingAutoLockConfig _ _ _ _ _ => true
  | .setKingAutoLockConfigForUser _ _ _ _ _ _ => true
  | .setCurrentReignRecipients _ _ => true
  | .setLockingPaused _ => true
  | .setGuardian _ => true
  | .setFurnace _ => true
  | .freezeConfig => true
  | .setEntryTokenRegistry _ => true
  | .setClaimAllHelper _ => true
  | .setDelegationHub _ => true
  | .transferOwnership _ => true
  | .acceptOwnership => true
  | _ => false

/-- No ETH and no CLAIM moves, and the game goes on as before. -/
structure Configured (w w' : World S) : Prop where
  game : w'.core.game = w.core.game
  window : w'.core.window = w.core.window
  genesis : w'.core.genesis = w.core.genesis
  ghost : w'.core.ghost = w.core.ghost
  buckets : w'.core.buckets = w.core.buckets
  pending : w'.core.kings.pendingKingClaim = w.core.kings.pendingKingClaim
  totalPending : w'.core.kings.totalPendingKingClaim = w.core.kings.totalPendingKingClaim
  balance : w'.balance = w.balance
  claim : w'.claim = w.claim

namespace Configured

variable {w} {w' w'' : World S}

theorem of_core (hgame : w'.core.game = w.core.game) (hwindow : w'.core.window = w.core.window)
    (hgenesis : w'.core.genesis = w.core.genesis) (hghost : w'.core.ghost = w.core.ghost)
    (hbuckets : w'.core.buckets = w.core.buckets)
    (hpending : w'.core.kings.pendingKingClaim = w.core.kings.pendingKingClaim)
    (htotal : w'.core.kings.totalPendingKingClaim = w.core.kings.totalPendingKingClaim)
    (hbalance : w'.balance = w.balance) (hclaim : w'.claim = w.claim) : Configured w w' :=
  ⟨hgame, hwindow, hgenesis, hghost, hbuckets, hpending, htotal, hbalance, hclaim⟩

theorem refl (w : World S) : Configured w w := ⟨rfl, rfl, rfl, rfl, rfl, rfl, rfl, rfl, rfl⟩

theorem ite {c : Prop} [Decidable c] (h : Configured w w') (h' : Configured w w'') :
    Configured w (if c then w' else w'') := by
  split_ifs
  · exact h
  · exact h'

theorem idle (h : Configured w w') : Idle w.core w'.core :=
  ⟨h.game, h.window, h.genesis, congrArg Ghost.kingMinted h.ghost,
    congrArg Ghost.furnaceMinted h.ghost⟩

end Configured

theorem rewire_configured (wiring : Wiring) (e : Event) : Configured w (rewire w wiring e) :=
  ⟨rfl, rfl, rfl, rfl, rfl, rfl, rfl, rfl, rfl⟩

theorem setKingAutoLockConfigInternal_configured (user : Address) (enabled : Bool)
    (targetTokenId durationSeconds : ℕ) (createAutoMax : Bool) (minVeOut : ℕ) :
    Returns (fun p : World S × ℕ ↦ Configured w p.1)
      (setKingAutoLockConfigInternal call w user enabled targetTokenId durationSeconds createAutoMax
        minVeOut) := by
  unfold setKingAutoLockConfigInternal
  refine Returns.ite (fun _ ↦ ⟨rfl, rfl, rfl, rfl, rfl, rfl, rfl, rfl, rfl⟩) fun _ ↦ ?_
  refine Returns.ite (fun _ ↦ ?_) fun _ ↦ ?_
  · refine Returns.guard fun _ ↦ Returns.guard fun _ ↦ ?_
    exact ⟨rfl, rfl, rfl, rfl, rfl, rfl, rfl, rfl, rfl⟩
  · refine Returns.guard fun _ ↦ Returns.guard fun _ ↦ Returns.seq fun _ _ ↦ ?_
    exact ⟨rfl, rfl, rfl, rfl, rfl, rfl, rfl, rfl, rfl⟩

theorem setCurrentReignRecipients_configured (ethRecipient claimRecipient : Address) :
    Returns (fun w' : World S ↦ Configured w w')
      (setCurrentReignRecipients call w ethRecipient claimRecipient) := by
  unfold setCurrentReignRecipients
  refine Returns.guard fun _ ↦ Returns.guard fun _ ↦ Returns.seq fun _ _ ↦ Returns.seq fun _ _ ↦ ?_
  by_cases hking : call.sender ≠ w.core.game.currentKing
  · rw [if_pos hking]
    refine Returns.seq fun perms _ ↦ Returns.ite (fun _ ↦ .refl w) fun _ ↦ ?_
    dsimp only
    by_cases hperms : perms ≠ 0
    · rw [if_pos hperms]
      exact ⟨rfl, rfl, rfl, rfl, rfl, rfl, rfl, rfl, rfl⟩
    · rw [if_neg hperms]
      exact ⟨rfl, rfl, rfl, rfl, rfl, rfl, rfl, rfl, rfl⟩
  · rw [if_neg hking]
    exact Returns.seq fun perms hperms ↦ Returns.ite (fun _ ↦ .refl w) fun _ ↦ by
      obtain rfl := Except.ok.inj hperms
      exact ⟨rfl, rfl, rfl, rfl, rfl, rfl, rfl, rfl, rfl⟩

theorem setLockingPaused_configured (paused : Bool) :
    Returns (fun w' : World S ↦ Configured w w') (setLockingPaused call w paused) := by
  unfold setLockingPaused
  refine Returns.seq fun _ _ ↦ Returns.guard fun _ ↦ Returns.guard fun _ ↦ Returns.guard fun _ ↦ ?_
  have hbase : Returns (fun f : Furnace.World S ↦ f.base = w.furnace.base)
      (Furnace.setLockingPaused (call.byCore w.core) w.furnace paused) := by
    unfold Furnace.setLockingPaused
    exact Returns.guard fun _ ↦ Returns.ite (fun _ ↦ rfl) fun _ ↦ rfl
  refine Outcome.bind hbase fun f hf ↦ ?_
  exact ⟨rfl, rfl, rfl, rfl, rfl, rfl, rfl, rfl, congrArg VeClaimNFT.World.claim hf⟩

theorem run_configured {op : Op} (hop : op.configures = true) :
    Returns (fun w' : World S ↦ Configured w w') (run port call w op) := by
  cases op with
  | advanceVeCheckpoint rounds =>
      refine Outcome.bind (checkpointVeLoop_core call w rounds) ?_
      rintro w₁ ⟨hcore, hbalance, hclaim⟩
      refine Returns.guard fun _ ↦ ?_
      have hsame : Configured w w₁ := by
        refine ⟨?_, ?_, ?_, ?_, ?_, ?_, ?_, hbalance, hclaim⟩ <;> rw [hcore]
      exact hsame
  | setKingAutoLockConfig enabled target duration autoMax minVeOut =>
      exact Outcome.bind (setKingAutoLockConfigInternal_configured call w _ enabled target duration
        autoMax minVeOut) fun p hp ↦ hp
  | setKingAutoLockConfigForUser user enabled target duration autoMax minVeOut =>
      refine Returns.guard fun _ ↦ Returns.seq fun hub _ ↦ Returns.guard fun _ ↦ ?_
      refine Outcome.bind (setKingAutoLockConfigInternal_configured call w _ enabled target duration
        autoMax minVeOut) fun p hp ↦ ?_
      exact ⟨hp.game, hp.window, hp.genesis, hp.ghost, hp.buckets, hp.pending, hp.totalPending,
        hp.balance, hp.claim⟩
  | setCurrentReignRecipients ethRecipient claimRecipient =>
      exact setCurrentReignRecipients_configured call w ethRecipient claimRecipient
  | setLockingPaused paused => exact setLockingPaused_configured call w paused
  | setGuardian guardian =>
      refine Returns.seq fun _ _ ↦ Returns.guard fun _ ↦ Returns.seq fun _ _ ↦ ?_
      refine Returns.guard fun _ ↦ Returns.guard fun _ ↦ Returns.guard fun _ ↦ ?_
      exact rewire_configured w _ _
  | setFurnace furnace =>
      refine Returns.seq fun _ _ ↦ Returns.guard fun _ ↦ Returns.seq fun _ _ ↦ ?_
      refine Returns.guard fun _ ↦ Returns.guard fun _ ↦ Returns.guard fun _ ↦ ?_
      exact rewire_configured w _ _
  | freezeConfig =>
      refine Returns.seq fun _ _ ↦ Returns.guard fun _ ↦ Returns.guard fun _ ↦ ?_
      refine Returns.guard fun _ ↦ Returns.guard fun _ ↦ Returns.guard fun _ ↦ ?_
      refine Returns.guard fun _ ↦ Returns.guard fun _ ↦ Returns.guard fun _ ↦ ?_
      exact Returns.guard fun _ ↦ rewire_configured w _ _
  | setEntryTokenRegistry registry =>
      refine Returns.seq fun _ _ ↦ Returns.seq fun _ _ ↦ Returns.guard fun _ ↦ ?_
      exact rewire_configured w _ _
  | setClaimAllHelper helper =>
      refine Returns.seq fun _ _ ↦ Returns.guard fun _ ↦ Returns.seq fun _ _ ↦ ?_
      exact rewire_configured w _ _
  | setDelegationHub hub =>
      refine Returns.seq fun _ _ ↦ Returns.guard fun _ ↦ Returns.seq fun _ _ ↦ ?_
      exact rewire_configured w _ _
  | transferOwnership newOwner =>
      refine Returns.seq fun _ _ ↦ Returns.guard fun _ ↦ Returns.guard fun _ ↦ ?_
      exact rewire_configured w _ _
  | acceptOwnership =>
      refine Returns.guard fun _ ↦ Returns.guard fun _ ↦ ?_
      exact rewire_configured w _ _
  | _ => cases hop

/-! ## Pause and genesis -/

theorem setTakeoversPaused_turn (paused : Bool) :
    Returns (fun w' : World S ↦ Turn call w.core w'.core) (setTakeoversPaused call w paused) := by
  unfold setTakeoversPaused
  refine Returns.seq fun _ _ ↦ Returns.ite (fun _ ↦ .of_quiet (.refl _)) fun hne ↦ ?_
  refine Returns.guard fun hcollected ↦ Returns.seq fun game hgame ↦ ?_
  refine .pauseChanged paused ⟨?_, ?_, hgame, rfl, rfl, rfl, rfl⟩
  · exact (Bool.eq_not.mpr (Ne.symm hne))
  · intro hpaused
    simpa using fun h ↦ hcollected ⟨hpaused, h⟩

theorem collectGenesisKingClaim_turn (dst : Address) :
    Returns (fun w' : World S ↦ Turn call w.core w'.core) (collectGenesisKingClaim call w dst) := by
  unfold collectGenesisKingClaim
  refine Returns.seq fun _ _ ↦ Returns.guard fun _ ↦ Returns.guard fun _ ↦ Returns.guard fun _ ↦ ?_
  refine Returns.guard fun hcollected ↦ Returns.seq fun genesisEnd hend ↦ ?_
  obtain ⟨-, rfl⟩ := uint256_eq_ok.mp hend
  refine Returns.guard fun hended ↦ Returns.seq fun claimMinted hmined ↦ ?_
  refine (mintKingClaim_mints _ _ _).weaken fun w' h' ↦ ?_
  have hminted : w'.core.genesis.genesisKingClaimMinted = claimMinted := by rw [h'.genesis]
  refine .genesisCollected ⟨by simpa using hcollected, not_lt.mp hended, ?_, ?_, ?_,
    h'.furnaceMinted, h'.game, h'.window⟩
  · rw [hminted]
    exact hmined
  · rw [hminted]
    exact h'.genesis
  · rw [hminted]
    exact h'.kingMinted

/-! ## Every call -/

theorem run_taken {op : Op} {newKing : Address} (hop : op.newKing call = some newKing) :
    Returns (fun w' : World S ↦ Taken call newKing w.core w'.core) (run port call w op) := by
  cases op with
  | takeover r maxPrice =>
      obtain rfl := Option.some.inj hop
      exact takeover_taken port call w r maxPrice
  | takeoverWithToken r swap tokenIn amountIn minEthOut maxPrice =>
      obtain rfl := Option.some.inj hop
      exact takeoverWithToken_taken port call w r swap tokenIn amountIn minEthOut maxPrice
  | takeoverWithTokenAndDeadline r swap tokenIn amountIn minEthOut maxPrice deadline =>
      obtain rfl := Option.some.inj hop
      exact takeoverWithTokenAndDeadline_taken port call w r swap tokenIn amountIn
        minEthOut maxPrice deadline
  | takeoverFor r newKing maxPrice =>
      obtain rfl := Option.some.inj hop
      exact takeoverFor_taken port call w r newKing maxPrice
  | _ => cases hop

theorem run_turn {op : Op} (hop : op.newKing call = none) :
    Returns (fun w' : World S ↦ Turn call w.core w'.core) (run port call w op) := by
  by_cases hconf : op.configures = true
  · exact (run_configured port call w hconf).weaken fun _ h ↦ .idle h.idle
  cases op with
  | takeover r maxPrice => cases hop
  | takeoverWithToken r swap tokenIn amountIn minEthOut maxPrice => cases hop
  | takeoverWithTokenAndDeadline r swap tokenIn amountIn minEthOut maxPrice deadline => cases hop
  | takeoverFor r newKing maxPrice => cases hop
  | withdrawKingBalance accepted =>
      exact (withdrawKingBalanceInternal_quiet w _ _ _).weaken fun _ ↦ .of_quiet
  | withdrawKingBalanceTo dst accepted =>
      exact (withdrawKingBalanceInternal_quiet w _ _ _).weaken fun _ ↦ .of_quiet
  | withdrawKingBalanceFor user accepted =>
      refine Returns.guard fun _ ↦ ?_
      exact (withdrawKingBalanceInternal_quiet w _ _ _).weaken fun _ ↦ .of_quiet
  | withdrawRefundBalance dst accepted =>
      exact (withdrawRefundBalance_quiet call w dst accepted).weaken fun _ ↦ .of_quiet
  | withdrawPendingClaim gas =>
      exact (withdrawPendingClaimInternal_quiet port call w gas _ _).weaken fun _ ↦ .of_quiet
  | withdrawPendingClaimTo gas dst =>
      exact (withdrawPendingClaimInternal_quiet port call w gas _ dst).weaken fun _ ↦ .of_quiet
  | retryPushShareholderEth rounds reply =>
      exact (retryPushShareholderEth_quiet call w rounds reply).weaken fun _ ↦ .of_quiet
  | setTakeoversPaused paused => exact setTakeoversPaused_turn call w paused
  | collectGenesisKingClaim dst => exact collectGenesisKingClaim_turn call w dst
  | rescueEth dst accepted =>
      refine Returns.seq fun _ _ ↦ Returns.guard fun _ ↦ Returns.seq fun tracked _ ↦ ?_
      refine Returns.ite (fun _ ↦ .of_quiet (.refl _)) fun _ ↦ Returns.guard fun _ ↦ ?_
      exact .of_quiet (sendEth_quiet w _ _ _)
  | rescueClaim dst =>
      refine Returns.seq fun _ _ ↦ Returns.guard fun _ ↦ ?_
      refine Returns.ite (fun _ ↦ .of_quiet (.refl _)) fun _ ↦ Returns.seq fun claim _ ↦ ?_
      exact .of_quiet (.refl _)
  | _ => exact absurd rfl hconf

theorem exec_taken {op : Op} {newKing : Address} (hop : op.newKing call = some newKing) :
    Returns (fun w' : World S ↦ Taken call newKing w.core w'.core) (exec port call w op) :=
  Returns.guard fun _ ↦ run_taken port call w hop

theorem exec_turn {op : Op} (hop : op.newKing call = none) :
    Returns (fun w' : World S ↦ Turn call w.core w'.core) (exec port call w op) :=
  Returns.guard fun _ ↦ run_turn port call w hop

end ClaimRush.MineCore
