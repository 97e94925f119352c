import ClaimRush.Furnace.Moves
import ClaimRush.Lib.Driven

/-!
# Runs of the Furnace

Every external call of the Furnace, and the rest of the world: between the calls
other contracts change anything but the state of the Furnace, and take none of
its CLAIM.  The addresses of the contracts differ and never change.
-/

namespace ClaimRush.Furnace

open Account Constants

variable {S : Type}

inductive Op (S : Type)
  | tick
  | creditReserve (amount : ℕ)
  | mintToReserve (amount : ℕ)
  | enterWithEth (swap : Swap S) (dst : Destination)
  | enterWithClaim (claimAmount : ℕ) (dst : Destination)
  | enterWithClaimFor (user : Address) (claimAmount : ℕ) (dst : Destination)
  | enterWithToken (tokenIn : Address) (amountIn : ℕ) (swap : Swap S) (dst : Destination)
  | enterWithEthFor (user : Address) (swap : Swap S) (dst : Destination)
  | enterWithClaimFromCallerFor (user : Address) (claimAmount : ℕ) (dst : Destination)
  | enterWithTokenFromCallerFor (user tokenIn : Address) (amountIn : ℕ) (swap : Swap S)
      (dst : Destination)
  | lockEthReward (user : Address) (ethAmount : ℕ) (swap : Swap S) (dst : Destination)
  | extendWithBonus (tokenId durationSeconds minBonusOut : ℕ)
  | extendWithBonusFor (user : Address) (tokenId durationSeconds minBonusOut : ℕ)
  | mergeLocksWithBonus (fromTokenId intoTokenId minBonusOut : ℕ)
  | mergeLocksWithBonusFor (user : Address) (fromTokenId intoTokenId minBonusOut : ℕ)
  | claimAutoMaxBonus (tokenId : ℕ)
  | claimAutoMaxBonusBatch (tokenIds : List ℕ) (maxLocks : ℕ)
  | onERC721Received (operator src : Address) (tokenId : ℕ)
  | sellLockToFurnaceFromMarket (seller : Address) (tokenId minClaimOut : ℕ)
  | setShareholderRoyalties (sr : Address)
  | setMineCore (mineCore : Address)
  | setMineMarket (mineMarket : Address)
  | setDelegationHub (hub : Address)
  | setEntryTokenRegistry (mineCoreRegistry registry : Address)
  | setFurnaceQuoter (quoter : Address)
  | setLpRewardsVault (vault : Address)
  | freezeConfig
  | setGuardian (guardian : Address)
  | setLockingPaused (paused : Bool)
  | rescuePendingSellNFT (tokenId : ℕ)
  | requestEmergencyVaultRewire (newVault : Address)
  | cancelEmergencyVaultRewire
  | executeEmergencyVaultRewire
  | outside (base : VeClaimNFT.World S)

/-- A swap does not move the lock contract. -/
def Swap.fixed (swap : Swap S) : Swap S := fun b ↦
  (swap b).filter fun b' ↦ b'.ve.self = b.ve.self

/-- MineCore mints to the Furnace and credits what it minted. -/
def mintToReserve (call : Call) (w : World S) (amount : ℕ) : Except Error (World S) := do
  let claim ← w.claim.mint w.furnace.mineCore w.furnace.self amount
  creditReserve call (w.withClaim claim) amount

/-- The other contracts act: they do not take CLAIM from the Furnace. -/
def outside (w : World S) (base : VeClaimNFT.World S) : Except Error (World S) := do
  revertIf (base.ve.self ≠ w.ve.self) .WiringMismatch
  revertIf (base.claim.balanceOf w.furnace.self < w.claimBalance) .ERC20InsufficientBalance
  return { w with base := base }

/-- Execute one call; the Furnace does not call itself. -/
def exec (port : VeClaimNFT.IShareholderRoyalties S) (call : Call) (w : World S) (op : Op S) :
    Except Error (World S) := do
  revertIf (call.sender = w.furnace.self) .NotAuthorized
  match op with
  | .tick => tick call w
  | .creditReserve amount => creditReserve call w amount
  | .mintToReserve amount => mintToReserve call w amount
  | .enterWithEth swap dst => return (← enterWithEth port call w swap.fixed dst).1
  | .enterWithClaim claimAmount dst => return (← enterWithClaim port call w claimAmount dst).1
  | .enterWithClaimFor user claimAmount dst =>
      return (← enterWithClaimFor port call w user claimAmount dst).1
  | .enterWithToken tokenIn amountIn swap dst =>
      return (← enterWithToken port call w tokenIn amountIn swap.fixed dst).1
  | .enterWithEthFor user swap dst => return (← enterWithEthFor port call w user swap.fixed dst).1
  | .enterWithClaimFromCallerFor user claimAmount dst =>
      return (← enterWithClaimFromCallerFor port call w user claimAmount dst).1
  | .enterWithTokenFromCallerFor user tokenIn amountIn swap dst =>
      return (← enterWithTokenFromCallerFor port call w user tokenIn amountIn swap.fixed dst).1
  | .lockEthReward user ethAmount swap dst =>
      return (← lockEthReward port call w user ethAmount swap.fixed dst).1
  | .extendWithBonus tokenId durationSeconds minBonusOut =>
      return (← extendWithBonus port call w tokenId durationSeconds minBonusOut).1
  | .extendWithBonusFor user tokenId durationSeconds minBonusOut =>
      return (← extendWithBonusFor port call w user tokenId durationSeconds minBonusOut).1
  | .mergeLocksWithBonus fromTokenId intoTokenId minBonusOut =>
      return (← mergeLocksWithBonus port call w fromTokenId intoTokenId minBonusOut).1
  | .mergeLocksWithBonusFor user fromTokenId intoTokenId minBonusOut =>
      return (← mergeLocksWithBonusFor port call w user fromTokenId intoTokenId minBonusOut).1
  | .claimAutoMaxBonus tokenId => return (← claimAutoMaxBonus port call w tokenId).1
  | .claimAutoMaxBonusBatch tokenIds maxLocks =>
      return (← claimAutoMaxBonusBatch port call w tokenIds maxLocks).1
  | .onERC721Received operator src tokenId =>
      onERC721Received call w call.sender operator src tokenId
  | .sellLockToFurnaceFromMarket seller tokenId minClaimOut =>
      return (← sellLockToFurnaceFromMarket port call w seller tokenId minClaimOut).1
  | .setShareholderRoyalties sr => setShareholderRoyalties call w sr
  | .setMineCore mineCore => setMineCore call w mineCore
  | .setMineMarket mineMarket => setMineMarket call w mineMarket
  | .setDelegationHub hub => setDelegationHub call w hub
  | .setEntryTokenRegistry mineCoreRegistry registry =>
      setEntryTokenRegistry call w mineCoreRegistry registry
  | .setFurnaceQuoter quoter => setFurnaceQuoter call w quoter
  | .setLpRewardsVault vault => setLpRewardsVault call w vault
  | .freezeConfig => freezeConfig call w
  | .setGuardian guardian => setGuardian call w guardian
  | .setLockingPaused paused => setLockingPaused call w paused
  | .rescuePendingSellNFT tokenId => rescuePendingSellNFT port call w tokenId
  | .requestEmergencyVaultRewire newVault => requestEmergencyVaultRewire call w newVault
  | .cancelEmergencyVaultRewire => cancelEmergencyVaultRewire call w
  | .executeEmergencyVaultRewire => executeEmergencyVaultRewire call w
  | .outside base => outside w base

/-- The Furnace from its deployment on. -/
def system (port : VeClaimNFT.IShareholderRoyalties S) : TransitionSystem (Timed (World S)) where
  init c := ∃ self owner base, self ≠ base.ve.self ∧ c.state = ⟨initial self owner c.now, base⟩
  step := (driven (fun _ ↦ True) (fun c : Call × Op S ↦ c.1.timestamp)
    (fun c w ↦ exec port c.1 w c.2)).step

/-- The runs of the Furnace whose calls are all allowed. -/
def systemOf (port : VeClaimNFT.IShareholderRoyalties S) (allowed : Op S → Prop) :
    TransitionSystem (Timed (World S)) where
  init := (system port).init
  step c c' := ∃ call op, allowed op ∧ c.now ≤ call.timestamp ∧
    exec port call c.state op = .ok c'.state ∧ c'.now = call.timestamp

theorem systemOf_reachable {port : VeClaimNFT.IShareholderRoyalties S} {allowed : Op S → Prop}
    {c : Timed (World S)} (hc : (systemOf port allowed).Reachable c) :
    (system port).Reachable c := by
  induction hc with
  | init h => exact .init h
  | step _ h ih =>
      obtain ⟨call, op, -, hle, hok, hnow⟩ := h
      exact ih.step ⟨(call, op), hle, hok, hnow⟩

theorem systemOf_run {port : VeClaimNFT.IShareholderRoyalties S} {allowed : Op S → Prop}
    {calls : List (Call × Op S)} {c : Timed (World S)} {w : World S}
    (hc : (systemOf port allowed).Reachable c)
    (hrun : runCalls (fun c w ↦ exec port c.1 w c.2) calls c.state = .ok w)
    (hallowed : ∀ call ∈ calls, allowed call.2)
    (hsorted : (c.now :: calls.map fun call ↦ call.1.timestamp).IsChain (· ≤ ·)) :
    (systemOf port allowed).Reachable
      ⟨(calls.map fun call ↦ call.1.timestamp).getLastD c.now, w⟩ := by
  induction calls generalizing c with
  | nil =>
      obtain rfl := Except.ok.inj hrun
      exact hc
  | cons call calls ih =>
      obtain ⟨w₁, hexec, hrest⟩ := bind_eq_ok_iff.mp hrun
      obtain ⟨hle, hsorted⟩ := List.isChain_cons_cons.mp hsorted
      obtain ⟨hcall, hcalls⟩ := List.forall_mem_cons.mp hallowed
      have hnext : (systemOf port allowed).Reachable ⟨call.1.timestamp, w₁⟩ :=
        hc.step ⟨call.1, call.2, hcall, hle, hexec, rfl⟩
      rw [List.map_cons, List.getLastD_cons]
      exact ih hnext hrest hcalls hsorted

/-! ## What a call does to the account -/

/-- CLAIM that a call counts on without receiving it itself. -/
def Op.brought : Op S → ℕ
  | .creditReserve amount => amount
  | _ => 0

/-- The call changes the vault. -/
def Op.Changes (op : Op S) : Prop := ∃ vault, op = .setLpRewardsVault vault

/-- The call empties the stream without paying it. -/
def Op.Resets (op : Op S) : Prop := op = .executeEmergencyVaultRewire

/-- A call is a sequence of moves, and may rewire the vault. -/
def Op.Effect (op : Op S) (now : ℕ) (a a' : Account) : Prop :=
  ∃ a₁, Moves now a a₁ ∧ Rewire now op.Changes op.Resets a₁ a'

theorem Op.Effect.of_moves {op : Op S} {now : ℕ} {a a' : Account} (h : Moves now a a') :
    op.Effect now a a' :=
  ⟨a', h, .keep⟩

theorem Swap.fixed_spec (swap : Swap S) : swap.fixed.Fixed := by
  intro b b' h
  have hmem := Option.mem_filter_iff.mp h
  simpa using hmem.2

variable (port : VeClaimNFT.IShareholderRoyalties S) (call : Call) (w : World S)

/-- What returns a world with more is judged by the world. -/
theorem first_moves {op : Op S} {α : Type} {x : Except Error (World S × α)} {a : Account}
    (h : Returns (fun r ↦ Moves call.timestamp a (r.1.account 0)) x) :
    Returns (fun w' ↦ op.Effect call.timestamp a (w'.account 0))
      (do return (← x).1) :=
  Outcome.bind h fun _ hr ↦ .of_moves hr

/-- Calls that change nothing of the account. -/
theorem unmoved {op : Op S} {x : Except Error (World S)}
    (h : Returns (fun w' ↦ w'.account 0 = w.account 0) x) :
    Returns (fun w' ↦ op.Effect call.timestamp (w.account 0) (w'.account 0)) x :=
  h.weaken fun _ heq ↦ .of_moves (heq ▸ .refl)

theorem mintToReserve_moves (amount : ℕ) :
    Returns (fun w' ↦ Moves call.timestamp (w.account 0) (w'.account 0))
      (mintToReserve call w amount) := by
  unfold mintToReserve
  refine Returns.seq fun claim hmint ↦ ?_
  have hbalance : w.claimBalance + amount ≤ claim.balanceOf w.furnace.self := by
    simp only [ClaimToken.mint, bind_eq_ok_iff, revertIf_eq_ok] at hmint
    obtain ⟨_, -, _, -, _, -, _, -, supply, -, hmint⟩ := hmint
    obtain rfl := Except.ok.inj hmint
    simp [World.claimBalance, World.claim]
  have hreceive := receive_moves w { w.base with claim := claim } call.timestamp 0 amount rfl
    hbalance
  exact (creditReserve_moves call _ 0 amount).weaken fun w' h ↦ hreceive.trans h

theorem outside_moves (base : VeClaimNFT.World S) :
    Returns (fun w' ↦ Moves call.timestamp (w.account 0) (w'.account 0)) (outside w base) := by
  unfold outside
  refine Returns.guard fun hlock ↦ Returns.guard fun hbalance ↦ ?_
  exact receive_moves w base call.timestamp 0 0 (not_not.mp hlock) (not_lt.mp hbalance)

theorem exec_effect (op : Op S) (hself : w.furnace.self ≠ w.ve.self) :
    Returns (fun w' ↦ op.Effect call.timestamp (w.account op.brought) (w'.account 0))
      (exec port call w op) := by
  unfold exec
  refine Returns.guard fun hsender ↦ ?_
  cases op with
  | tick => exact (tick_moves call w 0).weaken fun _ ↦ .of_moves
  | creditReserve amount =>
      have hcredit := creditReserve_moves call w 0 amount
      rw [Nat.zero_add] at hcredit
      exact hcredit.weaken fun _ ↦ .of_moves
  | mintToReserve amount => exact (mintToReserve_moves call w amount).weaken fun _ ↦ .of_moves
  | enterWithEth swap dst =>
      refine first_moves call (Returns.seq fun _ _ ↦ Returns.guard fun _ ↦ ?_)
      exact enterSwapped_moves port call w _ _ _ 0 swap.fixed_spec dst
  | enterWithClaim claimAmount dst =>
      refine first_moves call (Returns.seq fun _ _ ↦ Returns.guard fun _ ↦ ?_)
      exact enterClaim_moves port call w _ _ 0 dst hsender
  | enterWithClaimFor user claimAmount dst =>
      refine first_moves call (Returns.seq fun _ _ ↦ Returns.guard fun _ ↦ Returns.guard fun _ ↦ ?_)
      have henter := enterClaim_moves port call w user claimAmount 0 dst hsender
      dsimp only
      apply Returns.ite
      · exact fun _ ↦ Returns.seq fun _ _ ↦ henter
      intro _
      apply Returns.ite
      · exact fun _ ↦ Returns.seq fun _ _ ↦ henter
      intro _
      apply Returns.ite
      · exact fun _ ↦ Returns.seq fun _ _ ↦ henter
      · exact fun _ ↦ Returns.seq fun _ _ ↦ henter
  | enterWithToken tokenIn amountIn swap dst =>
      refine first_moves call (Returns.seq fun _ _ ↦ Returns.guard fun _ ↦ Returns.guard fun _ ↦ ?_)
      refine Returns.guard fun _ ↦ ?_
      exact enterSwapped_moves port call w _ _ _ 0 swap.fixed_spec dst
  | enterWithEthFor user swap dst =>
      refine first_moves call (Returns.seq fun _ _ ↦ Returns.guard fun _ ↦ Returns.seq fun _ _ ↦ ?_)
      refine Returns.guard fun _ ↦ ?_
      refine Outcome.bind (enterSwapped_moves port call w _ _ _ 0 swap.fixed_spec dst) ?_
      exact fun _ h ↦ h
  | enterWithClaimFromCallerFor user claimAmount dst =>
      refine first_moves call (Returns.seq fun _ _ ↦ Returns.guard fun _ ↦ Returns.guard fun _ ↦ ?_)
      refine Returns.seq fun _ _ ↦ ?_
      refine Outcome.bind (enterClaim_moves port call w _ _ 0 dst hsender) ?_
      exact fun _ h ↦ h
  | enterWithTokenFromCallerFor user tokenIn amountIn swap dst =>
      refine first_moves call (Returns.seq fun _ _ ↦ Returns.guard fun _ ↦ Returns.guard fun _ ↦ ?_)
      refine Returns.guard fun _ ↦ Returns.guard fun _ ↦ Returns.seq fun _ _ ↦ ?_
      refine Outcome.bind (enterSwapped_moves port call w _ _ _ 0 swap.fixed_spec dst) ?_
      exact fun _ h ↦ h
  | lockEthReward user ethAmount swap dst =>
      refine first_moves call (Returns.seq fun _ _ ↦ Returns.seq fun _ _ ↦ Returns.guard fun _ ↦ ?_)
      refine Returns.guard fun _ ↦ Returns.guard fun _ ↦ ?_
      exact enterSwapped_moves port call w _ _ _ 0 swap.fixed_spec dst
  | extendWithBonus tokenId durationSeconds minBonusOut =>
      refine first_moves call (Returns.seq fun _ _ ↦ ?_)
      exact extendBody_moves port call w _ _ _ _ 0
  | extendWithBonusFor user tokenId durationSeconds minBonusOut =>
      refine first_moves call (Returns.seq fun _ _ ↦ Returns.guard fun _ ↦ Returns.seq fun _ _ ↦ ?_)
      refine Outcome.bind (extendBody_moves port call w _ _ _ _ 0) ?_
      exact fun _ h ↦ h
  | mergeLocksWithBonus fromTokenId intoTokenId minBonusOut =>
      refine first_moves call (Returns.seq fun _ _ ↦ ?_)
      exact mergeBody_moves port call w _ _ _ _ 0
  | mergeLocksWithBonusFor user fromTokenId intoTokenId minBonusOut =>
      refine first_moves call (Returns.seq fun _ _ ↦ Returns.guard fun _ ↦ Returns.seq fun _ _ ↦ ?_)
      refine Outcome.bind (mergeBody_moves port call w _ _ _ _ 0) ?_
      exact fun _ h ↦ h
  | claimAutoMaxBonus tokenId => exact first_moves call (claimAutoMaxBonus_moves port call w _ 0)
  | claimAutoMaxBonusBatch tokenIds maxLocks =>
      exact first_moves call (claimAutoMaxBonusBatch_moves port call w _ _ 0)
  | onERC721Received operator src tokenId =>
      refine unmoved call w (Returns.guard fun _ ↦ Returns.guard fun _ ↦ Returns.guard fun _ ↦ ?_)
      refine Returns.seq fun _ _ ↦ Returns.guard fun _ ↦ Returns.guard fun _ ↦ ?_
      exact Returns.guard fun _ ↦ rfl
  | sellLockToFurnaceFromMarket seller tokenId minClaimOut =>
      exact first_moves call (sellLockToFurnaceFromMarket_moves port call w _ _ _ 0 hself)
  | setLpRewardsVault vault =>
      refine (setLpRewardsVault_moves call w vault).weaken ?_
      rintro w' ⟨a, hmoves, hrewire⟩
      exact ⟨a, hmoves, hrewire.mono (fun _ ↦ ⟨vault, rfl⟩) False.elim⟩
  | rescuePendingSellNFT tokenId =>
      exact (rescuePendingSellNFT_moves port call w tokenId 0 hself).weaken fun _ ↦ .of_moves
  | executeEmergencyVaultRewire =>
      exact (executeEmergencyVaultRewire_moves call w).weaken fun _ h ↦
        ⟨_, .refl, h.mono False.elim fun _ ↦ rfl⟩
  | outside base => exact (outside_moves call w base).weaken fun _ ↦ .of_moves
  | setShareholderRoyalties sr =>
      refine unmoved call w (Returns.seq fun _ _ ↦ Returns.seq fun _ _ ↦ Returns.guard fun _ ↦ ?_)
      exact Returns.guard fun _ ↦ rfl
  | setMineCore mineCore =>
      refine unmoved call w (Returns.seq fun _ _ ↦ Returns.seq fun _ _ ↦ Returns.guard fun _ ↦ ?_)
      dsimp only
      split
      · refine Returns.seq fun _ _ ↦ Returns.guard fun _ ↦ ?_
        split <;> rfl
      · refine Returns.seq fun _ _ ↦ Returns.guard fun _ ↦ ?_
        split <;> rfl
  | setMineMarket mineMarket =>
      exact unmoved call w (Returns.seq fun _ _ ↦ Returns.seq fun _ _ ↦ rfl)
  | setDelegationHub hub =>
      refine unmoved call w (Returns.seq fun _ _ ↦ Returns.guard fun _ ↦ Returns.guard fun _ ↦ ?_)
      exact Returns.seq fun _ _ ↦ rfl
  | setEntryTokenRegistry mineCoreRegistry registry =>
      refine unmoved call w (Returns.seq fun _ _ ↦ Returns.seq fun _ _ ↦ ?_)
      exact Returns.guard fun _ ↦ rfl
  | setFurnaceQuoter quoter =>
      refine unmoved call w (Returns.seq fun _ _ ↦ Returns.seq fun _ _ ↦ ?_)
      exact Returns.guard fun _ ↦ rfl
  | freezeConfig =>
      refine unmoved call w (Returns.seq fun _ _ ↦ Returns.guard fun _ ↦ Returns.seq fun _ _ ↦ ?_)
      refine Returns.guard fun _ ↦ Returns.seq fun _ _ ↦ Returns.guard fun _ ↦ ?_
      refine Returns.ite (fun _ ↦ Returns.seq fun _ _ ↦ rfl) fun _ ↦ rfl
  | setGuardian guardian =>
      refine unmoved call w (Returns.guard fun _ ↦ Returns.guard fun _ ↦ Returns.guard fun _ ↦ ?_)
      exact Returns.guard fun _ ↦ rfl
  | setLockingPaused paused =>
      refine unmoved call w (Returns.guard fun _ ↦ ?_)
      exact Returns.ite (fun _ ↦ rfl) fun _ ↦ rfl
  | requestEmergencyVaultRewire newVault =>
      refine unmoved call w (Returns.seq fun _ _ ↦ Returns.guard fun _ ↦ Returns.guard fun _ ↦ ?_)
      refine Returns.guard fun _ ↦ Returns.seq fun _ _ ↦ Returns.guard fun _ ↦ ?_
      exact Returns.seq fun _ _ ↦ Returns.seq fun _ _ ↦ rfl
  | cancelEmergencyVaultRewire =>
      exact unmoved call w (Returns.seq fun _ _ ↦ Returns.guard fun _ ↦ rfl)

/-! ## What holds in every run -/

variable {port}

/-- The stream keeps its shape, and the Furnace is not the lock contract. -/
structure Sound (now : ℕ) (w : World S) : Prop where
  shaped : (w.account 0).Shaped now
  distinct : w.furnace.self ≠ w.ve.self

theorem Sound.effect {op : Op S} {now : ℕ} {w w' : World S} {k : ℕ} (h : Sound now w)
    (heffect : op.Effect now (w.account k) (w'.account 0)) : Sound now w' := by
  obtain ⟨a, hmoves, hrewire⟩ := heffect
  obtain ⟨hself, hlock, -⟩ := hmoves.fixed
  obtain ⟨hself', hlock'⟩ := hrewire.fixed
  have hshaped : (w.account k).Shaped now :=
    ⟨h.shaped.last_le, h.shaped.open_lt, h.shaped.carry_lt, h.shaped.scheduled_lt, h.shaped.unset⟩
  refine ⟨hrewire.shaped (hmoves.shaped hshaped), fun heq ↦ h.distinct ?_⟩
  exact (hself'.trans hself).symm.trans (heq.trans (hlock'.trans hlock))

theorem sound_initial {self owner now : ℕ} {base : VeClaimNFT.World S} (h : self ≠ base.ve.self) :
    Sound now ⟨initial self owner now, base⟩ := by
  refine ⟨⟨le_rfl, fun hrate ↦ absurd rfl hrate, LP_STREAM_WINDOW_pos, ?_, fun _ ↦ ?_⟩, h⟩
  · simp only [World.account, initial, LinearStream.scheduled, Nat.mul_zero]
    exact uint256Bound_pos
  · simp [World.account, initial, LinearStream.liability, LinearStream.scheduled]

theorem reachable_sound {c : Timed (World S)} (hc : (system port).Reachable c) :
    Sound c.now c.state := by
  refine hc.invariant (I := fun c ↦ Sound c.now c.state) ?_ ?_
  · rintro ⟨now, w⟩ ⟨self, owner, base, hne, heq⟩
    change w = ⟨initial self owner now, base⟩ at heq
    rw [heq]
    exact sound_initial hne
  · rintro ⟨now, w⟩ ⟨now', w'⟩ - hs ⟨⟨call, op⟩, hle, hok, rfl⟩
    have hlater : Sound call.timestamp w := ⟨hs.shaped.later hle, hs.distinct⟩
    exact hlater.effect ((exec_effect port call w op hs.distinct).of_ok hok)

end ClaimRush.Furnace
