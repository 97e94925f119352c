import ClaimRush.MineCore.System

/-!
# What a takeover mints

The settlement of a reign mints its CLAIM to the king stream and nothing else of
the game moves.  A takeover mines from the accrual cursor on, for the previous
king and for the Furnace, and replaces the reign.
-/

open Function

namespace ClaimRush.MineCore

open Constants

variable {S : Type} (port : VeClaimNFT.IShareholderRoyalties S) (call : Call) (w : World S)

/-- `k` wei of CLAIM are minted to the king stream and `f` to the Furnace; the
game goes on as before. -/
structure Mints (k f : ℕ) (s s' : CoreState) : Prop where
  game : s'.game = s.game
  window : s'.window = s.window
  genesis : s'.genesis = s.genesis
  reigns : s'.reigns = s.reigns
  wiring : s'.wiring = s.wiring
  kingMinted : s'.ghost.kingMinted = s.ghost.kingMinted + k
  furnaceMinted : s'.ghost.furnaceMinted = s.ghost.furnaceMinted + f

/-- Nothing is minted. -/
abbrev Quiet (s s' : CoreState) : Prop := Mints 0 0 s s'

namespace Mints

variable {k f k' f' : ℕ} {s s' s'' : CoreState}

theorem quiet (hgame : s'.game = s.game) (hwindow : s'.window = s.window)
    (hgenesis : s'.genesis = s.genesis) (hreigns : s'.reigns = s.reigns)
    (hwiring : s'.wiring = s.wiring) (hking : s'.ghost.kingMinted = s.ghost.kingMinted)
    (hfurnace : s'.ghost.furnaceMinted = s.ghost.furnaceMinted) : Quiet s s' :=
  ⟨hgame, hwindow, hgenesis, hreigns, hwiring, hking, hfurnace⟩

theorem refl (s : CoreState) : Quiet s s := quiet rfl rfl rfl rfl rfl rfl rfl

theorem trans (h : Mints k f s s') (h' : Mints k' f' s' s'') : Mints (k + k') (f + f') s s'' := by
  refine ⟨h'.game.trans h.game, h'.window.trans h.window, h'.genesis.trans h.genesis,
    h'.reigns.trans h.reigns, h'.wiring.trans h.wiring, ?_, ?_⟩
  · rw [h'.kingMinted, h.kingMinted, Nat.add_assoc]
  · rw [h'.furnaceMinted, h.furnaceMinted, Nat.add_assoc]

theorem after (h : Mints k f s s') (h' : Quiet s' s'') : Mints k f s s'' := h.trans h'

theorem before (h' : Mints k f s' s'') (h : Quiet s s') : Mints k f s s'' := by
  have := h.trans h'
  rwa [Nat.zero_add, Nat.zero_add] at this

theorem emit (h : Mints k f s s') (e : Event) : Mints k f s (s'.emit e) :=
  h.after (quiet rfl rfl rfl rfl rfl rfl rfl)

end Mints

/-! ## Settlement -/

theorem mintKingClaim_mints (dst : Address) (amount : ℕ) :
    Returns (fun w' : World S ↦ Mints amount 0 w.core w'.core) (mintKingClaim w dst amount) := by
  unfold mintKingClaim
  exact Returns.seq fun claim _ ↦ ⟨rfl, rfl, rfl, rfl, rfl, rfl, rfl⟩

theorem creditKingClaim_quiet (recipient : Address) (amount : ℕ) :
    Returns (fun w' : World S ↦ Quiet w.core w'.core) (creditKingClaim w recipient amount) := by
  unfold creditKingClaim
  refine Returns.seq fun pending _ ↦ Returns.seq fun total _ ↦ ?_
  exact .quiet rfl rfl rfl rfl rfl rfl rfl

theorem pin_quiet (recipient : Address) (tokenId : ℕ) :
    Quiet w.core (pin w recipient tokenId).core := .quiet rfl rfl rfl rfl rfl rfl rfl

theorem ite_pin_quiet (c : Prop) [Decidable c] (recipient : Address) (tokenId : ℕ) :
    Quiet w.core (if c then pin w recipient tokenId else w).core := by
  split_ifs
  · exact pin_quiet w recipient tokenId
  · exact .refl _

theorem entryLocked_quiet (recipient : Address) (amount : ℕ) (destination : AutoLockDestination)
    (f : Furnace.World S) (tokenId : ℕ) :
    Quiet w.core (entryLocked w recipient amount destination f tokenId).core := by
  unfold entryLocked
  refine Mints.before (ite_pin_quiet _ _ _ _) ?_
  exact .quiet rfl rfl rfl rfl rfl rfl rfl

theorem entryFailed_quiet (recipient : Address) (destination : AutoLockDestination) :
    Quiet w.core (entryFailed w recipient destination).core :=
  ite_pin_quiet w _ _ _

theorem routeClaimToLock_quiet (gas : RouteGas) (recipient : Address) (amount : ℕ) :
    Quiet w.core (routeClaimToLock port call w gas recipient amount).1.core := by
  unfold routeClaimToLock
  dsimp only
  generalize hchosen : (if (chooseDestination call w recipient).2 = true then pin w recipient 0
    else w) = chosen
  have hquiet : Quiet w.core chosen.core := hchosen ▸ ite_pin_quiet w _ _ _
  split
  · exact .refl _
  split
  · exact .refl _
  split
  · exact hquiet
  split
  · exact hquiet.trans (entryLocked_quiet chosen _ _ _ _ _)
  · exact hquiet.trans (entryFailed_quiet chosen _ _)

theorem settleLockedSlice_mints (gas : SettleGas) (reignId : ℕ) (recipient : Address)
    (lockAmount : ℕ) :
    Returns (fun w' ↦ Mints lockAmount 0 w.core w'.core)
      (settleLockedSlice port call w gas reignId recipient lockAmount) := by
  unfold settleLockedSlice
  refine Returns.ite (fun _ ↦ ?_) fun _ ↦ ?_
  · refine Outcome.bind (R := fun w' : World S ↦ Mints lockAmount 0 w.core w'.core)
      (Outcome.bind (mintKingClaim_mints w _ _) fun w₁ h₁ ↦
        (creditKingClaim_quiet w₁ _ _).weaken fun w₂ h₂ ↦ h₁.after h₂) ?_
    exact fun w₃ h₃ ↦ h₃.emit _
  · refine Outcome.bind (mintKingClaim_mints w _ _) fun w₁ h₁ ↦ ?_
    have hrouted := routeClaimToLock_quiet port call w₁ gas.toRouteGas recipient lockAmount
    dsimp only
    split
    · exact (h₁.after hrouted).emit _
    · refine Outcome.bind (creditKingClaim_quiet _ _ _) fun w₂ h₂ ↦ ?_
      exact ((h₁.after hrouted).after h₂).emit _

/-- The clamp of the liquid share. -/
theorem kingLiquidBps_le (t : TakeoverWindow) (king : Address) :
    t.kingLiquidBps king ≤ KING_LIQUID_SHARE_MAX_BPS := by
  unfold TakeoverWindow.kingLiquidBps
  dsimp only
  split_ifs with hzero hcap
  · exact Nat.zero_le _
  · exact le_rfl
  · exact not_lt.mp hcap

theorem settlePrevKingClaim_mints (gas : SettleGas) (reignId : ℕ) (king recipient : Address)
    (claimAmount : ℕ) :
    Returns (fun w' ↦ Mints claimAmount 0 w.core w'.core)
      (settlePrevKingClaim port call w gas reignId king recipient claimAmount) := by
  unfold settlePrevKingClaim
  refine Returns.ite (fun hzero ↦ ?_) fun _ ↦ ?_
  · rw [hzero]
    exact .refl _
  refine Returns.seq fun product hproduct ↦ ?_
  obtain ⟨-, rfl⟩ := uint256_eq_ok.mp hproduct
  have hbps : w.core.window.kingLiquidBps king ≤ 10000 :=
    (kingLiquidBps_le _ _).trans (by simp [KING_LIQUID_SHARE_MAX_BPS])
  have hle : claimAmount * w.core.window.kingLiquidBps king / 10000 ≤ claimAmount := by
    refine Nat.div_le_of_le_mul ?_
    rw [Nat.mul_comm]
    exact Nat.mul_le_mul_right _ hbps
  dsimp only
  generalize claimAmount * w.core.window.kingLiquidBps king / 10000 = liquid at hle ⊢
  have hpaid : Returns (fun w' : World S ↦ Mints liquid 0 w.core w'.core)
      (payLiquidSlice w reignId recipient liquid (w.core.window.kingLiquidBps king)) := by
    unfold payLiquidSlice
    refine Returns.ite (fun _ ↦ ?_) fun hzero ↦ ?_
    · exact Outcome.bind (mintKingClaim_mints w _ _) fun w₁ h₁ ↦ h₁.emit _
    · rw [not_not.mp hzero]
      exact .refl _
  refine Outcome.bind hpaid fun w₁ h₁ ↦ Returns.ite (fun hzero ↦ ?_) fun _ ↦ ?_
  · obtain rfl : liquid = claimAmount := by omega
    exact h₁
  · refine (settleLockedSlice_mints port call w₁ gas _ _ _).weaken fun w₂ h₂ ↦ ?_
    have hboth := h₁.trans h₂
    rwa [Nat.add_sub_cancel' hle, Nat.zero_add] at hboth

/-! ## ETH -/

theorem sendEth_quiet (dst : Address) (value : ℕ) (accepted : Bool) :
    Quiet w.core (sendEth w dst value accepted).1.core := by
  unfold sendEth
  split_ifs
  · exact .refl _
  · exact .quiet rfl rfl rfl rfl rfl rfl rfl
  · exact .refl _

theorem payKing_quiet (recipient : Address) (share : ℕ) (accepted : Bool) :
    Returns (fun w' : World S ↦ Quiet w.core w'.core) (payKing w recipient share accepted) := by
  have hsent := sendEth_quiet w recipient share accepted
  unfold payKing
  split
  case h_1 w₁ heq =>
    rw [heq] at hsent
    exact hsent.emit _
  case h_2 w₁ heq =>
    rw [heq] at hsent
    refine Returns.seq fun owed _ ↦ Returns.seq fun total _ ↦ ?_
    exact hsent.after (.quiet rfl rfl rfl rfl rfl rfl rfl)

theorem tryRoyaltiesTakeover_quiet (reply : RoyaltiesReply) (reignId amountEth : ℕ) :
    Returns (fun w' : World S ↦ Quiet w.core w'.core)
      (tryRoyaltiesTakeover w reply reignId amountEth) := by
  have hsent := sendEth_quiet w w.core.wiring.royalties amountEth reply.accepted
  unfold tryRoyaltiesTakeover
  refine Returns.ite (fun _ ↦ .refl _) fun _ ↦ ?_
  split
  case h_1 w₁ heq =>
    rw [heq] at hsent
    by_cases hflushed : reply.flushed = true
    · rw [if_pos hflushed]
      exact hsent
    · rw [if_neg hflushed]
      exact hsent.emit _
  case h_2 w₁ heq =>
    rw [heq] at hsent
    refine Returns.seq fun pending _ ↦ ?_
    exact hsent.after (.quiet rfl rfl rfl rfl rfl rfl rfl)

theorem hybridRefund_quiet (dst : Address) (amount : ℕ) (accepted : Bool) :
    Returns (fun w' : World S ↦ Quiet w.core w'.core) (hybridRefund w dst amount accepted) := by
  unfold hybridRefund
  refine Returns.ite (fun _ ↦ .refl _) fun _ ↦ ?_
  refine Returns.seq fun owed _ ↦ Returns.seq fun total _ ↦ ?_
  have hcredited : Quiet w.core
      { w.core with buckets := { w.core.buckets with
          refundEthBalance := update w.core.buckets.refundEthBalance dst owed
          totalRefundEthOwed := total } } := .quiet rfl rfl rfl rfl rfl rfl rfl
  dsimp only
  generalize hcore : ({ w.core with buckets := { w.core.buckets with
    refundEthBalance := update w.core.buckets.refundEthBalance dst owed
    totalRefundEthOwed := total } } : CoreState) = core at hcredited ⊢
  have hsent := hcredited.trans (sendEth_quiet { w with core := core } dst amount accepted)
  split
  case h_1 w₁ heq =>
    rw [heq] at hsent
    exact hsent.after (.quiet rfl rfl rfl rfl rfl rfl rfl)
  case h_2 w₁ heq =>
    rw [heq] at hsent
    exact hsent.emit _

/-! ## The takeover -/

/-- A checkpoint of the lock contract touches nothing else. -/
theorem checkpointVe_core :
    Returns (fun w' : World S ↦ w'.core = w.core ∧ w'.balance = w.balance ∧ w'.claim = w.claim)
      (checkpointVe call w) := by
  unfold checkpointVe
  refine Returns.seq fun base hbase ↦ ?_
  obtain ⟨ve, -, hbase⟩ := bind_eq_ok_iff.mp hbase
  obtain rfl := Except.ok.inj hbase
  exact ⟨rfl, rfl, rfl⟩

theorem checkpointVeLoop_core (rounds : ℕ) :
    Returns (fun w' : World S ↦ w'.core = w.core ∧ w'.balance = w.balance ∧ w'.claim = w.claim)
      (checkpointVeLoop call rounds w) := by
  induction rounds generalizing w with
  | zero => exact ⟨rfl, rfl, rfl⟩
  | succ rounds ih =>
      unfold checkpointVeLoop
      refine Returns.ite (fun _ ↦ ⟨rfl, rfl, rfl⟩) fun _ ↦ ?_
      refine Outcome.bind (checkpointVe_core call w) fun w₁ h₁ ↦ Returns.ite (fun _ ↦ h₁) fun _ ↦ ?_
      refine (ih w₁).weaken fun w₂ h₂ ↦ ?_
      exact ⟨h₂.1.trans h₁.1, h₂.2.1.trans h₁.2.1, h₂.2.2.trans h₁.2.2⟩

theorem mintFurnaceClaim_mints (furnaceMined : ℕ) :
    Returns (fun w' : World S ↦ Mints 0 furnaceMined w.core w'.core ∧ w'.balance = w.balance)
      (mintFurnaceClaim call w furnaceMined) := by
  unfold mintFurnaceClaim
  refine Returns.ite (fun _ ↦ ?_) fun hzero ↦ ?_
  · refine Returns.seq fun claim _ ↦ ?_
    dsimp only
    split
    · exact ⟨⟨rfl, rfl, rfl, rfl, rfl, rfl, rfl⟩, rfl⟩
    · trivial
  · rw [not_not.mp hzero]
    exact ⟨.refl _, rfl⟩

/-- The accrual of a takeover. -/
theorem accrueEmissions_mints :
    Returns (fun r : World S × ℕ ↦ ∃ f,
        furnaceEmitted w.core.genesis.emissionStartTime w.core.game.currentReignLastAccrualTime
          call.timestamp = .ok f ∧
        (w.core.game.currentKing ≠ 0 → kingEmitted w.core.genesis.emissionStartTime
          w.core.game.currentReignLastAccrualTime call.timestamp = .ok r.2) ∧
        (w.core.game.currentKing = 0 → r.2 = 0) ∧
        Mints 0 f w.core r.1.core ∧ r.1.balance = w.balance) (accrueEmissions call w) := by
  unfold accrueEmissions
  refine Returns.guard fun _ ↦ Returns.guard fun _ ↦ ?_
  by_cases hking : w.core.game.currentKing ≠ 0
  · rw [if_pos hking]
    refine Returns.seq fun mined hmined ↦ Returns.seq fun f hf ↦ ?_
    refine Outcome.bind (mintFurnaceClaim_mints call w f) fun w₁ h₁ ↦ ?_
    exact ⟨f, hf, fun _ ↦ hmined, fun hzero ↦ absurd hzero hking, h₁⟩
  · rw [if_neg hking]
    refine Returns.seq fun mined hmined ↦ Returns.seq fun f hf ↦ ?_
    obtain rfl := Except.ok.inj hmined
    refine Outcome.bind (mintFurnaceClaim_mints call w f) fun w₁ h₁ ↦ ?_
    exact ⟨f, hf, fun hne ↦ absurd hne hking, fun _ ↦ rfl, h₁⟩

/-- The records of a finalized reign. -/
def Reigns.finalized (r : Reigns) (reignId nowTs totalVe claimMined share : ℕ) : Reigns :=
  { r with
    totalVeForReign := update r.totalVeForReign reignId totalVe
    reignInfo := update r.reignInfo reignId { r.reignInfo reignId with
      endTime := nowTs, totalClaimMined := claimMined, totalEthToKing := share } }

theorem finalizeReign_mints (r : TakeoverReplies) (reignId : ℕ) (king : Address)
    (pricePaid claimMined : ℕ) :
    Returns (fun w' : World S ↦ ∃ totalVe share, Mints claimMined 0
        { w.core with
          reigns := w.core.reigns.finalized reignId call.timestamp totalVe claimMined share }
        w'.core) (finalizeReign port call w r reignId king pricePaid claimMined) := by
  unfold finalizeReign
  refine Returns.seq fun share _ ↦ Returns.seq fun rest _ ↦ ?_
  refine Outcome.bind (payKing_quiet _ _ _ _) fun w₁ h₁ ↦ ?_
  refine Outcome.bind (tryRoyaltiesTakeover_quiet w₁ _ _ _) fun w₂ h₂ ↦ ?_
  refine (settlePrevKingClaim_mints port call _ _ _ _ _ _).weaken fun w₃ h₃ ↦ ?_
  exact ⟨w.ve.global.totalVeCached, share, Mints.before h₃ ((h₁.trans h₂).emit _)⟩

/-- The reign that a takeover starts. -/
def Game.taken (g : Game) (nowTs : ℕ) (newKing : Address) (pricePaid : ℕ) : Game :=
  { g with
    currentReignId := g.currentReignId + 1
    currentKing := newKing
    currentReignStartTime := nowTs
    currentReignLastAccrualTime := nowTs
    referencePrice := newReferencePrice pricePaid }

/-- What starting a reign writes. -/
structure Started (n : NewReign) (pricePaid : ℕ) (s s' : CoreState) : Prop where
  game : s'.game = s.game.taken call.timestamp n.king pricePaid
  window : s'.window = s.window.recordTakeover n.king
  genesis : s'.genesis = s.genesis
  wiring : s'.wiring = s.wiring
  reignInfo : ∀ id, id ≠ s.game.currentReignId + 1 → s'.reigns.reignInfo id = s.reigns.reignInfo id
  kingMinted : s'.ghost.kingMinted = s.ghost.kingMinted
  furnaceMinted : s'.ghost.furnaceMinted = s.ghost.furnaceMinted

theorem startReign_started (n : NewReign) (pricePaid : ℕ) :
    Returns (fun w' : World S ↦ Started call n pricePaid w.core w'.core ∧ w'.balance = w.balance)
      (startReign call w n pricePaid) := by
  unfold startReign
  refine Returns.seq fun newReignId hnew ↦ ?_
  obtain ⟨-, rfl⟩ := uint256_eq_ok.mp hnew
  have hinfo : ∀ id, id ≠ w.core.game.currentReignId + 1 →
      update w.core.reigns.reignInfo (w.core.game.currentReignId + 1)
        { king := n.king, startTime := call.timestamp, endTime := 0, pricePaid := pricePaid
          referencePrice := newReferencePrice pricePaid, totalClaimMined := 0
          totalEthToKing := 0 } id = w.core.reigns.reignInfo id :=
    fun id hid ↦ update_of_ne hid _ _
  dsimp only
  by_cases hself : n.king ≠ n.refundTo
  · rw [if_pos hself]
    exact ⟨⟨rfl, rfl, rfl, rfl, hinfo, rfl, rfl⟩, rfl⟩
  · rw [if_neg hself]
    exact ⟨⟨rfl, rfl, rfl, rfl, hinfo, rfl, rfl⟩, rfl⟩

/-- A takeover: `k` wei are mined for the previous king and `f` for the Furnace,
from the accrual cursor on. -/
structure TakenOver (newKing : Address) (pricePaid k f : ℕ) (s s' : CoreState) : Prop where
  king_ne : newKing ≠ 0
  kingMined : s.game.currentKing ≠ 0 → kingEmitted s.genesis.emissionStartTime
    s.game.currentReignLastAccrualTime call.timestamp = .ok k
  unmined : s.game.currentKing = 0 → k = 0
  furnaceMined : furnaceEmitted s.genesis.emissionStartTime s.game.currentReignLastAccrualTime
    call.timestamp = .ok f
  game : s'.game = s.game.taken call.timestamp newKing pricePaid
  window : s'.window = s.window.recordTakeover newKing
  genesis : s'.genesis = s.genesis
  finalized : s.game.currentKing ≠ 0 →
    (s'.reigns.reignInfo s.game.currentReignId).totalClaimMined = k ∧
    (s'.reigns.reignInfo s.game.currentReignId).endTime = call.timestamp
  kingMinted : s'.ghost.kingMinted = s.ghost.kingMinted + k
  furnaceMinted : s'.ghost.furnaceMinted = s.ghost.furnaceMinted + f

theorem executeTakeover_takenOver (r : TakeoverReplies) (creditedEth pricePaid : ℕ) (n : NewReign) :
    Returns (fun w' : World S ↦ ∃ k f, TakenOver call n.king pricePaid k f w.core w'.core)
      (executeTakeover port call w r creditedEth pricePaid n) := by
  unfold executeTakeover
  refine Returns.seq fun _ _ ↦ Returns.seq fun _ _ ↦ Returns.seq fun _ _ ↦ Returns.seq fun _ _ ↦ ?_
  refine Returns.guard fun hzero ↦ Returns.guard fun _ ↦ Returns.guard fun _ ↦ ?_
  have hnew : n.king ≠ 0 := fun h ↦ hzero (.inl h)
  refine Outcome.bind (checkpointVeLoop_core call w _) fun w₁ h₁ ↦ ?_
  refine Returns.seq fun _ _ ↦ Returns.guard fun _ ↦ ?_
  refine Outcome.bind (accrueEmissions_mints call w₁) ?_
  rintro ⟨w₂, k⟩ ⟨f, hf, hk, hnone, h₂, -⟩
  rw [h₁.1] at hf hk hnone h₂
  dsimp only
  by_cases hking : w.core.game.currentKing ≠ 0
  · rw [if_pos hking]
    refine Outcome.bind (finalizeReign_mints port call w₂ r _ _ _ _) ?_
    rintro w₃ ⟨totalVe, share, h₃⟩
    refine Outcome.bind (startReign_started call w₃ n pricePaid) ?_
    rintro w₄ ⟨h₄, -⟩
    refine (hybridRefund_quiet w₄ _ _ _).weaken fun w₅ h₅ ↦ ?_
    have hgame : w₃.core.game = w.core.game := h₃.game.trans h₂.game
    have hinfo : w₅.core.reigns.reignInfo w.core.game.currentReignId =
        { w₂.core.reigns.reignInfo w.core.game.currentReignId with
          endTime := call.timestamp, totalClaimMined := k, totalEthToKing := share } := by
      rw [h₅.reigns, h₄.reignInfo _ (by rw [hgame]; omega), h₃.reigns]
      exact update_self ..
    refine ⟨k, f, hnew, hk, hnone, hf, ?_, ?_, ?_, fun _ ↦ ?_, ?_, ?_⟩
    · rw [h₅.game, h₄.game, hgame]
    · rw [h₅.window, h₄.window, h₃.window, h₂.window]
    · rw [h₅.genesis, h₄.genesis, h₃.genesis, h₂.genesis]
    · rw [hinfo]
      exact ⟨rfl, rfl⟩
    · rw [h₅.kingMinted, h₄.kingMinted, h₃.kingMinted, h₂.kingMinted]
      rfl
    · rw [h₅.furnaceMinted, h₄.furnaceMinted, h₃.furnaceMinted, h₂.furnaceMinted]
      rfl
  · rw [if_neg hking]
    refine Outcome.bind (tryRoyaltiesTakeover_quiet w₂ _ _ _) fun w₃ h₃ ↦ ?_
    refine Outcome.bind (startReign_started call w₃ n pricePaid) ?_
    rintro w₄ ⟨h₄, -⟩
    refine (hybridRefund_quiet w₄ _ _ _).weaken fun w₅ h₅ ↦ ?_
    have hking := not_not.mp hking
    obtain rfl := hnone hking
    have hgame : w₃.core.game = w.core.game := h₃.game.trans h₂.game
    refine ⟨0, f, hnew, hk, hnone, hf, ?_, ?_, ?_, fun hne ↦ absurd hking hne, ?_, ?_⟩
    · rw [h₅.game, h₄.game, hgame]
    · rw [h₅.window, h₄.window, h₃.window, h₂.window]
    · rw [h₅.genesis, h₄.genesis, h₃.genesis, h₂.genesis]
    · rw [h₅.kingMinted, h₄.kingMinted, h₃.kingMinted, h₂.kingMinted]
    · rw [h₅.furnaceMinted, h₄.furnaceMinted, h₃.furnaceMinted, h₂.furnaceMinted]
      rfl

end ClaimRush.MineCore
