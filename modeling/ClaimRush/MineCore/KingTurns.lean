import ClaimRush.MineCore.KingBooks

/-!
# What a call does to the king stream

A takeover settles the reign that it ends, a withdrawal locks a credit, a rescue
takes the surplus, and every other call spares the king stream.
-/

open Function

namespace ClaimRush.MineCore

open Constants

variable {S : Type} (port : VeClaimNFT.IShareholderRoyalties S) (call : Call) (w : World S)

/-! ## ETH -/

theorem sendEth_spared (dst : Address) (value : ℕ) (accepted : Bool) :
    Spared w (sendEth w dst value accepted).1 := by
  unfold sendEth
  split_ifs
  · exact .refl w
  · exact .of_core rfl rfl rfl rfl
  · exact .refl w

theorem payKing_spared (recipient : Address) (share : ℕ) (accepted : Bool) :
    Returns (Spared w) (payKing w recipient share accepted) := by
  have hsent := sendEth_spared w recipient share accepted
  unfold payKing
  split
  case h_1 w₁ heq =>
    rw [heq] at hsent
    exact hsent.emit _ rfl rfl
  case h_2 w₁ heq =>
    rw [heq] at hsent
    refine Returns.seq fun owed _ ↦ Returns.seq fun total _ ↦ ?_
    exact hsent.trans (.of_core rfl (emit_kingBooks _ (.KingEthCredited _ _) rfl rfl) rfl rfl)

theorem tryRoyaltiesTakeover_spared (reply : RoyaltiesReply) (reignId amountEth : ℕ) :
    Returns (Spared w) (tryRoyaltiesTakeover w reply reignId amountEth) := by
  have hsent := sendEth_spared w w.core.wiring.royalties amountEth reply.accepted
  unfold tryRoyaltiesTakeover
  refine Returns.ite (fun _ ↦ .refl w) fun _ ↦ ?_
  split
  case h_1 w₁ heq =>
    rw [heq] at hsent
    by_cases hflushed : reply.flushed = true
    · rw [if_pos hflushed]
      exact hsent
    · rw [if_neg hflushed]
      exact hsent.emit _ rfl rfl
  case h_2 w₁ heq =>
    rw [heq] at hsent
    refine Returns.seq fun pending _ ↦ hsent.trans (.of_core rfl ?_ rfl rfl)
    exact emit_kingBooks _ (.ShareholderRoyaltiesTakeoverFailed _ _) rfl rfl

theorem hybridRefund_spared (dst : Address) (amount : ℕ) (accepted : Bool) :
    Returns (Spared w) (hybridRefund w dst amount accepted) := by
  unfold hybridRefund
  refine Returns.ite (fun _ ↦ .refl w) fun _ ↦ ?_
  refine Returns.seq fun owed _ ↦ Returns.seq fun total _ ↦ ?_
  dsimp only
  generalize hcore : ({ w.core with buckets := { w.core.buckets with
    refundEthBalance := update w.core.buckets.refundEthBalance dst owed
    totalRefundEthOwed := total } } : CoreState) = core
  have hcredited : Spared w { w with core := core } := by
    subst hcore
    exact .of_core rfl rfl rfl rfl
  have hsent := hcredited.trans (sendEth_spared { w with core := core } dst amount accepted)
  split
  case h_1 w₁ heq =>
    rw [heq] at hsent
    exact hsent.trans (.of_core rfl rfl rfl rfl)
  case h_2 w₁ heq =>
    rw [heq] at hsent
    exact hsent.emit _ rfl rfl

/-! ## Takeovers -/

theorem checkpointVeLoop_spared (rounds : ℕ) :
    Returns (Spared w) (checkpointVeLoop call rounds w) := by
  induction rounds generalizing w with
  | zero => exact .refl w
  | succ rounds ih =>
      unfold checkpointVeLoop
      refine Returns.ite (fun _ ↦ .refl w) fun _ ↦ Returns.seq fun w₁ hchecked ↦ ?_
      have h₁ : Spared w w₁ := by
        obtain ⟨base, hbase, hchecked⟩ := bind_eq_ok_iff.mp hchecked
        obtain rfl := Except.ok.inj hchecked
        obtain ⟨ve, hve, hbase⟩ := bind_eq_ok_iff.mp hbase
        obtain rfl := Except.ok.inj hbase
        have hfollows := Returns.iff_forall.mp
          (VeClaimNFT.checkpointGlobal_follows w.furnace.base.ve (call.byCore w.core).timestamp)
          ve hve
        have hlock := hfollows.keeps VeClaimNFT.VeState.self fun _ _ ↦ rfl
        exact ⟨⟨⟨rfl, rfl, rfl, rfl, hlock⟩, rfl, hfollows, .refl _, .none rfl⟩, rfl⟩
      exact Returns.ite (fun _ ↦ h₁) fun _ ↦ (ih w₁).weaken fun w₂ h₂ ↦ h₁.trans h₂

theorem mintFurnaceClaim_spared (hne : w.core.wiring.self ≠ w.furnace.furnace.self)
    (furnaceMined : ℕ) : Returns (Spared w) (mintFurnaceClaim call w furnaceMined) := by
  unfold mintFurnaceClaim
  refine Returns.ite (fun _ ↦ ?_) fun _ ↦ .refl w
  refine Returns.seq fun claim hclaim ↦ ?_
  have hminted := ClaimToken.mint_spares w.core.wiring.self hclaim
  dsimp only
  split
  case h_1 f hf =>
    have hcredited := Returns.iff_forall.mp (Furnace.creditReserve_spared (call.byCore w.core)
      (w.withClaim claim).furnace hne furnaceMined) f hf
    have hve : f.ve = w.ve := hcredited.ve
    refine ⟨⟨⟨rfl, rfl, hcredited.self, hcredited.vault, hcredited.lock⟩, rfl, ?_,
      hminted.after hcredited.claim, fun account hby ↦ ?_⟩, rfl⟩
    · change w.ve.Follows f.ve
      rw [hve]
      exact .refl _
    · have houtside : (w.withClaim claim).furnace.Outside account :=
        ⟨hby.outside.furnace, hby.outside.vault, hby.outside.ve⟩
      refine (hcredited.outside account houtside hby.core).trans ?_
      exact (ClaimToken.mint_balanceOf hclaim account).trans (by rw [if_neg hby.wired]; rfl)
  case h_2 => trivial

theorem accrueEmissions_spared (hne : w.core.wiring.self ≠ w.furnace.furnace.self) :
    Returns (fun r ↦ Spared w r.1) (accrueEmissions call w) := by
  unfold accrueEmissions
  have hrest (mined : ℕ) : Returns (fun r : World S × ℕ ↦ Spared w r.1) (do
      let furnaceMined ← furnaceEmitted w.core.genesis.emissionStartTime
        w.core.game.currentReignLastAccrualTime call.timestamp
      let w ← mintFurnaceClaim call w furnaceMined
      return (w, mined)) :=
    Returns.seq fun f _ ↦ Outcome.bind (mintFurnaceClaim_spared call w hne f) fun w₁ h₁ ↦ h₁
  refine Returns.guard fun _ ↦ Returns.guard fun _ ↦ ?_
  exact Returns.ite (fun _ ↦ Returns.seq fun mined _ ↦ hrest mined) fun _ ↦ hrest 0

theorem startReign_spared (n : NewReign) (pricePaid : ℕ) :
    Returns (Spared w) (startReign call w n pricePaid) := by
  unfold startReign
  refine Returns.seq fun newReignId _ ↦ ?_
  dsimp only
  refine .of_core ?_ ?_ ?_ rfl
  · split <;> rfl
  · split
    · rw [emit_kingBooks _ (.DelegationSessionUsed _ _ _ _ _ _) rfl rfl,
        emit_kingBooks _ (.Takeover _ _ _ _ _ _) rfl rfl,
        emit_kingBooks _ (.ReignRecipientsSet _ _ _ _) rfl rfl]
      rfl
    · rw [emit_kingBooks _ (.Takeover _ _ _ _ _ _) rfl rfl,
        emit_kingBooks _ (.ReignRecipientsSet _ _ _ _) rfl rfl]
      rfl
  · split <;> rfl

/-- The king stream of a finalized reign. -/
def KingBooks.reign (b : KingBooks) (mined bps : ℕ) : KingBooks :=
  (b.mine mined).payLiquid (liquidSlice mined bps)

/-- The CLAIM of the recipient of a reign, which a takeover ends. -/
theorem finalizeReign_settled (hne : w.core.wiring.self ≠ w.furnace.furnace.self)
    (r : TakeoverReplies) (reignId : ℕ) (king : Address) (pricePaid claimMined : ℕ) :
    Returns (fun w' ↦ ∃ bps, bps ≤ KING_LIQUID_SHARE_MAX_BPS ∧
        SliceSettled call (w.core.kingBooks.reign claimMined bps)
          (orKing (w.core.reigns.reignClaimRecipient reignId) king)
          (claimMined - liquidSlice claimMined bps)
          (Pi.single (orKing (w.core.reigns.reignClaimRecipient reignId) king)
            (liquidSlice claimMined bps)) w w')
      (finalizeReign port call w r reignId king pricePaid claimMined) := by
  unfold finalizeReign
  refine Returns.seq fun share _ ↦ Returns.seq fun rest _ ↦ ?_
  dsimp only
  generalize hreigns : ({ w.core with reigns := _ } : CoreState) = core
  have h₀ : Spared w { w with core := core } := by
    subst hreigns
    exact .of_core rfl rfl rfl rfl
  refine Outcome.bind (payKing_spared _ _ _ _) fun w₁ h₁ ↦ ?_
  refine Outcome.bind (tryRoyaltiesTakeover_spared w₁ _ _ _) fun w₂ h₂ ↦ ?_
  have hpaid := (h₀.trans h₁).trans h₂
  have hfinal : Kept 0 w₂ (w₂.emit (.ReignFinalized reignId king
      (w.core.reigns.reignInfo reignId).startTime call.timestamp claimMined share)) :=
    .of_core rfl rfl rfl
  have hbooks : (w₂.emit (.ReignFinalized reignId king
      (w.core.reigns.reignInfo reignId).startTime call.timestamp claimMined share)).core.kingBooks =
      w.core.kingBooks.mine claimMined := by
    rw [← hpaid.books]
    simp only [World.emit, CoreState.kingBooks, CoreState.emit, List.map_append, List.sum_append,
      List.map_cons, List.map_nil, List.sum_cons, List.sum_nil, Event.mined, Event.liquid,
      Nat.add_zero, KingBooks.mine]
  have hkept := hpaid.toKept.after hfinal
  refine (settlePrevKingClaim_settled port call _ (hkept.distinct hne) r.gas reignId king _
    claimMined).weaken ?_
  intro w₃ h₃
  rw [hbooks] at h₃
  exact ⟨_, kingLiquidBps_le _ _, h₃.kept hkept⟩

/-! ## Calls -/

/-- The recipient of the CLAIM that a takeover settles. -/
def CoreState.settlesTo (s : CoreState) : Option Address :=
  if s.game.currentKing = 0 then none
  else some (orKing (s.reigns.reignClaimRecipient s.game.currentReignId) s.game.currentKing)

/-- What a call is to the king stream. -/
inductive KingCall
  /-- A takeover, which settles the CLAIM of an account unless nobody is king. -/
  | takeover (settlesTo : Option Address)
  | withdrawal (dst : Address)
  | rescue
  | other

def Op.kingCall (call : Call) (s : CoreState) : Op → KingCall
  | .takeover _ _ => .takeover s.settlesTo
  | .takeoverWithToken _ _ _ _ _ _ => .takeover s.settlesTo
  | .takeoverWithTokenAndDeadline _ _ _ _ _ _ _ => .takeover s.settlesTo
  | .takeoverFor _ _ _ => .takeover s.settlesTo
  | .withdrawPendingClaim _ => .withdrawal call.sender
  | .withdrawPendingClaimTo _ dst => .withdrawal dst
  | .rescueClaim _ => .rescue
  | _ => .other

/-- The whole credit of `user` enters a lock of `dst`. -/
structure CreditLocked (user dst : Address) (w w' : World S) : Prop where
  self : w'.core.wiring.self = w.core.wiring.self
  furnace : w'.furnace.furnace.self = w.furnace.furnace.self
  owed : w.core.kings.pendingKingClaim user ≠ 0
  le_total : w.core.kings.pendingKingClaim user ≤ w.core.kings.totalPendingKingClaim
  books : w'.core.kingBooks = w.core.kingBooks.withdraw user dst
  claim : w.claim.Spends w.core.wiring.self (w.core.kings.pendingKingClaim user) w'.claim
  locks : ∃ tokenId, Furnace.Deposits dst (w.core.kings.pendingKingClaim user)
    (chooseDestination call w dst).1.tokenId tokenId w.ve w'.ve

/-- The CLAIM above the credits leaves the contract. -/
structure ClaimRescued (w w' : World S) : Prop where
  self : w'.core.wiring.self = w.core.wiring.self
  furnace : w'.furnace.furnace.self = w.furnace.furnace.self
  books : w'.core.kingBooks = w.core.kingBooks
  ve : w'.ve = w.ve
  allowance : w'.claim.allowance = w.claim.allowance
  covered : w.core.kings.totalPendingKingClaim ≤ w'.claimBalance

/-- The books and the locks are as before, and no CLAIM has left the contract. -/
structure Untouched (w w' : World S) : Prop where
  self : w'.core.wiring.self = w.core.wiring.self
  furnace : w'.furnace.furnace.self = w.furnace.furnace.self
  books : w'.core.kingBooks = w.core.kingBooks
  ve : w.ve.Follows w'.ve
  claim : w.claim.Spares w.core.wiring.self w'.claim

theorem Spared.untouched {w w' : World S} (h : Spared w w') : Untouched w w' :=
  ⟨h.self, h.furnace, h.books, h.ve, h.claim⟩

/-- The CLAIM of the reign that a takeover ends is split: the liquid slice is paid to the
recipient, and the rest is settled. -/
structure ReignSettled (recipient : Address) (w w' : World S) : Prop where
  split : ∃ mined bps, bps ≤ KING_LIQUID_SHARE_MAX_BPS ∧
    SliceSettled call (w.core.kingBooks.reign mined bps) recipient
      (mined - liquidSlice mined bps) (Pi.single recipient (liquidSlice mined bps)) w w'

/-- What a call does to the king stream. -/
def KingEffect (w w' : World S) : KingCall → Prop
  | .takeover none => Untouched w w'
  | .takeover (some recipient) => ReignSettled call recipient w w'
  | .withdrawal dst =>
      w.core.kings.pendingKingClaim call.sender = 0 ∧ Untouched w w' ∨
        CreditLocked call call.sender dst w w'
  | .rescue => Untouched w w' ∨ ClaimRescued w w'
  | .other => Untouched w w'

variable {call} in
theorem Untouched.before {w w₁ w' : World S} (h : Untouched w₁ w') (hcore : w₁.core = w.core)
    (hfurnace : w₁.furnace = w.furnace) : Untouched w w' := by
  obtain ⟨core, balance, furnace⟩ := w₁
  obtain rfl : core = w.core := hcore
  obtain rfl : furnace = w.furnace := hfurnace
  exact ⟨h.self, h.furnace, h.books, h.ve, h.claim⟩

variable {call} in
theorem KingEffect.before_takeover {settlesTo : Option Address} {w w₁ w' : World S}
    (h : KingEffect call w₁ w' (.takeover settlesTo)) (hcore : w₁.core = w.core)
    (hfurnace : w₁.furnace = w.furnace) : KingEffect call w w' (.takeover settlesTo) := by
  cases settlesTo with
  | none => exact Untouched.before h hcore hfurnace
  | some recipient =>
      obtain ⟨mined, bps, hbps, hsettled⟩ := ReignSettled.split h
      rw [hcore] at hsettled
      refine ⟨mined, bps, hbps, hsettled.kept (.of_core ?_ ?_ hfurnace)⟩ <;> rw [hcore]

theorem executeTakeover_kings (hne : w.core.wiring.self ≠ w.furnace.furnace.self)
    (r : TakeoverReplies) (creditedEth pricePaid : ℕ) (n : NewReign) :
    Returns (fun w' ↦ KingEffect call w w' (.takeover w.core.settlesTo))
      (executeTakeover port call w r creditedEth pricePaid n) := by
  unfold executeTakeover
  refine Returns.seq fun _ _ ↦ Returns.seq fun _ _ ↦ Returns.seq fun _ _ ↦ Returns.seq fun _ _ ↦ ?_
  refine Returns.guard fun _ ↦ Returns.guard fun _ ↦ Returns.guard fun _ ↦ ?_
  refine Outcome.bind ((checkpointVeLoop_spared call w r.checkpointRounds).and
    (checkpointVeLoop_core call w r.checkpointRounds)) ?_
  rintro w₁ ⟨h₁, hcore, -, -⟩
  refine Returns.seq fun _ _ ↦ Returns.guard fun _ ↦ ?_
  refine Outcome.bind ((accrueEmissions_spared call w₁ (h₁.distinct hne)).and
    (accrueEmissions_mints call w₁)) ?_
  rintro ⟨w₂, mined⟩ ⟨h₂, f, -, -, -, hmints, -⟩
  have hbefore := h₁.trans h₂
  have hreigns : w₂.core.reigns = w.core.reigns := by
    rw [hmints.reigns, hcore]
  unfold CoreState.settlesTo
  dsimp only
  by_cases hking : w.core.game.currentKing = 0
  · rw [if_neg (not_not.mpr hking), if_pos hking]
    refine Outcome.bind (tryRoyaltiesTakeover_spared w₂ _ _ _) fun w₃ h₃ ↦ ?_
    refine Outcome.bind (startReign_spared call w₃ n pricePaid) fun w₄ h₄ ↦ ?_
    refine (hybridRefund_spared w₄ _ _ _).weaken fun w₅ h₅ ↦ ?_
    exact (((hbefore.trans h₃).trans h₄).trans h₅).untouched
  · rw [if_pos hking, if_neg hking]
    refine Outcome.bind (finalizeReign_settled port call w₂ (hbefore.distinct hne) r _ _ pricePaid
      mined) ?_
    rintro w₃ ⟨bps, hbps, h₃⟩
    refine Outcome.bind (startReign_spared call w₃ n pricePaid) fun w₄ h₄ ↦ ?_
    refine (hybridRefund_spared w₄ _ _ _).weaken fun w₅ h₅ ↦ ?_
    rw [hbefore.books, hreigns] at h₃
    exact ⟨mined, bps, hbps, (h₃.kept hbefore.toKept).after (h₄.trans h₅)⟩

theorem withdrawPendingClaimInternal_kings (hne : w.core.wiring.self ≠ w.furnace.furnace.self)
    (gas : RouteGas) (dst : Address) :
    Returns (fun w' ↦ KingEffect call w w' (.withdrawal dst))
      (withdrawPendingClaimInternal port call w gas call.sender dst) := by
  unfold withdrawPendingClaimInternal
  refine Returns.guard fun _ ↦ ?_
  refine Returns.ite (fun hnone ↦ .inl ⟨hnone, (Spared.refl w).untouched⟩) fun howed ↦ ?_
  have hrouted := routeClaimToLock_routes port call w hne gas dst
    (w.core.kings.pendingKingClaim call.sender)
  dsimp only
  generalize routeClaimToLock port call w gas dst (w.core.kings.pendingKingClaim call.sender) = p
    at hrouted ⊢
  obtain ⟨w₁, routed⟩ := p
  dsimp only at hrouted ⊢
  cases routed with
  | failed reason => trivial
  | locked tokenId =>
      obtain ⟨hbooks, hspends, hlocks⟩ := hrouted.locked tokenId rfl
      refine Returns.seq fun total htotal ↦ ?_
      obtain ⟨hle, rfl⟩ := usub_eq_ok.mp htotal
      have hpending : w₁.core.kings.pendingKingClaim = w.core.kings.pendingKingClaim :=
        congrArg KingBooks.pending hbooks
      have htotalPending : w₁.core.kings.totalPendingKingClaim =
          w.core.kings.totalPendingKingClaim := congrArg KingBooks.totalPending hbooks
      rw [htotalPending] at hle ⊢
      refine .inr ⟨hrouted.self, hrouted.furnace, howed, hle, ?_, hspends, tokenId, hlocks⟩
      refine (emit_kingBooks _ (.PendingClaimWithdrawn _ _ _) rfl rfl).trans ?_
      rw [hpending]
      change ({ w₁.core.kingBooks with
        pending := update w.core.kings.pendingKingClaim call.sender 0
        totalPending := w.core.kings.totalPendingKingClaim -
          w.core.kings.pendingKingClaim call.sender } : KingBooks) = _
      rw [hbooks]
      rfl

/-! ## Administration -/

theorem withdrawKingBalanceInternal_spared (user dst : Address) (accepted : Bool × Bool) :
    Returns (Spared w) (withdrawKingBalanceInternal w user dst accepted) := by
  unfold withdrawKingBalanceInternal
  refine Returns.guard fun _ ↦ Returns.ite (fun _ ↦ .refl w) fun _ ↦ Returns.seq fun total _ ↦ ?_
  dsimp only
  generalize hcleared : ({ w with core := _ } : World S) = w₀
  have h₀ : Spared w w₀ := by
    subst hcleared
    exact .of_core rfl rfl rfl rfl
  have h₁ := h₀.trans (sendEth_spared w₀ dst (w.core.buckets.kingEthBalance user) accepted.1)
  generalize sendEth w₀ dst (w.core.buckets.kingEthBalance user) accepted.1 = p at h₁ ⊢
  obtain ⟨w₁, sent⟩ := p
  dsimp only at h₁ ⊢
  have h₂ : Spared w (if sent = false ∧ dst ≠ user then
      sendEth w₁ user (w.core.buckets.kingEthBalance user) accepted.2 else (w₁, sent)).1 := by
    split
    · exact h₁.trans (sendEth_spared w₁ _ _ _)
    · exact h₁
  generalize (if sent = false ∧ dst ≠ user then
    sendEth w₁ user (w.core.buckets.kingEthBalance user) accepted.2 else (w₁, sent)) = q at h₂ ⊢
  obtain ⟨w₂, ok⟩ := q
  dsimp only at h₂ ⊢
  refine Returns.guard fun _ ↦ ?_
  have h₃ : Spared w (w₂.emit (.KingWithdrawal user (w.core.buckets.kingEthBalance user))) :=
    h₂.emit _ rfl rfl
  by_cases hboth : sent = true ∧ dst ≠ user
  · rw [if_pos hboth]
    exact h₃.emit _ rfl rfl
  · rw [if_neg hboth]
    exact h₃

theorem withdrawRefundBalance_spared (dst : Address) (accepted : Bool) :
    Returns (Spared w) (withdrawRefundBalance call w dst accepted) := by
  unfold withdrawRefundBalance
  refine Returns.guard fun _ ↦ Returns.ite (fun _ ↦ .refl w) fun _ ↦ Returns.seq fun total _ ↦ ?_
  dsimp only
  generalize hcleared : ({ w with core := _ } : World S) = w₀
  have h₀ : Spared w w₀ := by
    subst hcleared
    exact .of_core rfl rfl rfl rfl
  have h₁ := h₀.trans (sendEth_spared w₀ dst (w.core.buckets.refundEthBalance call.sender) accepted)
  exact Returns.guard fun _ ↦ h₁.emit _ rfl rfl

theorem retryPushShareholderEth_spared (rounds : ℕ) (reply : RoyaltiesReply) :
    Returns (Spared w) (retryPushShareholderEth call w rounds reply) := by
  unfold retryPushShareholderEth
  refine Returns.guard fun _ ↦ Returns.seq fun cadence _ ↦ Returns.guard fun _ ↦ ?_
  refine Returns.ite (fun _ ↦ .refl w) fun _ ↦ ?_
  dsimp only
  generalize hstamped : ({ w with core := _ } : World S) = w₀
  have h₀ : Spared w w₀ := by
    subst hstamped
    exact .of_core rfl rfl rfl rfl
  refine Outcome.bind (checkpointVeLoop_spared call w₀ rounds) fun w₁ h₁ ↦ ?_
  refine Returns.seq fun _ _ ↦ ?_
  generalize hcleared : ({ w₁ with core := _ } : World S) = w₂
  have h₂ : Spared w w₂ := by
    subst hcleared
    exact (h₀.trans h₁).trans (.of_core rfl rfl rfl rfl)
  have hsent := h₂.trans (sendEth_spared w₂ w₁.core.wiring.royalties
    w.core.buckets.shareholderEthPending reply.accepted)
  split
  case h_1 w₃ heq =>
    rw [heq] at hsent
    by_cases hflushed : reply.flushed = true
    · rw [if_pos hflushed]
      exact hsent
    · rw [if_neg hflushed]
      exact hsent.emit _ rfl rfl
  case h_2 w₃ heq =>
    rw [heq] at hsent
    refine hsent.trans (.of_core rfl ?_ rfl rfl)
    exact emit_kingBooks _ (.ShareholderRoyaltiesTakeoverFailed _ _) rfl rfl

/-- A change of the wiring that keeps the address of the contract. -/
theorem rewire_untouched {wiring : Wiring} {e : Event} (hself : wiring.self = w.core.wiring.self)
    (hmined : e.mined = 0) (hliquid : e.liquid = 0) : Untouched w (rewire w wiring e) :=
  ⟨hself, rfl, emit_kingBooks { w.core with wiring := wiring } e hmined hliquid, .refl _, .refl _⟩

theorem setKingAutoLockConfigInternal_untouched (user : Address) (enabled : Bool)
    (targetTokenId durationSeconds : ℕ) (createAutoMax : Bool) (minVeOut : ℕ) :
    Returns (fun p : World S × ℕ ↦ Untouched w p.1) (setKingAutoLockConfigInternal call w user
      enabled targetTokenId durationSeconds createAutoMax minVeOut) := by
  have hend {cfg : KingAutoLockConfig} {e : Event} (hmined : e.mined = 0) (hliquid : e.liquid = 0) :
      Untouched w ({ w with core := { w.core with kings := { w.core.kings with
        kingAutoLockConfig := update w.core.kings.kingAutoLockConfig user cfg } } }.emit e) :=
    ⟨rfl, rfl, emit_kingBooks { w.core with kings := _ } e hmined hliquid, .refl _, .refl _⟩
  unfold setKingAutoLockConfigInternal
  refine Returns.ite (fun _ ↦ hend rfl rfl) fun _ ↦ Returns.ite (fun _ ↦ ?_) fun _ ↦ ?_
  · exact Returns.guard fun _ ↦ Returns.guard fun _ ↦ hend rfl rfl
  · refine Returns.guard fun _ ↦ Returns.guard fun _ ↦ Returns.seq fun _ _ ↦ ?_
    exact hend rfl rfl

theorem setCurrentReignRecipients_untouched (ethRecipient claimRecipient : Address) :
    Returns (Untouched w) (setCurrentReignRecipients call w ethRecipient claimRecipient) := by
  unfold setCurrentReignRecipients
  have hrest (perms : ℕ) : Returns (Untouched w)
      (if ethRecipient = w.core.reigns.reignEthRecipient w.core.game.currentReignId ∧
          claimRecipient = w.core.reigns.reignClaimRecipient w.core.game.currentReignId then
        (pure w : Except Error (World S))
      else
        let r := { w.core.reigns with
          reignEthRecipient := update w.core.reigns.reignEthRecipient w.core.game.currentReignId
            ethRecipient
          reignClaimRecipient := update w.core.reigns.reignClaimRecipient
            w.core.game.currentReignId claimRecipient }
        let core := { w.core with reigns := r }.emit
          (.ReignRecipientsSet w.core.game.currentReignId w.core.game.currentKing ethRecipient
            claimRecipient)
        let session := core.emit (.DelegationSessionUsed w.core.game.currentKing call.sender
          MINECORE_SET_REIGN_RECIPIENTS perms w.core.game.currentReignId call.timestamp)
        pure { w with core := if perms ≠ 0 then session else core }) := by
    refine Returns.ite (fun _ ↦ (Spared.refl w).untouched) fun _ ↦ ?_
    refine ⟨?_, rfl, ?_, .refl _, .refl _⟩
    · dsimp only
      split <;> rfl
    · dsimp only
      split
      · rw [emit_kingBooks _ (.DelegationSessionUsed _ _ _ _ _ _) rfl rfl,
          emit_kingBooks _ (.ReignRecipientsSet _ _ _ _) rfl rfl]
        rfl
      · rw [emit_kingBooks _ (.ReignRecipientsSet _ _ _ _) rfl rfl]
        rfl
  refine Returns.guard fun _ ↦ Returns.guard fun _ ↦ Returns.seq fun _ _ ↦ Returns.seq fun _ _ ↦ ?_
  refine Returns.ite (fun _ ↦ Returns.seq fun perms _ ↦ hrest perms) fun _ ↦ hrest 0

theorem setLockingPaused_untouched (paused : Bool) :
    Returns (Untouched w) (setLockingPaused call w paused) := by
  unfold setLockingPaused
  refine Returns.seq fun _ _ ↦ Returns.guard fun _ ↦ Returns.guard fun _ ↦ Returns.guard fun _ ↦ ?_
  have hpaused : Returns (fun f : Furnace.World S ↦ f.base = w.furnace.base ∧
      f.furnace.self = w.furnace.furnace.self)
      (Furnace.setLockingPaused (call.byCore w.core) w.furnace paused) := by
    unfold Furnace.setLockingPaused
    exact Returns.guard fun _ ↦ Returns.ite (fun _ ↦ ⟨rfl, rfl⟩) fun _ ↦ ⟨rfl, rfl⟩
  refine Outcome.bind hpaused ?_
  rintro ⟨f, base⟩ ⟨rfl, hself⟩
  exact ⟨rfl, hself, rfl, .refl _, .refl _⟩

theorem run_untouched {op : Op} (hop : op.configures = true) :
    Returns (Untouched w) (run port call w op) := by
  cases op with
  | advanceVeCheckpoint rounds =>
      refine Outcome.bind (checkpointVeLoop_spared call w rounds) fun w₁ h₁ ↦ ?_
      exact Returns.guard fun _ ↦ h₁.untouched
  | setKingAutoLockConfig enabled target duration autoMax minVeOut =>
      exact Outcome.bind (setKingAutoLockConfigInternal_untouched call w _ enabled target duration
        autoMax minVeOut) fun p hp ↦ hp
  | setKingAutoLockConfigForUser user enabled target duration autoMax minVeOut =>
      refine Returns.guard fun _ ↦ Returns.seq fun hub _ ↦ Returns.guard fun _ ↦ ?_
      refine Outcome.bind (setKingAutoLockConfigInternal_untouched call w _ enabled target duration
        autoMax minVeOut) fun p hp ↦ ?_
      exact ⟨hp.self, hp.furnace, (emit_kingBooks _ (.DelegationSessionUsed _ _ _ _ _ _) rfl
        rfl).trans hp.books, hp.ve, hp.claim⟩
  | setCurrentReignRecipients ethRecipient claimRecipient =>
      exact setCurrentReignRecipients_untouched call w ethRecipient claimRecipient
  | setLockingPaused paused => exact setLockingPaused_untouched call w paused
  | setGuardian guardian =>
      refine Returns.seq fun _ _ ↦ Returns.guard fun _ ↦ Returns.seq fun _ _ ↦ ?_
      refine Returns.guard fun _ ↦ Returns.guard fun _ ↦ Returns.guard fun _ ↦ ?_
      exact rewire_untouched w rfl rfl rfl
  | setFurnace furnace =>
      refine Returns.seq fun _ _ ↦ Returns.guard fun _ ↦ Returns.seq fun _ _ ↦ ?_
      refine Returns.guard fun _ ↦ Returns.guard fun _ ↦ Returns.guard fun _ ↦ ?_
      exact rewire_untouched w rfl rfl rfl
  | freezeConfig =>
      refine Returns.seq fun _ _ ↦ Returns.guard fun _ ↦ Returns.guard fun _ ↦ ?_
      refine Returns.guard fun _ ↦ Returns.guard fun _ ↦ Returns.guard fun _ ↦ ?_
      refine Returns.guard fun _ ↦ Returns.guard fun _ ↦ Returns.guard fun _ ↦ ?_
      exact Returns.guard fun _ ↦ rewire_untouched w rfl rfl rfl
  | setEntryTokenRegistry registry =>
      refine Returns.seq fun _ _ ↦ Returns.seq fun _ _ ↦ Returns.guard fun _ ↦ ?_
      exact rewire_untouched w rfl rfl rfl
  | setClaimAllHelper helper =>
      refine Returns.seq fun _ _ ↦ Returns.guard fun _ ↦ Returns.seq fun _ _ ↦ ?_
      exact rewire_untouched w rfl rfl rfl
  | setDelegationHub hub =>
      refine Returns.seq fun _ _ ↦ Returns.guard fun _ ↦ Returns.seq fun _ _ ↦ ?_
      exact rewire_untouched w rfl rfl rfl
  | transferOwnership newOwner =>
      refine Returns.seq fun _ _ ↦ Returns.guard fun _ ↦ Returns.guard fun _ ↦ ?_
      exact rewire_untouched w rfl rfl rfl
  | acceptOwnership =>
      refine Returns.guard fun _ ↦ Returns.guard fun _ ↦ ?_
      exact rewire_untouched w rfl rfl rfl
  | _ => cases hop

theorem setTakeoversPaused_spared (paused : Bool) :
    Returns (Spared w) (setTakeoversPaused call w paused) := by
  unfold setTakeoversPaused
  refine Returns.seq fun _ _ ↦ Returns.ite (fun _ ↦ .refl w) fun _ ↦ Returns.guard fun _ ↦ ?_
  refine Returns.seq fun game _ ↦ .of_core rfl ?_ rfl rfl
  exact emit_kingBooks _ (.TakeoversPausedChanged _) rfl rfl

theorem collectGenesisKingClaim_untouched (dst : Address) :
    Returns (Untouched w) (collectGenesisKingClaim call w dst) := by
  unfold collectGenesisKingClaim
  refine Returns.seq fun _ _ ↦ Returns.guard fun _ ↦ Returns.guard fun _ ↦ Returns.guard fun _ ↦ ?_
  refine Returns.guard fun _ ↦ Returns.seq fun _ _ ↦ Returns.guard fun _ ↦ Returns.seq fun _ _ ↦ ?_
  refine (mintKingClaim_kept _ _ _).weaken ?_
  rintro w' ⟨h, hbooks, -⟩
  exact ⟨h.self, h.furnace, hbooks, h.ve, h.claim⟩

theorem rescueEth_spared (dst : Address) (accepted : Bool) :
    Returns (Spared w) (rescueEth call w dst accepted) := by
  unfold rescueEth
  refine Returns.seq fun _ _ ↦ Returns.guard fun _ ↦ Returns.seq fun tracked _ ↦ ?_
  refine Returns.ite (fun _ ↦ .refl w) fun _ ↦ ?_
  exact Returns.guard fun _ ↦ sendEth_spared w _ _ _

/-- A rescue takes the CLAIM above the credits, or none. -/
theorem rescueClaim_kings (dst : Address) :
    Returns (fun w' ↦ KingEffect call w w' .rescue) (rescueClaim call w dst) := by
  unfold rescueClaim
  refine Returns.seq fun _ _ ↦ Returns.guard fun _ ↦ ?_
  refine Returns.ite (fun _ ↦ .inl (Spared.refl w).untouched) fun hmore ↦ ?_
  refine Returns.seq fun claim hclaim ↦ .inr ⟨rfl, rfl, rfl, rfl, ?_, ?_⟩
  · exact ClaimToken.transfer_allowance hclaim
  · have hleft := (ClaimToken.transfer_eq_ok hclaim).balance_src
    change w.claimBalance ≤ claim.balanceOf w.core.wiring.self + _ at hleft
    change w.core.kings.totalPendingKingClaim ≤ claim.balanceOf w.core.wiring.self
    omega

/-! ## Every call -/

theorem swapTokenToEth_furnace (r : SwapReplies) (tokenIn amountIn minEthOut : ℕ) :
    Returns (fun p : World S × ℕ ↦ p.1.core = w.core ∧ p.1.furnace = w.furnace)
      (swapTokenToEth call w r tokenIn amountIn minEthOut) := by
  have hunwrap : Returns (fun p : World S × ℕ ↦ p.1.core = w.core ∧ p.1.furnace = w.furnace)
      (unwrapWeth w r minEthOut) := by
    unfold unwrapWeth
    exact Returns.seq fun ethOut _ ↦ Returns.guard fun _ ↦ ⟨rfl, rfl⟩
  unfold swapTokenToEth
  refine Returns.guard fun _ ↦ Returns.guard fun _ ↦ Returns.guard fun _ ↦ Returns.guard fun _ ↦ ?_
  refine Returns.seq fun config _ ↦ Returns.ite (fun _ ↦ Returns.guard fun _ ↦ hunwrap) fun _ ↦ ?_
  refine Returns.seq fun routes _ ↦ ?_
  split
  · refine Returns.guard fun _ ↦ Returns.seq fun pool _ ↦ ?_
    exact Returns.guard fun _ ↦ Returns.guard fun _ ↦ Returns.seq fun _ _ ↦ hunwrap
  · trivial

/-- A takeover that is paid with a swap. -/
theorem swappedTakeover_kings (hne : w.core.wiring.self ≠ w.furnace.furnace.self)
    (r : TakeoverReplies) (swap : SwapReplies) (tokenIn amountIn minEthOut pricePaid : ℕ)
    (n : NewReign) :
    Returns (fun w' ↦ KingEffect call w w' (.takeover w.core.settlesTo)) (do
      let (w, ethOut) ← swapTokenToEth call w swap tokenIn amountIn minEthOut
      executeTakeover port call w r ethOut pricePaid n) := by
  refine Outcome.bind (swapTokenToEth_furnace call w swap tokenIn amountIn minEthOut) ?_
  rintro ⟨w₁, ethOut⟩ ⟨hcore, hfurnace⟩
  have hne₁ : w₁.core.wiring.self ≠ w₁.furnace.furnace.self := by
    rw [hcore, hfurnace]
    exact hne
  refine (executeTakeover_kings port call w₁ hne₁ r ethOut pricePaid n).weaken fun w' h ↦ ?_
  rw [hcore] at h
  exact h.before_takeover hcore hfurnace

theorem run_kings (hne : w.core.wiring.self ≠ w.furnace.furnace.self) (op : Op) :
    Returns (fun w' ↦ KingEffect call w w' (op.kingCall call w.core)) (run port call w op) := by
  by_cases hconf : op.configures = true
  · have hother : op.kingCall call w.core = .other := by
      cases op <;> first | rfl | cases hconf
    rw [hother]
    exact run_untouched port call w hconf
  cases op with
  | takeover r maxPrice =>
      refine Returns.guard fun _ ↦ Returns.guard fun _ ↦ Returns.guard fun _ ↦ ?_
      exact (executeTakeover_kings port call (receiveValue call w) hne r _ _ _).weaken
        fun w' h ↦ h.before_takeover rfl rfl
  | takeoverWithToken r swap tokenIn amountIn minEthOut maxPrice =>
      refine Returns.guard fun _ ↦ Returns.guard fun _ ↦ Returns.guard fun _ ↦ ?_
      exact swappedTakeover_kings port call w hne r swap tokenIn amountIn minEthOut _ _
  | takeoverWithTokenAndDeadline r swap tokenIn amountIn minEthOut maxPrice deadline =>
      refine Returns.guard fun _ ↦ Returns.guard fun _ ↦ Returns.guard fun _ ↦ ?_
      refine Returns.guard fun _ ↦ ?_
      exact swappedTakeover_kings port call w hne r swap tokenIn amountIn minEthOut _ _
  | takeoverFor r newKing maxPrice =>
      refine Returns.guard fun _ ↦ Returns.guard fun _ ↦ Returns.guard fun _ ↦ ?_
      refine Returns.guard fun _ ↦ Returns.seq fun hub _ ↦ Returns.guard fun _ ↦ ?_
      exact (executeTakeover_kings port call (receiveValue call w) hne r _ _ _).weaken
        fun w' h ↦ h.before_takeover rfl rfl
  | withdrawKingBalance accepted =>
      exact (withdrawKingBalanceInternal_spared w _ _ _).weaken fun _ h ↦ h.untouched
  | withdrawKingBalanceTo dst accepted =>
      exact (withdrawKingBalanceInternal_spared w _ _ _).weaken fun _ h ↦ h.untouched
  | withdrawKingBalanceFor user accepted =>
      refine Returns.guard fun _ ↦ ?_
      exact (withdrawKingBalanceInternal_spared w _ _ _).weaken fun _ h ↦ h.untouched
  | withdrawRefundBalance dst accepted =>
      exact (withdrawRefundBalance_spared call w dst accepted).weaken
        fun _ h ↦ h.untouched
  | withdrawPendingClaim gas => exact withdrawPendingClaimInternal_kings port call w hne gas _
  | withdrawPendingClaimTo gas dst =>
      exact withdrawPendingClaimInternal_kings port call w hne gas dst
  | retryPushShareholderEth rounds reply =>
      exact (retryPushShareholderEth_spared call w rounds reply).weaken
        fun _ h ↦ h.untouched
  | setTakeoversPaused paused =>
      exact (setTakeoversPaused_spared call w paused).weaken fun _ h ↦ h.untouched
  | collectGenesisKingClaim dst =>
      exact collectGenesisKingClaim_untouched call w dst
  | rescueEth dst accepted =>
      exact (rescueEth_spared call w dst accepted).weaken fun _ h ↦ h.untouched
  | rescueClaim dst => exact rescueClaim_kings call w dst
  | _ => exact absurd rfl hconf

theorem exec_kings (hne : w.core.wiring.self ≠ w.furnace.furnace.self) (op : Op) :
    Returns (fun w' ↦ KingEffect call w w' (op.kingCall call w.core)) (exec port call w op) :=
  Returns.guard fun _ ↦ run_kings port call w hne op

end ClaimRush.MineCore
