import ClaimRush.Lib.FiniteTotal
import ClaimRush.MineCore.KingTurns
import ClaimRush.MineCore.Observed

/-!
# Conservation of the CLAIM of the kings

The credits are the CLAIM of the finalized reigns that has been neither paid out
liquid nor locked.  They add up to their total, and the contract holds it, while
anybody else may call the token and the other contracts.
-/

open Function Relation

namespace ClaimRush.MineCore

open Constants

/-! ## The books -/

namespace KingBooks

variable {b : KingBooks} {recipient : Address} {amount : ℕ}

/-- CLAIM that entered a lock. -/
def totalLocked (b : KingBooks) : ℕ := (b.locked.map Prod.snd).sum

/-- The credits add up, and every reign is accounted for. -/
structure Balanced (b : KingBooks) : Prop where
  finite : FiniteEntries b.pending
  total : total b.pending = b.totalPending
  conserved : b.mined = b.liquid + b.totalLocked + b.totalPending

/-- A finalized reign of which `amount` is not settled yet. -/
structure Owes (amount : ℕ) (b : KingBooks) : Prop where
  finite : FiniteEntries b.pending
  total : ClaimRush.total b.pending = b.totalPending
  conserved : b.mined = b.liquid + b.totalLocked + b.totalPending + amount

theorem Balanced.reign (h : b.Balanced) (mined : ℕ) {bps : ℕ}
    (hbps : bps ≤ KING_LIQUID_SHARE_MAX_BPS) :
    (b.reign mined bps).Owes (mined - liquidSlice mined bps) := by
  refine ⟨h.finite, h.total, ?_⟩
  have hle := liquidSlice_le mined hbps
  have hconserved := h.conserved
  change b.mined + mined = b.liquid + liquidSlice mined bps + b.totalLocked + b.totalPending +
    (mined - liquidSlice mined bps)
  omega

theorem totalLocked_append (b : KingBooks) (recipient : Address) (amount : ℕ) :
    ((b.locked ++ [(recipient, amount)]).map Prod.snd).sum = b.totalLocked + amount := by
  simp [totalLocked]

theorem Owes.lock (h : b.Owes amount) : (b.lock recipient amount).Balanced := by
  refine ⟨h.finite, h.total, ?_⟩
  have hlocked := totalLocked_append b recipient amount
  have hconserved := h.conserved
  change b.mined = b.liquid + ((b.locked ++ [(recipient, amount)]).map Prod.snd).sum +
    b.totalPending
  omega

theorem Owes.credit (h : b.Owes amount) : (b.credit recipient amount).Balanced := by
  have hupdate := total_update h.finite recipient (b.pending recipient + amount)
  have htotal := h.total
  have hconserved := h.conserved
  refine ⟨h.finite.update _ _, ?_, ?_⟩
  · change ClaimRush.total (update b.pending recipient (b.pending recipient + amount)) =
      b.totalPending + amount
    omega
  · change b.mined = b.liquid + b.totalLocked + (b.totalPending + amount)
    omega

theorem Balanced.withdraw (h : b.Balanced) (user dst : Address) :
    (b.withdraw user dst).Balanced := by
  have hupdate := total_update h.finite user 0
  have hle := le_total h.finite user
  have hlocked := totalLocked_append b dst (b.pending user)
  have htotal := h.total
  have hconserved := h.conserved
  refine ⟨h.finite.update _ _, ?_, ?_⟩
  · change ClaimRush.total (update b.pending user 0) = b.totalPending - b.pending user
    omega
  · change b.mined = b.liquid + ((b.locked ++ [(dst, b.pending user)]).map Prod.snd).sum +
      (b.totalPending - b.pending user)
    omega

end KingBooks

/-! ## Runs -/

variable {S : Type}

/-- Calls on the token by accounts other than `account`. -/
def ClaimToken.CallsOfOthers (account : Address) : ClaimToken → ClaimToken → Prop :=
  ReflTransGen fun c c' ↦ ∃ caller op, caller ≠ account ∧ c.exec caller op = .ok c'

/-- A call on the game contract, or anything that others do: they change the other
contracts at will, and the token by their own calls. -/
inductive KingStep (port : VeClaimNFT.IShareholderRoyalties S) : Config S → Config S → Prop
  | op {c : Config S} {w : World S} (call : Call) (op : Op) (hnow : c.now ≤ call.timestamp)
      (hexec : exec port call c.world op = .ok w) : KingStep port c ⟨call.timestamp, w⟩
  | outside {c : Config S} {now : ℕ} (received : ℕ) (furnace : Furnace.World S) (hnow : c.now ≤ now)
      (hself : furnace.furnace.self ≠ c.world.core.wiring.self)
      (hclaim : ClaimToken.CallsOfOthers c.world.core.wiring.self c.world.claim furnace.claim) :
      KingStep port c ⟨now, ⟨c.world.core, c.world.balance + received, furnace⟩⟩

/-- The game contract from its initialization on, which has approved nobody and is
not the Furnace. -/
def kingSystem (port : VeClaimNFT.IShareholderRoyalties S) : TransitionSystem (Config S) where
  init c := Deployed c.world c.now ∧ c.world.claim.Unapproved c.world.core.wiring.self ∧
    c.world.core.wiring.self ≠ c.world.furnace.furnace.self
  step := KingStep port

/-- The books balance, and the credits are held and out of reach of others. -/
structure KingsSound (w : World S) : Prop where
  distinct : w.core.wiring.self ≠ w.furnace.furnace.self
  balanced : w.core.kingBooks.Balanced
  covered : w.core.kings.totalPendingKingClaim ≤ w.claimBalance
  unapproved : w.claim.Unapproved w.core.wiring.self

namespace KingsSound

variable {w w' : World S}

theorem untouched (h : KingsSound w) (hw' : Untouched w w') : KingsSound w' := by
  refine ⟨?_, hw'.books ▸ h.balanced, ?_, ?_⟩
  · rw [hw'.self, hw'.furnace]
    exact h.distinct
  · have htotal : w'.core.kings.totalPendingKingClaim = w.core.kings.totalPendingKingClaim :=
      congrArg KingBooks.totalPending hw'.books
    unfold World.claimBalance
    rw [htotal, hw'.self]
    exact h.covered.trans hw'.claim.balance
  · rw [hw'.self]
    exact hw'.claim.unapproved h.unapproved

theorem rescued (h : KingsSound w) (hw' : ClaimRescued w w') : KingsSound w' := by
  refine ⟨?_, hw'.books ▸ h.balanced, ?_, fun spender ↦ ?_⟩
  · rw [hw'.self, hw'.furnace]
    exact h.distinct
  · have htotal : w'.core.kings.totalPendingKingClaim = w.core.kings.totalPendingKingClaim :=
      congrArg KingBooks.totalPending hw'.books
    exact htotal.trans_le hw'.covered
  · rw [hw'.allowance, hw'.self]
    exact h.unapproved spender

theorem settled (h : KingsSound w) {call : Call} {recipient : Address}
    (hw' : ReignSettled call recipient w w') : KingsSound w' := by
  obtain ⟨mined, bps, hbps, hsettled⟩ := hw'
  have howes := h.balanced.reign mined hbps
  have hkept : w.claimBalance ≤ w'.claimBalance := by
    unfold World.claimBalance
    rw [hsettled.self]
    exact hsettled.claim.balance
  have hdistinct : w'.core.wiring.self ≠ w'.furnace.furnace.self := by
    rw [hsettled.self, hsettled.furnace]
    exact h.distinct
  have hunapproved : w'.claim.Unapproved w'.core.wiring.self := by
    rw [hsettled.self]
    exact hsettled.claim.unapproved h.unapproved
  cases hsettled.turn with
  | empty hzero hbooks hve =>
      refine ⟨hdistinct, ?_, ?_, hunapproved⟩
      · rw [hzero] at howes
        rw [hbooks]
        exact ⟨howes.finite, howes.total, howes.conserved⟩
      · have htotal : w'.core.kings.totalPendingKingClaim = w.core.kings.totalPendingKingClaim :=
          congrArg KingBooks.totalPending hbooks
        exact htotal.trans_le (h.covered.trans hkept)
  | locked tokenId hbooks hlocks =>
      refine ⟨hdistinct, hbooks ▸ howes.lock, ?_, hunapproved⟩
      have htotal : w'.core.kings.totalPendingKingClaim = w.core.kings.totalPendingKingClaim :=
        congrArg KingBooks.totalPending hbooks
      exact htotal.trans_le (h.covered.trans hkept)
  | credited hbooks hheld hve =>
      refine ⟨hdistinct, hbooks ▸ howes.credit, ?_, hunapproved⟩
      have htotal : w'.core.kings.totalPendingKingClaim =
          w.core.kings.totalPendingKingClaim + (mined - liquidSlice mined bps) :=
        congrArg KingBooks.totalPending hbooks
      exact htotal.trans_le ((Nat.add_le_add_right h.covered _).trans hheld)

theorem withdrawn (h : KingsSound w) {call : Call} {user dst : Address}
    (hw' : CreditLocked call user dst w w') : KingsSound w' := by
  refine ⟨?_, hw'.books ▸ h.balanced.withdraw user dst, ?_, ?_⟩
  · rw [hw'.self, hw'.furnace]
    exact h.distinct
  · have htotal : w'.core.kings.totalPendingKingClaim =
        w.core.kings.totalPendingKingClaim - w.core.kings.pendingKingClaim user :=
      congrArg KingBooks.totalPending hw'.books
    have hspent := hw'.claim.balance
    have hcovered := h.covered
    have hle := hw'.le_total
    unfold World.claimBalance at hcovered ⊢
    rw [htotal, hw'.self]
    omega
  · rw [hw'.self]
    exact hw'.claim.unapproved h.unapproved

theorem effect (h : KingsSound w) {call : Call} {k : KingCall} (hw' : KingEffect call w w' k) :
    KingsSound w' := by
  cases k with
  | takeover settlesTo =>
      cases settlesTo with
      | none => exact h.untouched hw'
      | some recipient => exact h.settled hw'
  | withdrawal dst =>
      rcases hw' with ⟨-, hw'⟩ | hw'
      · exact h.untouched hw'
      · exact h.withdrawn hw'
  | rescue =>
      rcases hw' with hw' | hw'
      · exact h.untouched hw'
      · exact h.rescued hw'
  | other => exact h.untouched hw'

end KingsSound

theorem callsOfOthers_spares {account : Address} {c c' : ClaimToken}
    (h : ClaimToken.CallsOfOthers account c c') (hun : c.Unapproved account) :
    c.Spares account c' := by
  induction h with
  | refl => exact .refl c
  | tail _ hcall ih =>
      obtain ⟨caller, op, hcaller, hexec⟩ := hcall
      exact ih.after (ClaimToken.exec_spares (ih.unapproved hun) hcaller hexec)

variable {port : VeClaimNFT.IShareholderRoyalties S}

theorem reachable_kings {c : Config S} (hc : (kingSystem port).Reachable c) :
    KingsSound c.world := by
  refine hc.invariant (I := fun c ↦ KingsSound c.world) ?_ ?_
  · rintro c ⟨⟨-, self, royalties, helper, owner, mainnet, hcore⟩, hun, hne⟩
    refine ⟨hne, ?_, ?_, hun⟩
    · rw [hcore]
      exact ⟨finiteEntries_zero, total_zero, rfl⟩
    · rw [hcore]
      exact Nat.zero_le _
  · intro c c' _ h hstep
    cases hstep with
    | op call op hnow hexec =>
        exact h.effect (Returns.iff_forall.mp (exec_kings port call c.world h.distinct op) _ hexec)
    | outside received furnace hnow hself hclaim =>
        have hspares := callsOfOthers_spares hclaim h.unapproved
        exact ⟨Ne.symm hself, h.balanced, h.covered.trans hspares.balance,
          hspares.unapproved h.unapproved⟩

/-- A withdrawal that cannot be routed reverts. -/
theorem withdrawPendingClaimTo_unrouted {call : Call} {w : World S} {gas : RouteGas} {dst : Address}
    {reason : Option Error} (hvalue : call.value = 0) (hdst : dst ≠ 0)
    (howed : w.core.kings.pendingKingClaim call.sender ≠ 0)
    (hfailed : (routeClaimToLock port call w gas dst
      (w.core.kings.pendingKingClaim call.sender)).2 = .failed reason) :
    exec port call w (.withdrawPendingClaimTo gas dst) = .error .LockRouteUnavailable := by
  have hnonPayable : ¬ (call.value ≠ 0 ∧ (!(Op.withdrawPendingClaimTo gas dst).payable) = true) :=
    fun h ↦ h.1 hvalue
  obtain ⟨w₁, hrouted⟩ : ∃ w₁, routeClaimToLock port call w gas dst
      (w.core.kings.pendingKingClaim call.sender) = (w₁, .failed reason) :=
    ⟨_, Prod.ext rfl hfailed⟩
  unfold exec
  rw [(revertIf_eq_ok (u := ())).mpr hnonPayable]
  change withdrawPendingClaimInternal port call w gas call.sender dst = _
  unfold withdrawPendingClaimInternal
  rw [(revertIf_eq_ok (u := ())).mpr hdst]
  simp only [hrouted, if_neg howed]
  rfl

/-- In every run the credits are the CLAIM of the finalized reigns that was neither paid
out nor locked, add up to their total and are held by the contract.  Every call splits,
locks, credits or rescues CLAIM as its effect says, and a withdrawal that cannot be
locked reverts. -/
theorem king_claim_conserved {c : Config S} (hc : (kingSystem port).Reachable c) :
    total c.world.core.kings.pendingKingClaim = c.world.core.kings.totalPendingKingClaim ∧
    c.world.core.kings.totalPendingKingClaim ≤ c.world.claimBalance ∧
    c.world.core.kingBooks.mined = c.world.core.kingBooks.liquid +
      c.world.core.kingBooks.totalLocked + c.world.core.kings.totalPendingKingClaim ∧
    (∀ call op w', exec port call c.world op = .ok w' →
      KingEffect call c.world w' (op.kingCall call c.world.core)) ∧
    ∀ call gas dst reason, call.value = 0 → dst ≠ 0 →
      c.world.core.kings.pendingKingClaim call.sender ≠ 0 →
      (routeClaimToLock port call c.world gas dst
        (c.world.core.kings.pendingKingClaim call.sender)).2 = .failed reason →
      exec port call c.world (.withdrawPendingClaimTo gas dst) = .error .LockRouteUnavailable := by
  have h := reachable_kings hc
  refine ⟨h.balanced.total, h.covered, h.balanced.conserved, fun call op w' hexec ↦ ?_, ?_⟩
  · exact Returns.iff_forall.mp (exec_kings port call c.world h.distinct op) w' hexec
  · intro call gas dst reason hvalue hdst howed hfailed
    exact withdrawPendingClaimTo_unrouted hvalue hdst howed hfailed

/-! ## Computed runs -/

/-- Execute one call. -/
def execConfig (port : VeClaimNFT.IShareholderRoyalties S) (p : Call × Op) (c : Config S) :
    Except Error (Config S) := do
  let w ← exec port p.1 c.world p.2
  return ⟨p.1.timestamp, w⟩

theorem kingSystem_run {c c' : Config S} {calls : List (Call × Op)}
    (hrun : runCalls (execConfig port) calls c = .ok c')
    (hsorted : (c.now :: calls.map fun p ↦ p.1.timestamp).IsChain (· ≤ ·)) :
    ReflTransGen (kingSystem port).step c c' := by
  refine calls_run Config.now (fun p c c' hle hcall ↦ ?_) hrun hsorted
  obtain ⟨w, hexec, hc'⟩ := bind_eq_ok_iff.mp hcall
  obtain rfl := Except.ok.inj hc'
  exact ⟨.op p.1 p.2 hle hexec, rfl⟩

/-- Two reigns; the CLAIM of the first is credited. -/
def creditedReign : List (Call × Op) :=
  opening ++
    [(gameCall 90012 21 ether (Nat.succ_pos _), .takeover plainReplies ether),
      (gameCall 90022 22 ether (Nat.succ_pos _), .takeover plainReplies ether)]

theorem king_claim_conserved_creditedReign :
    ∃ c, (kingSystem VeClaimNFT.acceptingPort).Reachable c ∧
      0 < c.world.core.kings.pendingKingClaim 21 ∧
      c.world.core.kings.totalPendingKingClaim ≤ c.world.claimBalance := by
  have hok : ((runCalls (execConfig VeClaimNFT.acceptingPort) creditedReign
      deployedGame.config).toOption.any fun c ↦
        decide (0 < c.world.core.kings.pendingKingClaim 21)) = true := by
    decide +kernel
  obtain ⟨c, hrun, hcredited⟩ := exists_ok_of_any hok
  have hinit : (kingSystem VeClaimNFT.acceptingPort).init deployedGame.config :=
    ⟨deployedGame_init.1, fun _ ↦ rfl, by decide⟩
  have hc := (TransitionSystem.Reachable.init hinit).run (kingSystem_run hrun (by decide))
  exact ⟨c, hc, of_decide_eq_true hcredited, (king_claim_conserved hc).2.1⟩

end ClaimRush.MineCore
