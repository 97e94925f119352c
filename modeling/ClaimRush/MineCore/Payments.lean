import ClaimRush.Lib.FiniteTotal
import ClaimRush.MineCore.Mints

/-!
# The ETH of the game contract

The ETH side of the contract is its buckets, its balance and the transfers that
succeeded.  A payment either leaves the balance or is credited to a bucket; the
settlement of CLAIM does not touch it.
-/

open Function

namespace ClaimRush.MineCore

open Constants

/-! ## Books -/

/-- The ETH side of the game contract. -/
structure EthBooks where
  buckets : EthBuckets
  balance : ℕ
  sent : List (Address × ℕ)

namespace EthBooks

variable (e : EthBooks)

/-- A transfer that succeeded; a transfer of nothing is not made. -/
def pay (dst : Address) (amount : ℕ) : EthBooks :=
  if amount = 0 then e
  else { e with balance := e.balance - amount, sent := e.sent ++ [(dst, amount)] }

def receive (amount : ℕ) : EthBooks := { e with balance := e.balance + amount }

def creditKing (recipient : Address) (amount : ℕ) : EthBooks :=
  { e with buckets := { e.buckets with
      kingEthBalance :=
        update e.buckets.kingEthBalance recipient (e.buckets.kingEthBalance recipient + amount)
      totalKingEthOwed := e.buckets.totalKingEthOwed + amount } }

def creditRefund (dst : Address) (amount : ℕ) : EthBooks :=
  { e with buckets := { e.buckets with
      refundEthBalance :=
        update e.buckets.refundEthBalance dst (e.buckets.refundEthBalance dst + amount)
      totalRefundEthOwed := e.buckets.totalRefundEthOwed + amount } }

def creditShareholders (amount : ℕ) : EthBooks :=
  { e with buckets := { e.buckets with
      shareholderEthPending := e.buckets.shareholderEthPending + amount } }

def clearKing (user : Address) : EthBooks :=
  { e with buckets := { e.buckets with
      kingEthBalance := update e.buckets.kingEthBalance user 0
      totalKingEthOwed := e.buckets.totalKingEthOwed - e.buckets.kingEthBalance user } }

def clearRefund (user : Address) : EthBooks :=
  { e with buckets := { e.buckets with
      refundEthBalance := update e.buckets.refundEthBalance user 0
      totalRefundEthOwed := e.buckets.totalRefundEthOwed - e.buckets.refundEthBalance user } }

def stampRetry (timestamp : ℕ) : EthBooks :=
  { e with buckets := { e.buckets with lastShareholderRetryTs := timestamp } }

def clearShareholders : EthBooks :=
  { e with buckets := { e.buckets with shareholderEthPending := 0 } }

/-- ETH that belongs to somebody. -/
def tracked : ℕ :=
  e.buckets.shareholderEthPending + e.buckets.totalKingEthOwed + e.buckets.totalRefundEthOwed

/-- `amount` is paid out of the balance, or credited. -/
def Settled (dst : Address) (amount : ℕ) (credited e' : EthBooks) : Prop :=
  (amount ≤ e.balance ∧ e' = e.pay dst amount) ∨ e' = credited

end EthBooks

def World.eth {S : Type} (w : World S) : EthBooks :=
  ⟨w.core.buckets, w.balance, w.core.ghost.ethSent⟩

variable {S : Type} (port : VeClaimNFT.IShareholderRoyalties S) (call : Call) (w : World S)

/-! ## Settlement -/

theorem mintKingClaim_eth (dst : Address) (amount : ℕ) :
    Returns (fun w' : World S ↦ w'.eth = w.eth) (mintKingClaim w dst amount) := by
  unfold mintKingClaim
  exact Returns.seq fun claim _ ↦ rfl

theorem creditKingClaim_eth (recipient : Address) (amount : ℕ) :
    Returns (fun w' : World S ↦ w'.eth = w.eth) (creditKingClaim w recipient amount) := by
  unfold creditKingClaim
  exact Returns.seq fun pending _ ↦ Returns.seq fun total _ ↦ rfl

theorem ite_pin_eth (c : Prop) [Decidable c] (recipient : Address) (tokenId : ℕ) :
    (if c then pin w recipient tokenId else w).eth = w.eth := by
  split_ifs <;> rfl

theorem entryLocked_eth (recipient : Address) (amount : ℕ) (destination : AutoLockDestination)
    (f : Furnace.World S) (tokenId : ℕ) :
    (entryLocked w recipient amount destination f tokenId).eth = w.eth :=
  ite_pin_eth _ _ _ _

theorem entryFailed_eth (recipient : Address) (destination : AutoLockDestination) :
    (entryFailed w recipient destination).eth = w.eth :=
  ite_pin_eth w _ _ _

theorem routeClaimToLock_eth (gas : RouteGas) (recipient : Address) (amount : ℕ) :
    (routeClaimToLock port call w gas recipient amount).1.eth = w.eth := by
  unfold routeClaimToLock
  dsimp only
  generalize hchosen : (if (chooseDestination call w recipient).2 = true then pin w recipient 0
    else w) = chosen
  have heth : chosen.eth = w.eth := hchosen ▸ ite_pin_eth w _ _ _
  split
  · rfl
  split
  · rfl
  split
  · exact heth
  split
  · exact (entryLocked_eth chosen _ _ _ _ _).trans heth
  · exact (entryFailed_eth chosen _ _).trans heth

theorem settleLockedSlice_eth (gas : SettleGas) (reignId : ℕ) (recipient : Address)
    (lockAmount : ℕ) :
    Returns (fun w' : World S ↦ w'.eth = w.eth)
      (settleLockedSlice port call w gas reignId recipient lockAmount) := by
  unfold settleLockedSlice
  refine Returns.ite (fun _ ↦ ?_) fun _ ↦ ?_
  · refine Outcome.bind (R := fun w' : World S ↦ w'.eth = w.eth)
      (Outcome.bind (mintKingClaim_eth w _ _) fun w₁ h₁ ↦
        (creditKingClaim_eth w₁ _ _).weaken fun w₂ h₂ ↦ h₂.trans h₁) ?_
    exact fun w₃ h₃ ↦ h₃
  · refine Outcome.bind (mintKingClaim_eth w _ _) fun w₁ h₁ ↦ ?_
    have hrouted := (routeClaimToLock_eth port call w₁ gas.toRouteGas recipient lockAmount).trans h₁
    dsimp only
    split
    · exact hrouted
    · exact Outcome.bind (creditKingClaim_eth _ _ _) fun w₂ h₂ ↦ h₂.trans hrouted

theorem settlePrevKingClaim_eth (gas : SettleGas) (reignId : ℕ) (king recipient : Address)
    (claimAmount : ℕ) :
    Returns (fun w' : World S ↦ w'.eth = w.eth)
      (settlePrevKingClaim port call w gas reignId king recipient claimAmount) := by
  have hpaid (liquid bps : ℕ) : Returns (fun w' : World S ↦ w'.eth = w.eth)
      (payLiquidSlice w reignId recipient liquid bps) := by
    unfold payLiquidSlice
    refine Returns.ite (fun _ ↦ ?_) fun _ ↦ rfl
    exact Outcome.bind (mintKingClaim_eth w _ _) fun w₁ h₁ ↦ h₁
  unfold settlePrevKingClaim
  refine Returns.ite (fun _ ↦ rfl) fun _ ↦ Returns.seq fun product _ ↦ ?_
  refine Outcome.bind (hpaid _ _) fun w₁ h₁ ↦ Returns.ite (fun _ ↦ h₁) fun _ ↦ ?_
  exact (settleLockedSlice_eth port call w₁ gas _ _ _).weaken fun w₂ h₂ ↦ h₂.trans h₁

theorem accrueEmissions_eth :
    Returns (fun r : World S × ℕ ↦ r.1.eth = w.eth) (accrueEmissions call w) := by
  have hminted (furnaceMined : ℕ) : Returns (fun w' : World S ↦ w'.eth = w.eth)
      (mintFurnaceClaim call w furnaceMined) := by
    unfold mintFurnaceClaim
    refine Returns.ite (fun _ ↦ Returns.seq fun claim _ ↦ ?_) fun _ ↦ rfl
    dsimp only
    split
    · rfl
    · trivial
  unfold accrueEmissions
  refine Returns.guard fun _ ↦ Returns.guard fun _ ↦ ?_
  by_cases hking : w.core.game.currentKing ≠ 0
  · rw [if_pos hking]
    refine Returns.seq fun mined _ ↦ Returns.seq fun f _ ↦ ?_
    exact Outcome.bind (hminted f) fun w₁ h₁ ↦ h₁
  · rw [if_neg hking]
    refine Returns.seq fun mined _ ↦ Returns.seq fun f _ ↦ ?_
    exact Outcome.bind (hminted f) fun w₁ h₁ ↦ h₁

/-! ## Payments -/

/-- A transfer leaves the balance, or changes nothing. -/
theorem sendEth_eth (dst : Address) (value : ℕ) (accepted : Bool) :
    (((sendEth w dst value accepted).2 = true ∧ value ≤ w.balance ∧
        (sendEth w dst value accepted).1.eth = w.eth.pay dst value) ∨
      ((sendEth w dst value accepted).2 = false ∧ (sendEth w dst value accepted).1 = w)) := by
  unfold sendEth
  split_ifs with hzero hsent
  · refine .inl ⟨rfl, ?_, ?_⟩
    · rw [hzero]
      exact Nat.zero_le _
    · rw [EthBooks.pay, if_pos hzero]
  · refine .inl ⟨rfl, hsent.2.1, ?_⟩
    rw [EthBooks.pay, if_neg hzero]
    rfl
  · exact .inr ⟨rfl, rfl⟩

theorem payKing_eth (recipient : Address) (share : ℕ) (accepted : Bool) :
    Returns (fun w' : World S ↦
        w.eth.Settled recipient share (w.eth.creditKing recipient share) w'.eth)
      (payKing w recipient share accepted) := by
  have hsent := sendEth_eth w recipient share accepted
  unfold payKing
  split
  case h_1 w₁ heq =>
    rw [heq] at hsent
    obtain ⟨-, hle, hpaid⟩ | ⟨hfalse, -⟩ := hsent
    · exact .inl ⟨hle, hpaid⟩
    · cases hfalse
  case h_2 w₁ heq =>
    rw [heq] at hsent
    obtain ⟨htrue, -⟩ | ⟨-, hsame⟩ := hsent
    · cases htrue
    obtain rfl : w₁ = w := hsame
    refine Returns.seq fun owed howed ↦ Returns.seq fun total htotal ↦ ?_
    obtain ⟨-, rfl⟩ := uint256_eq_ok.mp howed
    obtain ⟨-, rfl⟩ := uint256_eq_ok.mp htotal
    exact .inr rfl

theorem tryRoyaltiesTakeover_eth (reply : RoyaltiesReply) (reignId amountEth : ℕ) :
    Returns (fun w' : World S ↦ w.eth.Settled w.core.wiring.royalties amountEth
        (w.eth.creditShareholders amountEth) w'.eth)
      (tryRoyaltiesTakeover w reply reignId amountEth) := by
  have hsent := sendEth_eth w w.core.wiring.royalties amountEth reply.accepted
  unfold tryRoyaltiesTakeover
  refine Returns.ite (fun hzero ↦ ?_) fun _ ↦ ?_
  · refine .inl ⟨hzero.trans_le (Nat.zero_le _), ?_⟩
    rw [EthBooks.pay, if_pos hzero]
  split
  case h_1 w₁ heq =>
    rw [heq] at hsent
    obtain ⟨-, hle, hpaid⟩ | ⟨hfalse, -⟩ := hsent
    · refine .inl ⟨hle, ?_⟩
      split_ifs
      · exact hpaid
      · exact hpaid
    · cases hfalse
  case h_2 w₁ heq =>
    rw [heq] at hsent
    obtain ⟨htrue, -⟩ | ⟨-, hsame⟩ := hsent
    · cases htrue
    obtain rfl : w₁ = w := hsame
    refine Returns.seq fun pending hpending ↦ ?_
    obtain ⟨-, rfl⟩ := uint256_eq_ok.mp hpending
    exact .inr rfl

/-- Clearing what was just credited leaves the bucket as it was. -/
theorem credit_clear (f : Address → ℕ) (dst : Address) (amount : ℕ) :
    update (update f dst (f dst + amount)) dst
      (update f dst (f dst + amount) dst - amount) = f := by
  rw [update_self, update_idem, Nat.add_sub_cancel, update_eq_self]

theorem hybridRefund_eth (dst : Address) (amount : ℕ) (accepted : Bool) :
    Returns (fun w' : World S ↦
        w.eth.Settled dst amount (w.eth.creditRefund dst amount) w'.eth)
      (hybridRefund w dst amount accepted) := by
  unfold hybridRefund
  refine Returns.ite (fun hzero ↦ ?_) fun hne ↦ ?_
  · refine .inl ⟨hzero.trans_le (Nat.zero_le _), ?_⟩
    rw [EthBooks.pay, if_pos hzero]
  refine Returns.seq fun owed howed ↦ Returns.seq fun total htotal ↦ ?_
  obtain ⟨-, rfl⟩ := uint256_eq_ok.mp howed
  obtain ⟨-, rfl⟩ := uint256_eq_ok.mp htotal
  dsimp only
  generalize hcredited : ({ w with core := { w.core with buckets := { w.core.buckets with
    refundEthBalance :=
      update w.core.buckets.refundEthBalance dst (w.core.buckets.refundEthBalance dst + amount)
    totalRefundEthOwed := w.core.buckets.totalRefundEthOwed + amount } } } : World S) = credited
  have hbooks : credited.eth = w.eth.creditRefund dst amount := by rw [← hcredited]; rfl
  have hsent := sendEth_eth credited dst amount accepted
  split
  case h_1 w₁ heq =>
    rw [heq, hbooks] at hsent
    obtain ⟨-, hle, hpaid⟩ | ⟨hfalse, -⟩ := hsent
    · refine .inl ⟨?_, ?_⟩
      · rw [← hcredited] at hle
        exact hle
      · have hbuckets : w₁.core.buckets = (w.eth.creditRefund dst amount).buckets := by
          have h := congrArg EthBooks.buckets hpaid
          rw [EthBooks.pay, if_neg hne] at h
          exact h
        have hbalance : w₁.balance = w.balance - amount := by
          have h := congrArg EthBooks.balance hpaid
          rw [EthBooks.pay, if_neg hne] at h
          exact h
        have hsent : w₁.core.ghost.ethSent = w.core.ghost.ethSent ++ [(dst, amount)] := by
          have h := congrArg EthBooks.sent hpaid
          rw [EthBooks.pay, if_neg hne] at h
          exact h
        show EthBooks.mk _ _ _ = _
        rw [EthBooks.pay, if_neg hne, hbuckets, hbalance, hsent]
        simp only [EthBooks.creditRefund, credit_clear, Nat.add_sub_cancel]
        rfl
    · cases hfalse
  case h_2 w₁ heq =>
    rw [heq] at hsent
    obtain ⟨htrue, -⟩ | ⟨-, hsame⟩ := hsent
    · cases htrue
    obtain rfl : w₁ = credited := hsame
    exact .inr hbooks

/-! ## Takeovers -/

/-- A takeover splits `received` wei: the price into the share of the dethroned king
and the rest for the shareholders, and what exceeds the price is refunded. -/
structure Split (s : CoreState) (e : EthBooks) (received price : ℕ) (payer : Address)
    (e' : EthBooks) : Prop where
  price_le : price ≤ received
  dethroned : s.game.currentKing ≠ 0 → ∃ share rest e₁ e₂,
    share = price * KING_ETH_SHARE_PCT / KING_ETH_SHARE_DENOM ∧ share + rest = price ∧
    let recipient := orKing (s.reigns.reignEthRecipient s.game.currentReignId) s.game.currentKing
    e.Settled recipient share (e.creditKing recipient share) e₁ ∧
    e₁.Settled s.wiring.royalties rest (e₁.creditShareholders rest) e₂ ∧
    e₂.Settled payer (received - price) (e₂.creditRefund payer (received - price)) e'
  vacant : s.game.currentKing = 0 → ∃ e₁,
    e.Settled s.wiring.royalties price (e.creditShareholders price) e₁ ∧
    e₁.Settled payer (received - price) (e₁.creditRefund payer (received - price)) e'

theorem startReign_eth (n : NewReign) (pricePaid : ℕ) :
    Returns (fun w' : World S ↦ w'.eth = w.eth) (startReign call w n pricePaid) := by
  unfold startReign
  refine Returns.seq fun newReignId _ ↦ ?_
  dsimp only
  by_cases hself : n.king ≠ n.refundTo
  · rw [if_pos hself]
    rfl
  · rw [if_neg hself]
    rfl

theorem checkpointVeLoop_eth (rounds : ℕ) :
    Returns (fun w' : World S ↦ w'.core = w.core ∧ w'.eth = w.eth)
      (checkpointVeLoop call rounds w) := by
  refine (checkpointVeLoop_core call w rounds).weaken ?_
  rintro w' ⟨hcore, hbalance, -⟩
  refine ⟨hcore, ?_⟩
  rw [World.eth, hcore, hbalance]
  rfl

/-- The payments of a finalized reign. -/
theorem finalizeReign_eth (r : TakeoverReplies) (reignId : ℕ) (king : Address)
    (pricePaid claimMined : ℕ) :
    Returns (fun w' : World S ↦ ∃ share rest e₁,
        share = pricePaid * KING_ETH_SHARE_PCT / KING_ETH_SHARE_DENOM ∧ share + rest = pricePaid ∧
        let recipient := orKing (w.core.reigns.reignEthRecipient reignId) king
        w.eth.Settled recipient share (w.eth.creditKing recipient share) e₁ ∧
        e₁.Settled w.core.wiring.royalties rest (e₁.creditShareholders rest) w'.eth)
      (finalizeReign port call w r reignId king pricePaid claimMined) := by
  unfold finalizeReign
  refine Returns.seq fun share hshare ↦ Returns.seq fun rest hrest ↦ ?_
  obtain ⟨product, hproduct, hshare⟩ := bind_eq_ok_iff.mp hshare
  obtain ⟨-, rfl⟩ := uint256_eq_ok.mp hproduct
  obtain rfl := Except.ok.inj hshare
  obtain ⟨hle, rfl⟩ := usub_eq_ok.mp hrest
  dsimp only
  generalize hreigns : ({ w with core := { w.core with reigns := _ } } : World S) = finalized
  have hbooks : finalized.eth = w.eth := by rw [← hreigns]; rfl
  have hroyalties : finalized.core.wiring.royalties = w.core.wiring.royalties := by
    rw [← hreigns]
  refine Outcome.bind ((payKing_eth finalized _ _ _).and (payKing_quiet finalized _ _ _)) ?_
  rintro w₁ ⟨h₁, hquiet⟩
  refine Outcome.bind (tryRoyaltiesTakeover_eth w₁ _ _ _) fun w₂ h₂ ↦ ?_
  refine (settlePrevKingClaim_eth port call _ _ _ _ _ _).weaken fun w₃ h₃ ↦ ?_
  rw [hquiet.wiring, hroyalties] at h₂
  rw [hbooks] at h₁
  refine ⟨_, _, w₁.eth, rfl, Nat.add_sub_cancel' hle, h₁, ?_⟩
  rw [h₃]
  exact h₂

theorem executeTakeover_split (r : TakeoverReplies) (creditedEth pricePaid : ℕ) (n : NewReign) :
    Returns (fun w' : World S ↦ Split w.core w.eth creditedEth pricePaid n.refundTo w'.eth)
      (executeTakeover port call w r creditedEth pricePaid n) := by
  unfold executeTakeover
  refine Returns.seq fun _ _ ↦ Returns.seq fun _ _ ↦ Returns.seq fun _ _ ↦ Returns.seq fun _ _ ↦ ?_
  refine Returns.guard fun _ ↦ Returns.guard fun _ ↦ Returns.guard fun _ ↦ ?_
  refine Outcome.bind (checkpointVeLoop_eth call w _) ?_
  rintro w₁ ⟨hcore, heth⟩
  refine Returns.seq fun _ _ ↦ Returns.guard fun hprice ↦ ?_
  refine Outcome.bind ((accrueEmissions_eth call w₁).and (accrueEmissions_mints call w₁)) ?_
  rintro ⟨w₂, k⟩ ⟨h₂, f, -, -, -, hmints, -⟩
  rw [hcore] at hmints
  rw [heth] at h₂
  dsimp only at h₂ hmints ⊢
  have hreigns : w₂.core.reigns = w.core.reigns := hmints.reigns
  have hwiring : w₂.core.wiring = w.core.wiring := hmints.wiring
  by_cases hking : w.core.game.currentKing ≠ 0
  · rw [if_pos hking]
    refine Outcome.bind (finalizeReign_eth port call w₂ r _ _ _ _) ?_
    rintro w₃ ⟨share, rest, e₁, hshare, hsum, hpaid, hrest⟩
    refine Outcome.bind (startReign_eth call w₃ n pricePaid) fun w₄ h₄ ↦ ?_
    refine (hybridRefund_eth w₄ _ _ _).weaken fun w₅ h₅ ↦ ?_
    rw [hreigns, h₂] at hpaid
    rw [hwiring] at hrest
    rw [h₄] at h₅
    exact ⟨not_lt.mp hprice, fun _ ↦ ⟨share, rest, e₁, w₃.eth, hshare, hsum, hpaid, hrest, h₅⟩,
      fun hzero ↦ absurd hzero hking⟩
  · rw [if_neg hking]
    refine Outcome.bind (tryRoyaltiesTakeover_eth w₂ _ _ _) fun w₃ h₃ ↦ ?_
    refine Outcome.bind (startReign_eth call w₃ n pricePaid) fun w₄ h₄ ↦ ?_
    refine (hybridRefund_eth w₄ _ _ _).weaken fun w₅ h₅ ↦ ?_
    rw [h₂, hwiring] at h₃
    rw [h₄] at h₅
    exact ⟨not_lt.mp hprice, fun hne ↦ absurd hne hking, fun _ ↦ ⟨w₃.eth, h₃, h₅⟩⟩

end ClaimRush.MineCore
