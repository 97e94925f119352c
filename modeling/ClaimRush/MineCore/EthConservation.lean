import ClaimRush.MineCore.Observed
import ClaimRush.MineCore.Payments

/-!
# Conservation of ETH

Every call of the game contract splits, pays out, restores or rescues ETH in one
of the ways of `EthTurn`.  Each of them keeps the totals of the buckets and the
cover of the buckets by the balance.
-/

open Function

namespace ClaimRush.MineCore

open Constants

variable {S : Type} (port : VeClaimNFT.IShareholderRoyalties S) (call : Call) (w : World S)

/-! ## What each call does -/

/-- The credit of `user` is paid to one of the receivers, unless there is none. -/
def KingWithdrawn (e : EthBooks) (user : Address) (receivers : List Address) (e' : EthBooks) :
    Prop :=
  let amount := e.buckets.kingEthBalance user
  (amount = 0 ∧ e' = e) ∨
    ∃ r ∈ receivers, amount ≤ e.balance ∧ amount ≤ e.buckets.totalKingEthOwed ∧
      e' = (e.clearKing user).pay r amount

/-- The refund of `user` is paid to `dst`, unless there is none. -/
def RefundWithdrawn (e : EthBooks) (user dst : Address) (e' : EthBooks) : Prop :=
  let amount := e.buckets.refundEthBalance user
  (amount = 0 ∧ e' = e) ∨
    (amount ≤ e.balance ∧ amount ≤ e.buckets.totalRefundEthOwed ∧
      e' = (e.clearRefund user).pay dst amount)

/-- The pending share of the shareholders is delivered, or it stays pending. -/
def Retried (s : CoreState) (timestamp : ℕ) (e e' : EthBooks) : Prop :=
  let pending := e.buckets.shareholderEthPending
  (pending = 0 ∧ e' = e) ∨
    (pending ≤ e.balance ∧
      e' = ((e.stampRetry timestamp).clearShareholders).pay s.wiring.royalties pending) ∨
    e' = e.stampRetry timestamp

/-- Only the ETH that belongs to nobody is moved. -/
def Rescued (e : EthBooks) (dst : Address) (e' : EthBooks) : Prop :=
  (e.balance ≤ e.tracked ∧ e' = e) ∨
    (e.tracked < e.balance ∧ e' = e.pay dst (e.balance - e.tracked))

/-- What a call that returned did to the ETH of the game contract. -/
def EthTurn (e' : EthBooks) : Op → Prop
  | .takeover _ _ =>
      Split w.core (w.eth.receive call.value) call.value (getTakeoverPrice w call.timestamp)
        call.sender e'
  | .takeoverFor _ _ _ =>
      Split w.core (w.eth.receive call.value) call.value (getTakeoverPrice w call.timestamp)
        call.sender e'
  | .takeoverWithToken _ _ _ _ minEthOut _ =>
      ∃ ethOut, minEthOut ≤ ethOut ∧ Split w.core (w.eth.receive ethOut) ethOut
        (getTakeoverPrice w call.timestamp) call.sender e'
  | .takeoverWithTokenAndDeadline _ _ _ _ minEthOut _ _ =>
      ∃ ethOut, minEthOut ≤ ethOut ∧ Split w.core (w.eth.receive ethOut) ethOut
        (getTakeoverPrice w call.timestamp) call.sender e'
  | .withdrawKingBalance _ => KingWithdrawn w.eth call.sender [call.sender] e'
  | .withdrawKingBalanceTo dst _ => KingWithdrawn w.eth call.sender [dst, call.sender] e'
  | .withdrawKingBalanceFor user _ => KingWithdrawn w.eth user [user] e'
  | .withdrawRefundBalance dst _ => RefundWithdrawn w.eth call.sender dst e'
  | .retryPushShareholderEth _ _ => Retried w.core call.timestamp w.eth e'
  | .rescueEth dst _ => Rescued w.eth dst e'
  | _ => e' = w.eth

theorem withdrawKingBalanceInternal_eth (user dst : Address) (accepted : Bool × Bool) :
    Returns (fun w' : World S ↦ KingWithdrawn w.eth user [dst, user] w'.eth)
      (withdrawKingBalanceInternal w user dst accepted) := by
  unfold withdrawKingBalanceInternal
  refine Returns.guard fun _ ↦ Returns.ite (fun hzero ↦ .inl ⟨hzero, rfl⟩) fun hne ↦ ?_
  refine Returns.seq fun total htotal ↦ ?_
  obtain ⟨hle, rfl⟩ := usub_eq_ok.mp htotal
  dsimp only
  generalize hcleared : ({ w with core := { w.core with buckets := _ } } : World S) = cleared
  have hbooks : cleared.eth = w.eth.clearKing user := by rw [← hcleared]; rfl
  have hbalance : cleared.balance = w.balance := by rw [← hcleared]
  have hfirst := sendEth_eth cleared dst (w.core.buckets.kingEthBalance user) accepted.1
  generalize sendEth cleared dst (w.core.buckets.kingEthBalance user) accepted.1 = first at hfirst ⊢
  have hsecond := sendEth_eth first.1 user (w.core.buckets.kingEthBalance user) accepted.2
  generalize sendEth first.1 user (w.core.buckets.kingEthBalance user) accepted.2 = second
    at hsecond ⊢
  rw [hbooks, hbalance] at hfirst
  have hlast : ∀ last : World S × Bool,
      (if first.2 = false ∧ dst ≠ user then second else (first.1, first.2)) = last →
      last.2 ≠ false → KingWithdrawn w.eth user [dst, user] last.1.eth := by
    rintro last rfl hok
    obtain ⟨htrue, hcovered, hpaid⟩ | ⟨hfalse, hsame⟩ := hfirst
    · rw [if_neg fun hand ↦ by rw [htrue] at hand; cases hand.1]
      exact .inr ⟨dst, List.mem_cons_self, hcovered, hle, hpaid⟩
    · by_cases hdst : dst ≠ user
      · rw [if_pos ⟨hfalse, hdst⟩] at hok ⊢
        rw [hsame, hbooks, hbalance] at hsecond
        obtain ⟨-, hcovered, hpaid⟩ | ⟨hfalse, -⟩ := hsecond
        · exact .inr ⟨user, List.mem_cons_of_mem _ (List.mem_singleton_self user), hcovered, hle,
            hpaid⟩
        · exact absurd hfalse hok
      · rw [if_neg fun hand ↦ hdst hand.2] at hok
        exact absurd hfalse hok
  generalize (if first.2 = false ∧ dst ≠ user then second else (first.1, first.2)) = last at hlast ⊢
  refine Returns.guard fun hok ↦ ?_
  have hwithdrawn := hlast last rfl hok
  by_cases hto : first.2 = true ∧ dst ≠ user
  · rw [if_pos hto]
    exact hwithdrawn
  · rw [if_neg hto]
    exact hwithdrawn

/-- The fallback of a withdrawal to the user itself is the user again. -/
theorem KingWithdrawn.self {e e' : EthBooks} {user : Address}
    (h : KingWithdrawn e user [user, user] e') : KingWithdrawn e user [user] e' := by
  obtain hnone | ⟨r, hr, h⟩ := h
  · exact .inl hnone
  · exact .inr ⟨r, by simpa using hr, h⟩

theorem withdrawRefundBalance_eth (dst : Address) (accepted : Bool) :
    Returns (fun w' : World S ↦ RefundWithdrawn w.eth call.sender dst w'.eth)
      (withdrawRefundBalance call w dst accepted) := by
  unfold withdrawRefundBalance
  refine Returns.guard fun _ ↦ Returns.ite (fun hzero ↦ .inl ⟨hzero, rfl⟩) fun hne ↦ ?_
  refine Returns.seq fun total htotal ↦ ?_
  obtain ⟨hle, rfl⟩ := usub_eq_ok.mp htotal
  dsimp only
  generalize hcleared : ({ w with core := { w.core with buckets := _ } } : World S) = cleared
  have hbooks : cleared.eth = w.eth.clearRefund call.sender := by rw [← hcleared]; rfl
  have hbalance : cleared.balance = w.balance := by rw [← hcleared]
  have hsent := sendEth_eth cleared dst (w.core.buckets.refundEthBalance call.sender) accepted
  rw [hbooks, hbalance] at hsent
  refine Returns.guard fun hok ↦ ?_
  obtain ⟨-, hcovered, hpaid⟩ | ⟨hfalse, -⟩ := hsent
  · exact .inr ⟨hcovered, hle, hpaid⟩
  · exact absurd hfalse hok

theorem retryPushShareholderEth_eth (rounds : ℕ) (reply : RoyaltiesReply) :
    Returns (fun w' : World S ↦ Retried w.core call.timestamp w.eth w'.eth)
      (retryPushShareholderEth call w rounds reply) := by
  unfold retryPushShareholderEth
  refine Returns.guard fun _ ↦ Returns.seq fun _ _ ↦ Returns.guard fun _ ↦ ?_
  refine Returns.ite (fun hzero ↦ .inl ⟨hzero, rfl⟩) fun _ ↦ ?_
  dsimp only
  generalize hstamped : ({ w with core := { w.core with buckets := _ } } : World S) = stamped
  have hbooks : stamped.eth = w.eth.stampRetry call.timestamp := by rw [← hstamped]; rfl
  have hwiring : stamped.core.wiring = w.core.wiring := by rw [← hstamped]
  refine Outcome.bind (checkpointVeLoop_eth call stamped rounds) ?_
  rintro w₁ ⟨hcore, heth⟩
  rw [hbooks] at heth
  refine Returns.guard fun _ ↦ ?_
  generalize hcleared : ({ w₁ with core := { w₁.core with buckets := _ } } : World S) = cleared
  have hempty : cleared.eth = (w.eth.stampRetry call.timestamp).clearShareholders := by
    rw [← hcleared, ← heth]
    rfl
  rw [hcore, hwiring]
  have hsent := sendEth_eth cleared w.core.wiring.royalties w.core.buckets.shareholderEthPending
    reply.accepted
  have hbalance : cleared.balance = w.balance := congrArg EthBooks.balance hempty
  rw [hempty, hbalance] at hsent
  split
  case h_1 w₂ heq =>
    rw [heq] at hsent
    obtain ⟨-, hcovered, hpaid⟩ | ⟨hfalse, -⟩ := hsent
    · refine .inr (.inl ⟨hcovered, ?_⟩)
      split_ifs
      · exact hpaid
      · exact hpaid
    · cases hfalse
  case h_2 w₂ heq =>
    rw [heq] at hsent
    obtain ⟨htrue, -⟩ | ⟨-, hsame⟩ := hsent
    · cases htrue
    obtain rfl : w₂ = cleared := hsame
    refine .inr (.inr ?_)
    have hbuckets := congrArg EthBooks.buckets hempty
    have hsent := congrArg EthBooks.sent hempty
    show EthBooks.mk { w₂.core.buckets with
      shareholderEthPending := w.core.buckets.shareholderEthPending } w₂.balance
        w₂.core.ghost.ethSent = _
    rw [show w₂.core.buckets = _ from hbuckets, hbalance, show w₂.core.ghost.ethSent = _ from hsent]
    rfl

theorem rescueEth_eth (dst : Address) (accepted : Bool) :
    Returns (fun w' : World S ↦ Rescued w.eth dst w'.eth) (rescueEth call w dst accepted) := by
  unfold rescueEth
  refine Returns.seq fun _ _ ↦ Returns.guard fun _ ↦ Returns.seq fun tracked htracked ↦ ?_
  obtain ⟨-, rfl⟩ := uint256_eq_ok.mp htracked
  refine Returns.ite (fun hle ↦ .inl ⟨hle, rfl⟩) fun hlt ↦ ?_
  have hsent := sendEth_eth w dst (w.balance - w.eth.tracked) accepted
  refine Returns.guard fun hok ↦ ?_
  obtain ⟨-, -, hpaid⟩ | ⟨hfalse, -⟩ := hsent
  · exact .inr ⟨not_le.mp hlt, hpaid⟩
  · exact absurd hfalse hok

theorem swapTokenToEth_eth (r : SwapReplies) (tokenIn amountIn minEthOut : ℕ) :
    Returns (fun p : World S × ℕ ↦
        p.1.core = w.core ∧ p.1.eth = w.eth.receive p.2 ∧ minEthOut ≤ p.2)
      (swapTokenToEth call w r tokenIn amountIn minEthOut) := by
  refine (swapTokenToEth_core call w r tokenIn amountIn minEthOut).weaken ?_
  rintro ⟨w₁, ethOut⟩ ⟨hcore, hbalance, hmin⟩
  refine ⟨hcore, ?_, hmin⟩
  rw [World.eth, hcore, hbalance]
  rfl

theorem Configured.eth {w w' : World S} (h : Configured w w') : w'.eth = w.eth := by
  rw [World.eth, h.buckets, h.balance, h.ghost]
  rfl

/-- A call that only configures is in the last case of `EthTurn`. -/
theorem EthTurn.of_configures {w' : World S} {op : Op} (hop : op.configures = true)
    (heth : w'.eth = w.eth) : EthTurn call w w'.eth op := by
  cases op with
  | advanceVeCheckpoint _ => exact heth
  | setKingAutoLockConfig _ _ _ _ _ => exact heth
  | setKingAutoLockConfigForUser _ _ _ _ _ _ => exact heth
  | setCurrentReignRecipients _ _ => exact heth
  | setLockingPaused _ => exact heth
  | setGuardian _ => exact heth
  | setFurnace _ => exact heth
  | freezeConfig => exact heth
  | setEntryTokenRegistry _ => exact heth
  | setClaimAllHelper _ => exact heth
  | setDelegationHub _ => exact heth
  | transferOwnership _ => exact heth
  | acceptOwnership => exact heth
  | _ => cases hop

theorem withdrawPendingClaimInternal_eth (gas : RouteGas) (user dst : Address) :
    Returns (fun w' : World S ↦ w'.eth = w.eth)
      (withdrawPendingClaimInternal port call w gas user dst) := by
  unfold withdrawPendingClaimInternal
  refine Returns.guard fun _ ↦ Returns.ite (fun _ ↦ rfl) fun _ ↦ ?_
  have hrouted := routeClaimToLock_eth port call w gas dst (w.core.kings.pendingKingClaim user)
  dsimp only
  split
  · trivial
  · exact Returns.seq fun total _ ↦ hrouted

theorem collectGenesisKingClaim_eth (dst : Address) :
    Returns (fun w' : World S ↦ w'.eth = w.eth) (collectGenesisKingClaim call w dst) := by
  unfold collectGenesisKingClaim
  refine Returns.seq fun _ _ ↦ Returns.guard fun _ ↦ Returns.guard fun _ ↦ Returns.guard fun _ ↦ ?_
  refine Returns.guard fun _ ↦ Returns.seq fun _ _ ↦ Returns.guard fun _ ↦ Returns.seq fun _ _ ↦ ?_
  exact mintKingClaim_eth _ _ _

theorem run_eth (op : Op) :
    Returns (fun w' : World S ↦ EthTurn call w w'.eth op) (run port call w op) := by
  by_cases hconf : op.configures = true
  · exact (run_configured port call w hconf).weaken fun w' h ↦ .of_configures call w hconf h.eth
  cases op with
  | takeover r maxPrice =>
      refine Returns.guard fun _ ↦ Returns.guard fun _ ↦ Returns.guard fun _ ↦ ?_
      exact executeTakeover_split port call _ r _ _ _
  | takeoverWithToken r swap tokenIn amountIn minEthOut maxPrice =>
      refine Returns.guard fun _ ↦ Returns.guard fun _ ↦ Returns.guard fun _ ↦ ?_
      refine Outcome.bind (swapTokenToEth_eth call w swap tokenIn amountIn minEthOut) ?_
      rintro ⟨w₁, ethOut⟩ ⟨hcore, heth, hmin⟩
      refine (executeTakeover_split port call w₁ r _ _ _).weaken fun w' h' ↦ ?_
      rw [hcore, heth] at h'
      exact ⟨ethOut, hmin, h'⟩
  | takeoverWithTokenAndDeadline r swap tokenIn amountIn minEthOut maxPrice deadline =>
      refine Returns.guard fun _ ↦ Returns.guard fun _ ↦ Returns.guard fun _ ↦ ?_
      refine Returns.guard fun _ ↦ ?_
      refine Outcome.bind (swapTokenToEth_eth call w swap tokenIn amountIn minEthOut) ?_
      rintro ⟨w₁, ethOut⟩ ⟨hcore, heth, hmin⟩
      refine (executeTakeover_split port call w₁ r _ _ _).weaken fun w' h' ↦ ?_
      rw [hcore, heth] at h'
      exact ⟨ethOut, hmin, h'⟩
  | takeoverFor r newKing maxPrice =>
      refine Returns.guard fun _ ↦ Returns.guard fun _ ↦ Returns.guard fun _ ↦ ?_
      refine Returns.guard fun _ ↦ Returns.seq fun hub _ ↦ Returns.guard fun _ ↦ ?_
      exact executeTakeover_split port call _ r _ _ _
  | withdrawKingBalance accepted =>
      exact (withdrawKingBalanceInternal_eth w _ _ _).weaken fun _ h ↦ h.self
  | withdrawKingBalanceTo dst accepted => exact withdrawKingBalanceInternal_eth w _ dst accepted
  | withdrawKingBalanceFor user accepted =>
      refine Returns.guard fun _ ↦ ?_
      exact (withdrawKingBalanceInternal_eth w user _ _).weaken fun _ h ↦ h.self
  | withdrawRefundBalance dst accepted => exact withdrawRefundBalance_eth call w dst accepted
  | withdrawPendingClaim gas => exact withdrawPendingClaimInternal_eth port call w gas _ _
  | withdrawPendingClaimTo gas dst => exact withdrawPendingClaimInternal_eth port call w gas _ dst
  | retryPushShareholderEth rounds reply => exact retryPushShareholderEth_eth call w rounds reply
  | setTakeoversPaused paused =>
      refine Returns.seq fun _ _ ↦ Returns.ite (fun _ ↦ rfl) fun _ ↦ Returns.guard fun _ ↦ ?_
      exact Returns.seq fun game _ ↦ rfl
  | collectGenesisKingClaim dst => exact collectGenesisKingClaim_eth call w dst
  | rescueEth dst accepted => exact rescueEth_eth call w dst accepted
  | rescueClaim dst =>
      refine Returns.seq fun _ _ ↦ Returns.guard fun _ ↦ ?_
      exact Returns.ite (fun _ ↦ rfl) fun _ ↦ Returns.seq fun claim _ ↦ rfl
  | _ => exact absurd rfl hconf

theorem exec_eth (op : Op) :
    Returns (fun w' : World S ↦ EthTurn call w w'.eth op) (exec port call w op) :=
  Returns.guard fun _ ↦ run_eth port call w op

/-! ## What every call keeps -/

/-- The totals of the buckets are the sums of their entries. -/
structure EthBuckets.Totals (b : EthBuckets) : Prop where
  kings_finite : FiniteEntries b.kingEthBalance
  kings : total b.kingEthBalance = b.totalKingEthOwed
  refunds_finite : FiniteEntries b.refundEthBalance
  refunds : total b.refundEthBalance = b.totalRefundEthOwed

namespace EthBooks

variable {e e' : EthBooks} {amount r : ℕ}

/-- The balance covers the buckets and `r` more. -/
structure Covers (e : EthBooks) (r : ℕ) : Prop where
  totals : e.buckets.Totals
  covered : e.tracked + r ≤ e.balance

theorem Covers.receive (h : e.Covers r) (amount : ℕ) : (e.receive amount).Covers (amount + r) := by
  refine ⟨h.totals, ?_⟩
  have := h.covered
  show e.tracked + _ ≤ e.balance + amount
  omega

theorem Covers.pay (h : e.Covers (amount + r)) (dst : Address) : (e.pay dst amount).Covers r := by
  obtain ⟨htotals, hcovered⟩ := h
  unfold EthBooks.pay
  split_ifs with hzero
  · exact ⟨htotals, by omega⟩
  · refine ⟨htotals, ?_⟩
    show e.tracked + r ≤ e.balance - amount
    omega

theorem Covers.creditKing (h : e.Covers (amount + r)) (recipient : Address) :
    (e.creditKing recipient amount).Covers r := by
  obtain ⟨htotals, hcovered⟩ := h
  have htotal := total_update htotals.kings_finite recipient
    (e.buckets.kingEthBalance recipient + amount)
  refine ⟨⟨htotals.kings_finite.update _ _, ?_, htotals.refunds_finite, htotals.refunds⟩, ?_⟩
  · show total (update _ _ _) = e.buckets.totalKingEthOwed + amount
    rw [← htotals.kings]
    omega
  · unfold tracked at hcovered ⊢
    dsimp only [EthBooks.creditKing]
    omega

theorem Covers.creditRefund (h : e.Covers (amount + r)) (dst : Address) :
    (e.creditRefund dst amount).Covers r := by
  obtain ⟨htotals, hcovered⟩ := h
  have htotal := total_update htotals.refunds_finite dst (e.buckets.refundEthBalance dst + amount)
  refine ⟨⟨htotals.kings_finite, htotals.kings, htotals.refunds_finite.update _ _, ?_⟩, ?_⟩
  · show total (update _ _ _) = e.buckets.totalRefundEthOwed + amount
    rw [← htotals.refunds]
    omega
  · unfold tracked at hcovered ⊢
    dsimp only [EthBooks.creditRefund]
    omega

theorem Covers.creditShareholders (h : e.Covers (amount + r)) :
    (e.creditShareholders amount).Covers r := by
  obtain ⟨htotals, hcovered⟩ := h
  refine ⟨⟨htotals.kings_finite, htotals.kings, htotals.refunds_finite, htotals.refunds⟩, ?_⟩
  unfold tracked at hcovered ⊢
  dsimp only [EthBooks.creditShareholders]
  omega

theorem Covers.clearKing (h : e.Covers r) (user : Address) :
    (e.clearKing user).Covers (e.buckets.kingEthBalance user + r) := by
  obtain ⟨htotals, hcovered⟩ := h
  have htotal := total_update htotals.kings_finite user 0
  have hle := le_total htotals.kings_finite user
  rw [htotals.kings] at htotal hle
  refine ⟨⟨htotals.kings_finite.update _ _, ?_, htotals.refunds_finite, htotals.refunds⟩, ?_⟩
  · show total (update _ _ _) = e.buckets.totalKingEthOwed - e.buckets.kingEthBalance user
    omega
  · unfold tracked at hcovered ⊢
    dsimp only [EthBooks.clearKing]
    omega

theorem Covers.clearRefund (h : e.Covers r) (user : Address) :
    (e.clearRefund user).Covers (e.buckets.refundEthBalance user + r) := by
  obtain ⟨htotals, hcovered⟩ := h
  have htotal := total_update htotals.refunds_finite user 0
  have hle := le_total htotals.refunds_finite user
  rw [htotals.refunds] at htotal hle
  refine ⟨⟨htotals.kings_finite, htotals.kings, htotals.refunds_finite.update _ _, ?_⟩, ?_⟩
  · show total (update _ _ _) = e.buckets.totalRefundEthOwed - e.buckets.refundEthBalance user
    omega
  · unfold tracked at hcovered ⊢
    dsimp only [EthBooks.clearRefund]
    omega

theorem Covers.stampRetry (h : e.Covers r) (timestamp : ℕ) : (e.stampRetry timestamp).Covers r :=
  ⟨⟨h.totals.kings_finite, h.totals.kings, h.totals.refunds_finite, h.totals.refunds⟩, h.covered⟩

theorem Covers.clearShareholders (h : e.Covers r) :
    e.clearShareholders.Covers (e.buckets.shareholderEthPending + r) := by
  obtain ⟨htotals, hcovered⟩ := h
  refine ⟨⟨htotals.kings_finite, htotals.kings, htotals.refunds_finite, htotals.refunds⟩, ?_⟩
  unfold tracked at hcovered ⊢
  dsimp only [EthBooks.clearShareholders]
  omega

/-- A settled payment uses up what it is for. -/
theorem Covers.settled {credited : EthBooks} {dst : Address} (h : e.Covers (amount + r))
    (hcredited : credited.Covers r) (hsettled : e.Settled dst amount credited e') :
    e'.Covers r := by
  obtain ⟨-, rfl⟩ | rfl := hsettled
  · exact h.pay dst
  · exact hcredited

end EthBooks

theorem Split.covers {s : CoreState} {e e' : EthBooks} {received price r : ℕ} {payer : Address}
    (h : e.Covers (received + r)) (hsplit : Split s e received price payer e') : e'.Covers r := by
  have hle := hsplit.price_le
  by_cases hking : s.game.currentKing = 0
  · obtain ⟨e₁, hprice, hrefund⟩ := hsplit.vacant hking
    have hparts : price + ((received - price) + r) = received + r := by omega
    rw [← hparts] at h
    have h₁ := h.settled h.creditShareholders hprice
    exact h₁.settled (h₁.creditRefund payer) hrefund
  · obtain ⟨share, rest, e₁, e₂, -, hsum, hshare, hrest, hrefund⟩ := hsplit.dethroned hking
    have hparts : share + (rest + ((received - price) + r)) = received + r := by omega
    rw [← hparts] at h
    have h₁ := h.settled (h.creditKing _) hshare
    have h₂ := h₁.settled h₁.creditShareholders hrest
    exact h₂.settled (h₂.creditRefund payer) hrefund

theorem KingWithdrawn.covers {e e' : EthBooks} {user : Address} {receivers : List Address}
    (h : e.Covers 0) (hdrawn : KingWithdrawn e user receivers e') : e'.Covers 0 := by
  obtain ⟨-, rfl⟩ | ⟨r, -, -, -, rfl⟩ := hdrawn
  · exact h
  · exact (h.clearKing user).pay r

/-- Every call keeps the totals and the cover of the buckets. -/
theorem EthTurn.covers {e' : EthBooks} {op : Op} (h : w.eth.Covers 0)
    (hturn : EthTurn call w e' op) : e'.Covers 0 := by
  cases op with
  | takeover r maxPrice => exact Split.covers (h.receive _) hturn
  | takeoverFor r newKing maxPrice => exact Split.covers (h.receive _) hturn
  | takeoverWithToken r swap tokenIn amountIn minEthOut maxPrice =>
      obtain ⟨ethOut, -, hsplit⟩ := hturn
      exact Split.covers (h.receive _) hsplit
  | takeoverWithTokenAndDeadline r swap tokenIn amountIn minEthOut maxPrice deadline =>
      obtain ⟨ethOut, -, hsplit⟩ := hturn
      exact Split.covers (h.receive _) hsplit
  | withdrawKingBalance accepted => exact KingWithdrawn.covers h hturn
  | withdrawKingBalanceTo dst accepted => exact KingWithdrawn.covers h hturn
  | withdrawKingBalanceFor user accepted => exact KingWithdrawn.covers h hturn
  | withdrawRefundBalance dst accepted =>
      obtain ⟨-, rfl⟩ | ⟨-, -, rfl⟩ := hturn
      · exact h
      · exact (h.clearRefund _).pay dst
  | retryPushShareholderEth rounds reply =>
      obtain ⟨-, rfl⟩ | ⟨-, rfl⟩ | rfl := hturn
      · exact h
      · exact (h.stampRetry _).clearShareholders.pay _
      · exact h.stampRetry _
  | rescueEth dst accepted =>
      obtain ⟨-, rfl⟩ | ⟨hlt, rfl⟩ := hturn
      · exact h
      · refine EthBooks.Covers.pay ⟨h.totals, ?_⟩ dst
        omega
  | _ =>
      obtain rfl := hturn
      exact h

theorem reachable_covers {c : Config S} (hc : (system port).Reachable c) :
    c.world.eth.Covers 0 := by
  refine hc.invariant (I := fun c ↦ c.world.eth.Covers 0) ?_ ?_
  · rintro c ⟨-, self, royalties, helper, owner, mainnet, hcore⟩
    have hbuckets : c.world.eth.buckets =
        (initial self royalties helper owner mainnet c.now).buckets :=
      congrArg CoreState.buckets hcore
    refine ⟨⟨?_, ?_, ?_, ?_⟩, ?_⟩
    · rw [hbuckets]
      exact finiteEntries_zero
    · rw [hbuckets]
      exact total_zero
    · rw [hbuckets]
      exact finiteEntries_zero
    · rw [hbuckets]
      exact total_zero
    · rw [EthBooks.tracked, hbuckets]
      exact Nat.zero_le _
  · rintro c c' - h hstep
    cases hstep with
    | op call op hnow hexec => exact ((exec_eth port call c.world op).of_ok hexec).covers call _ h
    | outside received furnace hnow =>
        exact ⟨h.totals, h.covered.trans (Nat.le_add_right _ received)⟩

/-- ETH is conserved.  In every reachable state the totals are the sums of the
buckets and the balance covers what is owed; and a call that returns splits, pays,
restores or rescues ETH as `EthTurn` says, so nothing is created or lost. -/
theorem eth_conserved {c : Config S} (hc : (system port).Reachable c) :
    let b := c.world.core.buckets
    (FiniteEntries b.kingEthBalance ∧ total b.kingEthBalance = b.totalKingEthOwed) ∧
    (FiniteEntries b.refundEthBalance ∧ total b.refundEthBalance = b.totalRefundEthOwed) ∧
    b.totalKingEthOwed + b.totalRefundEthOwed + b.shareholderEthPending ≤ c.world.balance ∧
    ∀ call op w, exec port call c.world op = .ok w → EthTurn call c.world w.eth op := by
  have h := reachable_covers port hc
  refine ⟨⟨h.totals.kings_finite, h.totals.kings⟩, ⟨h.totals.refunds_finite, h.totals.refunds⟩, ?_,
    fun call op w hexec ↦ (exec_eth port call c.world op).of_ok hexec⟩
  have hcovered := h.covered
  unfold EthBooks.tracked World.eth at hcovered
  dsimp only at hcovered ⊢
  omega

/-- Two takeovers, of which the second can pay neither the king nor the royalties
contract nor the refund, and a withdrawal of the king. -/
def undelivered : List (Call × Op) :=
  opening ++
    [(gameCall 93010 21 ether (Nat.succ_pos _), .takeover plainReplies ether),
      (gameCall 93040 22 ether (Nat.succ_pos _),
        .takeover { plainReplies with
          kingPaid := false, royalties := ⟨false, false⟩, refunded := false } ether),
      (gameCall 93050 21 0 (Nat.succ_pos _), .withdrawKingBalance true)]

theorem eth_conserved_undelivered :
    ∃ o, (observed VeClaimNFT.acceptingPort).Reachable o ∧
      0 < o.core.buckets.shareholderEthPending ∧
      0 < o.core.buckets.totalRefundEthOwed ∧
      total o.core.buckets.refundEthBalance = o.core.buckets.totalRefundEthOwed ∧
      o.core.buckets.totalKingEthOwed + o.core.buckets.totalRefundEthOwed +
        o.core.buckets.shareholderEthPending ≤ o.config.world.balance := by
  obtain ⟨o, ho, hlast⟩ := observed_witness VeClaimNFT.acceptingPort deployedGame undelivered
    (fun o ↦ decide (0 < o.core.buckets.shareholderEthPending ∧
      0 < o.core.buckets.totalRefundEthOwed)) deployedGame_init (by decide) (by decide +kernel)
  obtain ⟨hpending, hrefund⟩ := of_decide_eq_true hlast
  obtain ⟨-, hrefunds, hcovered, -⟩ :=
    eth_conserved VeClaimNFT.acceptingPort (observed_reachable _ ho)
  exact ⟨o, ho, hpending, hrefund, hrefunds.2, hcovered⟩

end ClaimRush.MineCore
