import ClaimRush.VeClaimNFT.Denominator
import ClaimRush.VeClaimNFT.Tables

/-!
# Principal and owners

The lock contract together with the CLAIM token, of which anybody but the
contract may call any function.  The locked principal is the sum of the live
locks and is held by the contract; the enumeration lists every live token once.
-/

open Function Relation

namespace ClaimRush.VeClaimNFT

open Constants VeState

variable {S : Type}

/-! ## Locked amounts -/

/-- CLAIM of all locks. -/
noncomputable def lockedAmount (locks : ℕ → Lock) : ℕ := total fun id ↦ (locks id).amount

theorem lockedAmount_update {locks : ℕ → Lock} (h : FiniteLocks locks) (id : ℕ) (l : Lock) :
    lockedAmount (update locks id l) + (locks id).amount = lockedAmount locks + l.amount := by
  unfold lockedAmount
  rw [comp_update_lock Lock.amount]
  exact total_update h id _

theorem lockedAmount_update_of_eq {locks : ℕ → Lock} (h : FiniteLocks locks) {id : ℕ} {l : Lock}
    (hamount : l.amount = (locks id).amount) :
    lockedAmount (update locks id l) = lockedAmount locks := by
  have hupdate := lockedAmount_update h id l
  omega

/-- The principal is accounted for, held, and out of reach of others. -/
structure Principal (w : World S) : Prop where
  locked : lockedAmount w.ve.locks = w.ve.totalLockedClaim
  held : w.ve.totalLockedClaim ≤ w.claim.balanceOf w.ve.self
  unapproved : w.claim.Unapproved w.ve.self

namespace Principal

variable {w w' : World S}

/-- The same principal under other locks. -/
theorem congr (h : Principal w) (hlocked : lockedAmount w'.ve.locks = lockedAmount w.ve.locks)
    (htotal : w'.ve.totalLockedClaim = w.ve.totalLockedClaim) (hself : w'.ve.self = w.ve.self)
    (hclaim : w'.claim = w.claim) : Principal w' := by
  refine ⟨?_, ?_, ?_⟩
  · rw [hlocked, htotal, h.locked]
  · rw [htotal, hself, hclaim]
    exact h.held
  · rw [hself, hclaim]
    exact h.unapproved

/-- One lock is rewritten with its amount. -/
theorem rewrite (h : Principal w) (hfinite : FiniteLocks w.ve.locks) {tokenId : ℕ} {l : Lock}
    (hamount : l.amount = (w.ve.locks tokenId).amount)
    (hve : (w.ve.setLock tokenId l).Follows w'.ve) (hclaim : w'.claim = w.claim) :
    Principal w' := by
  refine h.congr ?_ (hve.keeps totalLockedClaim fun _ _ ↦ rfl)
    (hve.keeps VeState.self fun _ _ ↦ rfl) hclaim
  rw [hve.keeps VeState.locks fun _ _ ↦ rfl]
  exact lockedAmount_update_of_eq hfinite hamount

/-- A payer brings the CLAIM of one lock. -/
theorem deposit (h : Principal w) (hfinite : FiniteLocks w.ve.locks) {payer : Address}
    {tokenId amount : ℕ} {l : Lock} (hpayer : payer ≠ w.ve.self)
    (hamount : l.amount = (w.ve.locks tokenId).amount + amount)
    (hlocks : w'.ve.locks = update w.ve.locks tokenId l)
    (htotal : w'.ve.totalLockedClaim = w.ve.totalLockedClaim + amount)
    (hself : w'.ve.self = w.ve.self)
    (hclaim : w.claim.transferFrom w.ve.self payer w.ve.self amount = .ok w'.claim) :
    Principal w' := by
  refine ⟨?_, ?_, ?_⟩
  · have hupdate := lockedAmount_update hfinite tokenId l
    rw [hlocks, htotal, ← h.locked]
    omega
  · have hmoved := (ClaimToken.transferFrom_eq_ok hclaim).balance_dst hpayer
    rw [htotal, hself, hmoved]
    exact Nat.add_le_add_right h.held _
  · rw [hself]
    exact (ClaimToken.transferFrom_unapproved h.unapproved hclaim).1

/-- A lock leaves with its CLAIM. -/
theorem withdraw (h : Principal w) (hfinite : FiniteLocks w.ve.locks) {tokenId : ℕ}
    {recipient : Address} (hout : Withdrawn tokenId recipient w w') : Principal w' := by
  have hlocks : w'.ve.locks = update w.ve.locks tokenId {} :=
    hout.ve.keeps VeState.locks fun _ _ ↦ rfl
  have htotal : w'.ve.totalLockedClaim = w.ve.totalLockedClaim - (w.ve.locks tokenId).amount :=
    hout.ve.keeps totalLockedClaim fun _ _ ↦ rfl
  have hself : w'.ve.self = w.ve.self := hout.ve.keeps VeState.self fun _ _ ↦ rfl
  have hle := hout.amount_le
  refine ⟨?_, ?_, ?_⟩
  · have hupdate : lockedAmount (update w.ve.locks tokenId {}) + (w.ve.locks tokenId).amount =
        lockedAmount w.ve.locks := lockedAmount_update hfinite tokenId {}
    rw [hlocks, htotal, ← h.locked]
    omega
  · have hmoved := (ClaimToken.transfer_eq_ok hout.claim).balance_src
    have hheld := h.held
    rw [htotal, hself]
    omega
  · rw [hself]
    intro spender
    rw [ClaimToken.transfer_allowance hout.claim]
    exact h.unapproved spender

/-- One lock goes into another. -/
theorem merge (h : Principal w) (hfinite : FiniteLocks w.ve.locks)
    {nowTs fromTokenId intoTokenId : ℕ}
    {user : Address} (hmerged : Merged nowTs user fromTokenId intoTokenId w w') : Principal w' := by
  refine h.congr ?_ (hmerged.ve.keeps totalLockedClaim fun _ _ ↦ rfl)
    (hmerged.ve.keeps VeState.self fun _ _ ↦ rfl) hmerged.claim
  have hlocks : w'.ve.locks = update (update w.ve.locks intoTokenId
      (mergedLock nowTs (w.ve.locks fromTokenId) (w.ve.locks intoTokenId))) fromTokenId {} :=
    hmerged.ve.keeps VeState.locks fun _ _ ↦ rfl
  have hinto := lockedAmount_update hfinite intoTokenId
    (mergedLock nowTs (w.ve.locks fromTokenId) (w.ve.locks intoTokenId))
  have hfrom := lockedAmount_update (hfinite.update intoTokenId
    (mergedLock nowTs (w.ve.locks fromTokenId) (w.ve.locks intoTokenId))) fromTokenId {}
  rw [update_of_ne hmerged.distinct] at hfrom
  have hamount : (mergedLock nowTs (w.ve.locks fromTokenId) (w.ve.locks intoTokenId)).amount =
    (w.ve.locks intoTokenId).amount + (w.ve.locks fromTokenId).amount := rfl
  have hzero : ({} : Lock).amount = 0 := rfl
  rw [hlocks]
  omega

end Principal

/-- Every operation keeps the principal. -/
theorem Op.Effect.principal {call : Call} {op : Op} {w w' : World S} (heffect : op.Effect call w w')
    (h : Principal w) (hacc : w.ve.Accounted) (hsender : call.sender ≠ w.ve.self) :
    Principal w' := by
  have hfinite := hacc.finite
  have hopen {s : VeState} (hlocks : s.locks = w.ve.locks)
      (htotal : s.totalLockedClaim = w.ve.totalLockedClaim) (hself : s.self = w.ve.self)
      (hve : s.Follows w'.ve) (hclaim : w'.claim = w.claim) : Principal w' :=
    h.congr (congrArg lockedAmount ((hve.keeps VeState.locks fun _ _ ↦ rfl).trans hlocks))
      ((hve.keeps totalLockedClaim fun _ _ ↦ rfl).trans htotal)
      ((hve.keeps VeState.self fun _ _ ↦ rfl).trans hself) hclaim
  cases op with
  | createLockFor user amount duration autoMax =>
      obtain ⟨-, hcreated⟩ := heffect
      have hlocks := hcreated.ve.keeps VeState.locks fun _ _ ↦ rfl
      refine h.deposit hfinite hsender ?_ hlocks (hcreated.ve.keeps totalLockedClaim fun _ _ ↦ rfl)
        (hcreated.ve.keeps VeState.self fun _ _ ↦ rfl) hcreated.claim
      rw [hacc.burned _ hcreated.vacant]
      exact (Nat.zero_add _).symm
  | addToLockFor user tokenId amount =>
      obtain ⟨-, htopped⟩ := heffect
      have hlocks := htopped.ve.keeps VeState.locks fun _ _ ↦ rfl
      exact h.deposit hfinite hsender rfl hlocks (htopped.ve.keeps totalLockedClaim fun _ _ ↦ rfl)
        (htopped.ve.keeps VeState.self fun _ _ ↦ rfl) htopped.claim
  | extendLockToFor user tokenId newEnd =>
      refine h.rewrite hfinite ?_ heffect.2.ve heffect.2.claim
      rfl
  | mergeLocksFor user fromTokenId intoTokenId => exact h.merge hfinite heffect.2
  | setAutoMax tokenId enabled =>
      refine h.rewrite hfinite ?_ heffect.ve heffect.claim
      unfold toggledLock
      split_ifs <;> rfl
  | unlock tokenId => exact h.withdraw hfinite heffect.toWithdrawn
  | unlockExpiredForUser user tokenId => exact h.withdraw hfinite heffect.toWithdrawn
  | furnaceBurnAndWithdraw tokenId recipient => exact h.withdraw hfinite heffect.2.2
  | transferFrom src dst tokenId => exact hopen (by rfl) (by rfl) (by rfl) heffect.ve heffect.claim
  | safeTransferFrom src dst tokenId =>
      exact hopen (by rfl) (by rfl) (by rfl) heffect.ve heffect.claim
  | setListed tokenId listed =>
      refine h.rewrite hfinite ?_ heffect.ve heffect.claim
      rfl
  | checkpointGlobalState => exact hopen rfl rfl rfl heffect.ve heffect.claim
  | setMineMarket mineMarket => exact hopen (by rfl) (by rfl) (by rfl) heffect.ve heffect.claim
  | setFurnace furnace => exact hopen (by rfl) (by rfl) (by rfl) heffect.ve heffect.claim
  | freezeConfig => exact hopen (by rfl) (by rfl) (by rfl) heffect.ve heffect.claim

/-! ## Owners -/

/-- Balances count the enumerated tokens and stay under the cap. -/
structure Headcount (s : VeState) : Prop where
  counted : ∀ u, u ≠ 0 → s.balances u = (s.ownedTokens u).length
  atMost : ∀ u, u ≠ 0 → s.balances u ≤ MAX_VE_NFTS_PER_USER

theorem length_removed (s : VeState) (src u : Address) (tokenId : ℕ) :
    ((s.removed src tokenId).ownedTokens u).length =
      if u = src then (s.ownedTokens u).length - 1 else (s.ownedTokens u).length := by
  unfold removed
  dsimp only
  by_cases hu : u = src
  · subst hu
    rw [update_self, if_pos rfl]
    split_ifs <;> simp
  · rw [update_of_ne hu, if_neg hu]

theorem length_added (s : VeState) (dst u : Address) (tokenId : ℕ) :
    ((s.addTokenToOwnerEnumeration dst tokenId).ownedTokens u).length =
      if u = dst then (s.ownedTokens u).length + 1 else (s.ownedTokens u).length := by
  unfold addTokenToOwnerEnumeration
  dsimp only
  split_ifs with hu
  · subst hu
    rw [update_self, List.length_append, List.length_singleton]
  · rw [update_of_ne hu]

namespace Headcount

variable {s s' : VeState} {dst : Address} {tokenId : ℕ}

theorem congr (h : Headcount s) (hbalances : s'.balances = s.balances)
    (htokens : s'.ownedTokens = s.ownedTokens) : Headcount s' := by
  refine ⟨fun u hu ↦ ?_, fun u hu ↦ ?_⟩
  · rw [hbalances, htokens]
    exact h.counted u hu
  · rw [hbalances]
    exact h.atMost u hu

theorem follows (h : Headcount s) (hve : s.Follows s') : Headcount s' :=
  h.congr (hve.keeps balances fun _ _ ↦ rfl) (hve.keeps ownedTokens fun _ _ ↦ rfl)

theorem minted (h : Headcount s) (hvacant : s.owners tokenId = 0) (hdst : dst ≠ 0)
    (hroom : s.balances dst < MAX_VE_NFTS_PER_USER) : Headcount (s.minted dst tokenId) := by
  have hbalance (u : Address) : (s.minted dst tokenId).balances u =
      if u = dst then s.balances u + 1 else s.balances u := by
    simp only [VeState.minted, addTokenToOwnerEnumeration, baseUpdate, hvacant, hdst, ne_eq,
      not_true_eq_false, not_false_eq_true, if_true, if_false, update_apply]
    split_ifs with hu
    · rw [hu]
    · rfl
  refine ⟨fun u hu ↦ ?_, fun u hu ↦ ?_⟩
  · have hlength := length_added (s.baseUpdate dst tokenId) dst u tokenId
    have hcounted : s.balances u = ((s.baseUpdate dst tokenId).ownedTokens u).length :=
      h.counted u hu
    rw [hbalance, hcounted]
    exact hlength.symm
  · have hle := h.atMost u hu
    rw [hbalance]
    split_ifs with heq
    · exact heq ▸ hroom
    · exact hle

theorem burned (h : Headcount s) (howner : s.owners tokenId ≠ 0) :
    Headcount (s.burned tokenId) := by
  have hbalance (u : Address) : (s.burned tokenId).balances u =
      if u = s.owners tokenId then s.balances u - 1 else s.balances u := by
    simp only [VeState.burned, VeState.removed, setLock, baseUpdate, howner, ne_eq,
      not_true_eq_false, not_false_eq_true, if_true, if_false, update_apply]
    split_ifs with hu
    · rw [hu]
    · rfl
  refine ⟨fun u hu ↦ ?_, fun u hu ↦ ?_⟩
  · have hlength := length_removed (s.baseUpdate 0 tokenId) (s.owners tokenId) u tokenId
    have hcounted : s.balances u = ((s.baseUpdate 0 tokenId).ownedTokens u).length := h.counted u hu
    rw [hbalance, hcounted]
    exact hlength.symm
  · have hle := h.atMost u hu
    rw [hbalance]
    split_ifs
    · omega
    · exact hle

theorem handed (h : Headcount s) (howner : s.owners tokenId ≠ 0) (hdst : dst ≠ 0)
    (hroom : (s.baseUpdate dst tokenId).balances dst ≤ MAX_VE_NFTS_PER_USER) :
    Headcount (s.handed dst tokenId) := by
  have hdebit (u : Address) : (update s.balances (s.owners tokenId)
      (s.balances (s.owners tokenId) - 1)) u =
        if u = s.owners tokenId then s.balances u - 1 else s.balances u := by
    rw [update_apply]
    split_ifs with hu
    · rw [hu]
    · rfl
  have hbalance (u : Address) : (s.baseUpdate dst tokenId).balances u =
      if u = dst then (if u = s.owners tokenId then s.balances u - 1 else s.balances u) + 1
      else if u = s.owners tokenId then s.balances u - 1 else s.balances u := by
    simp only [baseUpdate, howner, hdst, ne_eq, not_false_eq_true, if_true]
    rw [update_apply, hdebit, hdebit]
    split_ifs with hu hdst
    all_goals simp_all
  refine ⟨fun u hu ↦ ?_, fun u hu ↦ ?_⟩
  · have hadded := length_added
      ((s.baseUpdate dst tokenId).removed (s.owners tokenId) tokenId) dst u tokenId
    rw [length_removed] at hadded
    have hcounted : s.balances u = ((s.baseUpdate dst tokenId).ownedTokens u).length :=
      h.counted u hu
    refine (hbalance u).trans ?_
    rw [hcounted]
    exact hadded.symm
  · have hle := h.atMost u hu
    by_cases heq : u = dst
    · exact heq ▸ hroom
    · refine (hbalance u).trans_le ?_
      rw [if_neg heq]
      split_ifs
      · omega
      · exact hle

end Headcount

theorem Edited.headcount {call : Call} {op : Op} {s s' : VeState} (hedit : Edited call op s s')
    (h : Headcount s) : Headcount s' := by
  cases hedit with
  | created user l huser hroom hvacant =>
      exact (h.minted hvacant huser hroom).congr (by rfl) (by rfl)
  | relocked tokenId total l hmutable => exact h.congr (by rfl) (by rfl)
  | merged fromTokenId intoTokenId hlive hfrom hinto =>
      exact (h.burned hlive).congr (by rfl) (by rfl)
  | withdrawn tokenId hlive hunlisted => exact (h.burned hlive).congr (by rfl) (by rfl)
  | handed tokenId hsender hop hlive hfurnace hroom hunlisted => exact h.handed hlive hfurnace hroom
  | listed tokenId listed hsender hop => exact h.congr (by rfl) (by rfl)
  | rewired mineMarket furnace configFrozen => exact h.congr (by rfl) (by rfl)

/-- What a call may do to the owner of a token. -/
inductive OwnerChange (call : Call) (op : Op) (s s' : VeState) (tokenId : ℕ) : Prop
  | none (h : s'.owners tokenId = s.owners tokenId)
  | mint (hid : tokenId = s.nextTokenId) (hvacant : s.owners tokenId = 0)
      (hnext : s'.nextTokenId = tokenId + 1)
  | burn (h : s'.owners tokenId = 0)
  | sale (hsender : call.sender = s.mineMarket) (hlive : s.owners tokenId ≠ 0)
      (hop : op = .transferFrom (s.owners tokenId) s.furnace tokenId ∨
        op = .safeTransferFrom (s.owners tokenId) s.furnace tokenId)
      (h : s'.owners tokenId = s.furnace)

theorem ownerChange_of_burned {call : Call} {op : Op} {s s' : VeState} {gone : ℕ}
    (hburned : s'.owners = update s.owners gone 0) (tokenId : ℕ) :
    OwnerChange call op s s' tokenId := by
  by_cases hid : tokenId = gone
  · subst hid
    exact .burn (by rw [hburned, update_self])
  · exact .none (by rw [hburned, update_of_ne hid])

theorem Edited.ownerChange {call : Call} {op : Op} {s s' : VeState} (hedit : Edited call op s s')
    (tokenId : ℕ) : OwnerChange call op s s' tokenId := by
  cases hedit with
  | created user l huser hroom hvacant =>
      have howners : (s.created user l).owners = update s.owners s.nextTokenId user := rfl
      by_cases hid : tokenId = s.nextTokenId
      · subst hid
        exact .mint rfl hvacant rfl
      · exact .none (by rw [howners, update_of_ne hid])
  | relocked changed total l hmutable => exact .none rfl
  | merged fromTokenId intoTokenId hlive hfrom hinto => exact ownerChange_of_burned rfl tokenId
  | withdrawn gone hlive hunlisted => exact ownerChange_of_burned rfl tokenId
  | handed moved hsender hop hlive hfurnace hroom hunlisted =>
      have howners : (s.handed s.furnace moved).owners = update s.owners moved s.furnace := rfl
      by_cases hid : tokenId = moved
      · subst hid
        exact .sale hsender hlive hop (by rw [howners, update_self])
      · exact .none (by rw [howners, update_of_ne hid])
  | listed changed listed hsender hop => exact .none rfl
  | rewired mineMarket furnace configFrozen => exact .none rfl

theorem OwnerChange.follows {call : Call} {op : Op} {s s₁ s' : VeState} {tokenId : ℕ}
    (h : OwnerChange call op s s₁ tokenId) (hve : s₁.Follows s') :
    OwnerChange call op s s' tokenId := by
  obtain ⟨g, es, rfl⟩ := hve
  cases h with
  | none h => exact .none h
  | mint hid hvacant hnext => exact .mint hid hvacant hnext
  | burn h => exact .burn h
  | sale hsender hlive hop h => exact .sale hsender hlive hop h

/-- Token ids only go up, and the address of the contract is fixed. -/
theorem Edited.keeps {call : Call} {op : Op} {s s' : VeState} (hedit : Edited call op s s') :
    s.nextTokenId ≤ s'.nextTokenId ∧ s'.self = s.self := by
  cases hedit with
  | created user l huser hroom hvacant => exact ⟨Nat.le_succ _, rfl⟩
  | relocked tokenId total l hmutable => exact ⟨le_rfl, rfl⟩
  | merged fromTokenId intoTokenId hlive hfrom hinto => exact ⟨le_rfl, rfl⟩
  | withdrawn tokenId hlive hunlisted => exact ⟨le_rfl, rfl⟩
  | handed tokenId hsender hop hlive hfurnace hroom hunlisted => exact ⟨le_rfl, rfl⟩
  | listed tokenId listed hsender hop => exact ⟨le_rfl, rfl⟩
  | rewired mineMarket furnace configFrozen => exact ⟨le_rfl, rfl⟩

section Exec

variable {port : IShareholderRoyalties S} {call : Call} {op : Op} {w w' : World S}
  (hexec : exec port call w op = .ok w')
include hexec

theorem exec_headcount (h : Headcount w.ve) : Headcount w'.ve := by
  obtain ⟨s, hedit, hve⟩ := ((exec_effect port call w op).of_ok hexec).edited
  exact (hedit.headcount h).follows hve

theorem exec_ownerChange (tokenId : ℕ) : OwnerChange call op w.ve w'.ve tokenId := by
  obtain ⟨s, hedit, hve⟩ := ((exec_effect port call w op).of_ok hexec).edited
  exact (hedit.ownerChange tokenId).follows hve

theorem exec_nextTokenId_le : w.ve.nextTokenId ≤ w'.ve.nextTokenId := by
  obtain ⟨s, hedit, hve⟩ := ((exec_effect port call w op).of_ok hexec).edited
  exact hedit.keeps.1.trans_eq (hve.keeps nextTokenId fun _ _ ↦ rfl).symm

theorem exec_self : w'.ve.self = w.ve.self := by
  obtain ⟨s, hedit, hve⟩ := ((exec_effect port call w op).of_ok hexec).edited
  exact (hve.keeps VeState.self fun _ _ ↦ rfl).trans hedit.keeps.2

/-- A call takes CLAIM from its caller or pays a lock out. -/
theorem exec_spares {account : Address} (hsender : account ≠ call.sender)
    (hself : account ≠ w.ve.self) : w.claim.Spares account w'.claim := by
  have heffect := (exec_effect port call w op).of_ok hexec
  have hsame (h : w'.claim = w.claim) : w.claim.Spares account w'.claim := by
    rw [h]
    exact .refl _
  cases op with
  | createLockFor user amount duration autoMax =>
      exact ClaimToken.transferFrom_spares hsender heffect.2.claim
  | addToLockFor user tokenId amount =>
      exact ClaimToken.transferFrom_spares hsender heffect.2.claim
  | extendLockToFor user tokenId newEnd => exact hsame heffect.2.claim
  | mergeLocksFor user fromTokenId intoTokenId => exact hsame heffect.2.claim
  | setAutoMax tokenId enabled => exact hsame heffect.claim
  | unlock tokenId => exact ClaimToken.transfer_spares hself heffect.claim
  | unlockExpiredForUser user tokenId => exact ClaimToken.transfer_spares hself heffect.claim
  | furnaceBurnAndWithdraw tokenId recipient =>
      exact ClaimToken.transfer_spares hself heffect.2.2.claim
  | transferFrom src dst tokenId => exact hsame heffect.claim
  | safeTransferFrom src dst tokenId => exact hsame heffect.claim
  | setListed tokenId listed => exact hsame heffect.claim
  | checkpointGlobalState => exact hsame heffect.claim
  | setMineMarket mineMarket => exact hsame heffect.claim
  | setFurnace furnace => exact hsame heffect.claim
  | freezeConfig => exact hsame heffect.claim

end Exec

/-! ## Runs -/

/-- A call on the lock contract or on the token by anybody but the lock contract
itself, or a change of the royalties storage. -/
inductive CustodyStep (port : IShareholderRoyalties S) : Config S → Config S → Prop
  | op {c : Config S} {w : World S} (call : Call) (op : Op) (hnow : c.now ≤ call.timestamp)
      (hsender : call.sender ≠ c.world.ve.self) (hexec : exec port call c.world op = .ok w) :
      CustodyStep port c ⟨call.timestamp, w⟩
  | token {c : Config S} {claim : ClaimToken} (caller : Address) (op : ClaimToken.Op)
      (hcaller : caller ≠ c.world.ve.self) (hexec : c.world.claim.exec caller op = .ok claim) :
      CustodyStep port c ⟨c.now, { c.world with claim := claim }⟩
  | royalties (c : Config S) (royalties : S) :
      CustodyStep port c ⟨c.now, { c.world with royalties := royalties }⟩

/-- The lock contract from its deployment on, next to a token with any balances;
a new contract has approved nobody. -/
def custodySystem (port : IShareholderRoyalties S) : TransitionSystem (Config S) where
  init c := (system port).init c ∧ c.world.claim.Unapproved c.world.ve.self
  step := CustodyStep port

theorem CustodyStep.step {port : IShareholderRoyalties S} {c c' : Config S}
    (h : CustodyStep port c c') : Step port c c' := by
  cases h with
  | op call op hnow hsender hexec => exact .op call op hnow hexec
  | token caller op hcaller hexec => exact .outside c _ _
  | royalties royalties => exact .outside c _ _

theorem custody_reachable {port : IShareholderRoyalties S} {c : Config S}
    (h : (custodySystem port).Reachable c) : (system port).Reachable c := by
  induction h with
  | init h => exact .init h.1
  | step hs h ih => exact ih.step h.step

theorem reachable_principal {port : IShareholderRoyalties S} {c : Config S}
    (h : (custodySystem port).Reachable c) : Principal c.world ∧ Headcount c.world.ve := by
  refine h.invariant (I := fun c ↦ Principal c.world ∧ Headcount c.world.ve) ?_ ?_
  · rintro c ⟨⟨deployment, -, self, claimToken, owner, hve⟩, hunapproved⟩
    refine ⟨⟨?_, ?_, hunapproved⟩, ?_⟩ <;> rw [hve]
    · exact total_zero
    · exact Nat.zero_le _
    · exact ⟨fun u hu ↦ rfl, fun u hu ↦ Nat.zero_le _⟩
  · rintro c c' hreach ⟨hprincipal, hheads⟩ hstep
    cases hstep with
    | op call op hnow hsender hexec =>
        have heffect := (exec_effect port call c.world op).of_ok hexec
        have hacc := (reachable_sound (custody_reachable hreach)).accounted
        exact ⟨heffect.principal hprincipal hacc hsender, exec_headcount hexec hheads⟩
    | token caller op hcaller hexec =>
        have hkeep := (ClaimToken.exec_keeps hprincipal.unapproved hcaller op).of_ok hexec
        exact ⟨⟨hprincipal.locked, hprincipal.held.trans hkeep.1, hkeep.2⟩, hheads⟩
    | royalties royalties =>
        exact ⟨⟨hprincipal.locked, hprincipal.held, hprincipal.unapproved⟩, hheads⟩

/-- Tokens that become live during a run are minted by it, with ids that were
free before. -/
theorem minted_during {port : IShareholderRoyalties S} {c c' : Config S}
    (h : ReflTransGen (custodySystem port).step c c') :
    c.world.ve.nextTokenId ≤ c'.world.ve.nextTokenId ∧
      ∀ id, c'.world.ve.IsLive id → ¬ c.world.ve.IsLive id → c.world.ve.nextTokenId ≤ id := by
  induction h with
  | refl => exact ⟨le_rfl, fun id hlive hdead ↦ absurd hlive hdead⟩
  | tail hrun hstep ih =>
      obtain ⟨hnext, hfresh⟩ := ih
      cases hstep with
      | op call op hnow hsender hexec =>
          refine ⟨hnext.trans (exec_nextTokenId_le hexec), fun id hlive hdead ↦ ?_⟩
          cases exec_ownerChange hexec id with
          | none h => exact hfresh id (fun hzero ↦ hlive (h.trans hzero)) hdead
          | mint hid hvacant hminted => exact hid ▸ hnext
          | burn h => exact absurd h hlive
          | sale hmarket hheld hop h => exact hfresh id hheld hdead
      | token caller op hcaller hexec => exact ⟨hnext, hfresh⟩
      | royalties royalties => exact ⟨hnext, hfresh⟩

/-- In every reachable state the locked total is the sum of the live locks and
is held in CLAIM, and each live token is listed once, by its owner, at its
index, with at most 32 tokens per owner.  A run makes only fresh ids live, so no
burned id comes back, and a call changes an owner only by mint, burn, or a
transfer of the market to the Furnace. -/
theorem principal_conserved (port : IShareholderRoyalties S) (c : Config S)
    (h : (custodySystem port).Reachable c) :
    ((∑ᶠ (id) (_ : c.world.ve.IsLive id), (c.world.ve.locks id).amount) =
        c.world.ve.totalLockedClaim ∧
      c.world.ve.totalLockedClaim ≤ c.world.claim.balanceOf c.world.ve.self) ∧
    (∀ id, c.world.ve.IsLive id →
      (c.world.ve.ownedTokens (c.world.ve.owners id)).count id = 1 ∧
      (c.world.ve.ownedTokens (c.world.ve.owners id))[c.world.ve.ownedTokensIndex id]? = some id ∧
      ∀ u, id ∈ c.world.ve.ownedTokens u → u = c.world.ve.owners id) ∧
    (∀ u, (c.world.ve.ownedTokens u).length ≤ 32 ∧
      ∀ id ∈ c.world.ve.ownedTokens u, c.world.ve.IsLive id) ∧
    (∀ c', ReflTransGen (custodySystem port).step c c' →
      c.world.ve.nextTokenId ≤ c'.world.ve.nextTokenId ∧
      ∀ id, c'.world.ve.IsLive id → id < c'.world.ve.nextTokenId ∧
        (¬ c.world.ve.IsLive id → c.world.ve.nextTokenId ≤ id)) ∧
    ∀ (call : Call) (op : Op) (w : World S), exec port call c.world op = .ok w →
      ∀ id, OwnerChange call op c.world.ve w.ve id := by
  obtain ⟨hprincipal, hheads⟩ := reachable_principal h
  have hacc := (reachable_sound (custody_reachable h)).accounted
  have henum := reachable_enumerated (custody_reachable h)
  refine ⟨⟨?_, hprincipal.held⟩, fun id hlive ↦ ?_, fun u ↦ ?_, fun c' hrun ↦ ?_, ?_⟩
  · rw [← hprincipal.locked]
    refine finsum_congr fun id ↦ ?_
    by_cases hlive : c.world.ve.IsLive id
    · simp [hlive]
    · simp [hlive, hacc.burned id (not_not.mp hlive)]
  · have hmem := (henum.mem_iff _ id).mpr ⟨hlive, rfl⟩
    obtain ⟨i, hi⟩ := List.mem_iff_getElem?.mp hmem
    refine ⟨List.count_eq_one_of_mem (henum.nodup _) hmem, ?_, fun u hu ↦ ?_⟩
    · rw [henum.index_eq _ i id hi]
      exact hi
    · exact ((henum.mem_iff u id).mp hu).2.symm
  · refine ⟨?_, fun id hid ↦ ?_⟩
    · by_cases hu : u = 0
      · have hempty : c.world.ve.ownedTokens u = [] := by
          refine List.eq_nil_iff_forall_not_mem.mpr fun id hid ↦ ?_
          exact ((henum.mem_iff u id).mp hid).1 hu
        simp [hempty]
      · rw [← hheads.counted u hu]
        refine (hheads.atMost u hu).trans_eq ?_
        rw [MAX_VE_NFTS_PER_USER]
    · obtain ⟨hu, howner⟩ := (henum.mem_iff u id).mp hid
      exact fun hzero ↦ hu (howner.symm.trans hzero)
  · obtain ⟨hnext, hfresh⟩ := minted_during hrun
    have hacc' := (reachable_sound (custody_reachable (h.run hrun))).accounted
    refine ⟨hnext, fun id hlive ↦ ⟨?_, hfresh id hlive⟩⟩
    by_contra hge
    exact hlive (hacc'.fresh id (not_lt.mp hge))
  · exact fun call op w hexec ↦ exec_ownerChange hexec

/-- The bundle with a token on which the lock contract has approved nobody. -/
def custodyWorld : World Unit where
  ve := initial 1 2 9 100
  royalties := ()
  claim :=
    { self := 2, wiringProbe := 8, mineCore := 4, balanceOf := fun _ ↦ 10 ^ 24
      allowance := fun owner _ ↦ if owner = 1 then 0 else 10 ^ 24, totalSupply := 10 ^ 24 }

/-- Two locks of one account, of which the first expires and is paid out. -/
def paidOutRun : Except Error (World Unit) := do
  let w ← exec acceptingPort (bundleCall 100 9 (Nat.succ_pos _)) custodyWorld (.setFurnace 3)
  let w ← exec acceptingPort (bundleCall 200 3 (Nat.succ_pos _)) w
    (.createLockFor 7 (1500 * 10 ^ 18) 604800 false)
  let w ← exec acceptingPort (bundleCall 300 3 (Nat.succ_pos _)) w
    (.createLockFor 7 (2500 * 10 ^ 18) 31536000 true)
  exec acceptingPort (bundleCall 700000 7 (Nat.succ_pos _)) w (.unlock 1)

theorem principal_conserved_paidOut :
    ∃ w, paidOutRun = .ok w ∧ ¬ w.ve.IsLive 1 ∧ w.ve.IsLive 2 ∧
      w.ve.totalLockedClaim = 2500 * 10 ^ 18 ∧
      (∑ᶠ (id) (_ : w.ve.IsLive id), (w.ve.locks id).amount) = w.ve.totalLockedClaim := by
  have hok : (paidOutRun.toOption.any fun w ↦ w.ve.owners 1 = 0 ∧ w.ve.owners 2 = 7 ∧
      w.ve.totalLockedClaim = 2500 * 10 ^ 18 ∧ w.ve.self = 1) = true := by
    decide +kernel
  cases hrun : paidOutRun with
  | error e => simp [hrun, Except.toOption] at hok
  | ok w =>
      obtain ⟨w₁, hwire, hrest⟩ := bind_eq_ok_iff.mp hrun
      obtain ⟨w₂, hfirst, hrest⟩ := bind_eq_ok_iff.mp hrest
      obtain ⟨w₃, hsecond, hunlock⟩ := bind_eq_ok_iff.mp hrest
      have hself₁ : w₁.ve.self = 1 := exec_self hwire
      have hself₂ : w₂.ve.self = 1 := (exec_self hfirst).trans hself₁
      have hself₃ : w₃.ve.self = 1 := (exec_self hsecond).trans hself₂
      have hstart : (custodySystem acceptingPort).Reachable ⟨100, custodyWorld⟩ :=
        .init ⟨⟨bundleCall 100 9 (Nat.succ_pos _), rfl, 1, 2, 9, rfl⟩, fun _ ↦ rfl⟩
      have hwired := hstart.step
        (.op (bundleCall 100 9 (Nat.succ_pos _)) _ le_rfl (by decide) hwire)
      have hlocked := hwired.step
        (.op (bundleCall 200 3 (Nat.succ_pos _)) _ (by simp [bundleCall])
          (by simp [hself₁, bundleCall]) hfirst)
      have htwice := hlocked.step
        (.op (bundleCall 300 3 (Nat.succ_pos _)) _ (by simp [bundleCall])
          (by simp [hself₂, bundleCall]) hsecond)
      have hpaid := htwice.step
        (.op (bundleCall 700000 7 (Nat.succ_pos _)) _ (by simp [bundleCall])
          (by simp [hself₃, bundleCall]) hunlock)
      simp only [hrun, Except.toOption, Option.any_some, decide_eq_true_eq] at hok
      obtain ⟨hgone, howner, htotal, -⟩ := hok
      refine ⟨w, rfl, not_not.mpr hgone, ?_, htotal, ?_⟩
      · simp [IsLive, howner]
      · exact (principal_conserved acceptingPort _ hpaid).1.1

end ClaimRush.VeClaimNFT
