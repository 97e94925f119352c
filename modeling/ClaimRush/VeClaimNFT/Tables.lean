import ClaimRush.VeClaimNFT.Holdings

/-!
# What an operation writes

The checkpoints of an operation touch the accumulators and the log only.  On the
rest of the storage each operation is one edit of the lock table, the owner table
and the locked total, with one transfer of CLAIM; its guards come with it.
-/

open Function

namespace ClaimRush.VeClaimNFT

open Constants

/-! ## Edits -/

namespace VeState

/-- `s'` is `s` up to the accumulators and the log. -/
def Follows (s s' : VeState) : Prop := ∃ g es, s' = { s with global := g, events := es }

theorem Follows.refl (s : VeState) : Follows s s := ⟨s.global, s.events, rfl⟩

theorem Follows.trans {s s' s'' : VeState} (h : Follows s s') (h' : Follows s' s'') :
    Follows s s'' := by
  obtain ⟨g, es, rfl⟩ := h
  obtain ⟨g', es', rfl⟩ := h'
  exact ⟨g', es', rfl⟩

/-- What a getter reads from the rest of the storage. -/
theorem Follows.keeps {α : Type} {s s' : VeState} (h : s.Follows s') (f : VeState → α)
    (hf : ∀ g es, f { s with global := g, events := es } = f s) : f s' = f s := by
  obtain ⟨g, es, rfl⟩ := h
  exact hf g es

variable (s : VeState)

/-- The list of `src` without `tokenId`, the last token in its place. -/
def removed (src : Address) (tokenId : ℕ) : VeState :=
  let ids := s.ownedTokens src
  let index := s.ownedTokensIndex tokenId
  let last := ids.getD (ids.length - 1) 0
  { s with
    ownedTokensIndex :=
      if index ≠ ids.length - 1 then update s.ownedTokensIndex last index else s.ownedTokensIndex
    ownedTokens := update s.ownedTokens src
      (if index ≠ ids.length - 1 then (ids.set index last).dropLast else ids.dropLast) }

/-- A new token of `dst`. -/
def minted (dst : Address) (tokenId : ℕ) : VeState :=
  (s.baseUpdate dst tokenId).addTokenToOwnerEnumeration dst tokenId

/-- The token moves to `dst`. -/
def handed (dst : Address) (tokenId : ℕ) : VeState :=
  ((s.baseUpdate dst tokenId).removed (s.owners tokenId) tokenId).addTokenToOwnerEnumeration dst
    tokenId

/-- The token and its lock are gone. -/
def burned (tokenId : ℕ) : VeState :=
  ((s.baseUpdate 0 tokenId).removed (s.owners tokenId) tokenId).setLock tokenId {}

/-- The next token of `user`, with the lock `l`. -/
def created (user : Address) (l : Lock) : VeState :=
  let m := s.minted user s.nextTokenId
  { m with
    totalLockedClaim := s.totalLockedClaim + l.amount
    nextTokenId := s.nextTokenId + 1 }.setLock s.nextTokenId l

/-- `amount` more CLAIM in the lock of the token. -/
def toppedUp (nowTs tokenId amount : ℕ) : VeState :=
  let l := s.locks tokenId
  { s with totalLockedClaim := s.totalLockedClaim + amount }.setLock tokenId
    { l with
      amount := l.amount + amount
      lockStart := nowTs
      lockEnd := if l.autoMax then nowTs + MAX_LOCK_DURATION else l.lockEnd }

/-- The lock that a merge leaves. -/
def mergedLock (nowTs : ℕ) (fromL intoL : Lock) : Lock :=
  let newAutoMax := intoL.autoMax || fromL.autoMax
  { intoL with
    amount := intoL.amount + fromL.amount
    lockStart := nowTs
    lockEnd := if newAutoMax then nowTs + MAX_LOCK_DURATION else max fromL.lockEnd intoL.lockEnd
    autoMax := newAutoMax }

/-- The lock of `fromTokenId` goes into that of `intoTokenId`. -/
def merged (nowTs fromTokenId intoTokenId : ℕ) : VeState :=
  (s.setLock intoTokenId (mergedLock nowTs (s.locks fromTokenId) (s.locks intoTokenId))).burned
    fromTokenId

/-- The lock of the token is paid out. -/
def withdrawn (tokenId : ℕ) : VeState :=
  { s with totalLockedClaim := s.totalLockedClaim - (s.locks tokenId).amount }.burned tokenId

variable {s}

theorem removeToken_eq_ok {s' : VeState} {src : Address} {tokenId : ℕ}
    (h : s.removeTokenFromOwnerEnumeration src tokenId = .ok s') : s' = s.removed src tokenId := by
  unfold removeTokenFromOwnerEnumeration at h
  obtain ⟨last, hlast, h⟩ := bind_eq_ok_iff.mp h
  obtain ⟨-, rfl⟩ := usub_eq_ok.mp hlast
  unfold removed
  dsimp only at h ⊢
  split_ifs at h ⊢ with hindex
  · obtain ⟨_, _, h⟩ := bind_eq_ok_iff.mp h
    exact (Except.ok.inj h).symm
  · exact (Except.ok.inj h).symm

/-- The enumeration after a change of owner. -/
theorem updateEnumeration_eq_ok {s' : VeState} {src dst : Address} {tokenId : ℕ}
    (h : s.updateEnumeration src dst tokenId = .ok s') :
    (dst ≠ 0 → s.balances dst ≤ MAX_VE_NFTS_PER_USER) ∧
      (src = 0 → dst ≠ 0 → s' = s.addTokenToOwnerEnumeration dst tokenId) ∧
      (src ≠ 0 → dst = 0 → s' = s.removed src tokenId) ∧
      (src ≠ 0 → dst ≠ 0 →
        s' = (s.removed src tokenId).addTokenToOwnerEnumeration dst tokenId) := by
  unfold updateEnumeration at h
  obtain ⟨_, hroom, h⟩ := bind_eq_ok_iff.mp h
  have hroom := revertIf_eq_ok.mp hroom
  refine ⟨fun hdst ↦ not_lt.mp fun hgt ↦ hroom ⟨hdst, hgt⟩, ?_⟩
  dsimp only at h
  by_cases hsrc : src = 0
  · rw [if_neg (not_not.mpr hsrc)] at h
    have h := (Except.ok.inj h).symm
    exact ⟨fun _ hdst ↦ h.trans (if_pos hdst), fun hne ↦ absurd hsrc hne, fun hne ↦ absurd hsrc hne⟩
  · rw [if_pos hsrc] at h
    obtain ⟨m, hm, h⟩ := bind_eq_ok_iff.mp h
    obtain rfl := removeToken_eq_ok hm
    have h := (Except.ok.inj h).symm
    exact ⟨fun hzero ↦ absurd hzero hsrc, fun _ hdst ↦ h.trans (if_neg (not_not.mpr hdst)),
      fun _ hdst ↦ h.trans (if_pos hdst)⟩

theorem mint_eq_ok {s' : VeState} {dst : Address} {tokenId : ℕ} (h : s.mint dst tokenId = .ok s') :
    dst ≠ 0 ∧ s.owners tokenId = 0 ∧ s.balances dst < MAX_VE_NFTS_PER_USER ∧
      s' = s.minted dst tokenId := by
  simp only [mint, bind_eq_ok_iff, revertIf_eq_ok] at h
  obtain ⟨_, hdst, s₁, hs₁, _, howner, h⟩ := h
  have howner : s.owners tokenId = 0 := not_not.mp howner
  obtain ⟨hroom, hadd, -⟩ := updateEnumeration_eq_ok hs₁
  obtain rfl := Except.ok.inj h
  have hbalance : (s.baseUpdate dst tokenId).balances dst = s.balances dst + 1 := by
    simp [baseUpdate, howner, hdst]
  have hroom := hroom hdst
  exact ⟨hdst, howner, by omega, hadd howner hdst⟩

theorem burn_eq_ok {s' : VeState} {tokenId : ℕ} (h : s.burn tokenId = .ok s') :
    s.owners tokenId ≠ 0 ∧ s' = s.burned tokenId := by
  simp only [burn, bind_eq_ok_iff, revertIf_eq_ok] at h
  obtain ⟨s₁, hs₁, _, howner, h⟩ := h
  obtain ⟨-, -, hremove, -⟩ := updateEnumeration_eq_ok hs₁
  obtain rfl := hremove howner rfl
  exact ⟨howner, (Except.ok.inj h).symm⟩

theorem hand_eq_ok {s' : VeState} {dst : Address} {tokenId : ℕ} (howner : s.owners tokenId ≠ 0)
    (hdst : dst ≠ 0)
    (h : (s.baseUpdate dst tokenId).updateEnumeration (s.owners tokenId) dst tokenId = .ok s') :
    (s.baseUpdate dst tokenId).balances dst ≤ MAX_VE_NFTS_PER_USER ∧ s' = s.handed dst tokenId := by
  obtain ⟨hroom, -, -, hmove⟩ := updateEnumeration_eq_ok h
  exact ⟨hroom hdst, hmove howner hdst⟩

end VeState

/-! ## Guards -/

section Guards

variable {S : Type} (port : IShareholderRoyalties S) (call : Call) {w : World S} {s : VeState}

theorem requireCanonicalFurnaceCaller_eq_ok (h : requireCanonicalFurnaceCaller call s = .ok ()) :
    call.sender = s.furnace ∧ s.furnace ≠ 0 := by
  obtain ⟨_, hsender, h⟩ := bind_eq_ok_iff.mp h
  obtain ⟨_, hfurnace, -⟩ := bind_eq_ok_iff.mp h
  exact ⟨not_not.mp (revertIf_eq_ok.mp hsender), fun hzero ↦
    revertIf_eq_ok.mp hfurnace (.inl hzero)⟩

theorem requireCanonicalMineMarketCaller_eq_ok
    (h : requireCanonicalMineMarketCaller call s = .ok ()) :
    call.sender = s.mineMarket ∧ s.mineMarket ≠ 0 := by
  obtain ⟨_, hsender, h⟩ := bind_eq_ok_iff.mp h
  obtain ⟨_, hmarket, -⟩ := bind_eq_ok_iff.mp h
  exact ⟨not_not.mp (revertIf_eq_ok.mp hsender), fun hzero ↦ revertIf_eq_ok.mp hmarket (.inl hzero)⟩

/-- A lock that can be changed: not listed and not expired. -/
structure Lock.Mutable (nowTs : ℕ) (l : Lock) : Prop where
  unlisted : l.listed = false
  unexpired : l.autoMax = false → nowTs < l.lockEnd

theorem requireMutable_eq_ok {nowTs : ℕ} {l : Lock} (h : VeState.requireMutable nowTs l = .ok ()) :
    l.Mutable nowTs := by
  simp only [VeState.requireMutable, bind_eq_ok_iff, revertIf_eq_ok] at h
  obtain ⟨_, hlisted, hexpired⟩ := h
  refine ⟨by simpa using hlisted, fun hauto ↦ ?_⟩
  simpa [hauto] using hexpired

theorem requireOwnedLock_eq_ok {tokenId : ℕ} {user : Address} {l : Lock}
    (h : s.requireOwnedLock tokenId user = .ok l) :
    s.owners tokenId = user ∧ l = s.locks tokenId := by
  obtain ⟨_, howner, h⟩ := bind_eq_ok_iff.mp h
  exact ⟨not_not.mp (revertIf_eq_ok.mp howner), (Except.ok.inj h).symm⟩

theorem checkpointGlobal_follows (s : VeState) (nowTs : ℕ) :
    Returns (s.Follows ·) (s.checkpointGlobalStateInternal nowTs) :=
  Returns.seq fun _ _ ↦ ⟨_, _, rfl⟩

/-- `w'` is `w` up to the accumulators, the log and the royalties storage. -/
structure Opens (w w' : World S) : Prop where
  ve : w.ve.Follows w'.ve
  claim : w'.claim = w.claim

theorem beginMutation_opens (w : World S) (user : Address) :
    Returns (Opens w) (beginMutation port call w user) := by
  refine Outcome.bind (checkpointGlobal_follows w.ve call.timestamp) fun s hs ↦ ?_
  refine (Returns.of_outcome (checkpointShareholderRoyalties_spec port call user)).weaken ?_
  rintro w' ⟨hve, hclaim⟩
  exact ⟨hve ▸ hs, hclaim⟩

theorem bestEffort_opens (w : World S) (user : Address) :
    Opens w (checkpointShareholderRoyaltiesBestEffort call port w user) := by
  unfold checkpointShareholderRoyaltiesBestEffort
  dsimp only
  split_ifs
  · exact ⟨.refl _, rfl⟩
  · split
    · exact ⟨.refl _, rfl⟩
    · exact ⟨⟨w.ve.global, _, rfl⟩, rfl⟩

theorem refreshedEnd_eq_ok {nowTs lockEnd e : ℕ} {autoMax : Bool}
    (h : refreshedEnd nowTs lockEnd autoMax = .ok e) :
    e = if autoMax then nowTs + MAX_LOCK_DURATION else lockEnd := by
  unfold refreshedEnd at h
  split_ifs at h ⊢
  · exact (uint256_eq_ok.mp h).2.symm
  · exact (Except.ok.inj h).symm

end Guards

/-! ## Effects -/

section Effects

variable {S : Type}

/-- `createLock` with `lockEnd` as written. -/
structure Created (nowTs : ℕ) (payer user : Address) (amount duration : ℕ) (autoMax : Bool)
    (w w' : World S) : Prop where
  user_ne : user ≠ 0
  amount_ge : MIN_LOCK_AMOUNT ≤ amount
  duration_ge : MIN_LOCK_DURATION ≤ duration
  duration_le : duration ≤ MAX_LOCK_DURATION
  autoMax_duration : autoMax = true → duration = MAX_LOCK_DURATION
  room : w.ve.balances user < MAX_VE_NFTS_PER_USER
  vacant : w.ve.owners w.ve.nextTokenId = 0
  ve : (w.ve.created user
    { amount := amount, lockStart := nowTs, lockEnd := nowTs + duration,
      autoMax := autoMax }).Follows
    w'.ve
  claim : w.claim.transferFrom w.ve.self payer w.ve.self amount = .ok w'.claim

structure ToppedUp (nowTs : ℕ) (payer user : Address) (tokenId amount : ℕ) (w w' : World S) :
    Prop where
  user_ne : user ≠ 0
  amount_ge : MIN_TOPUP_AMOUNT ≤ amount
  owner : w.ve.owners tokenId = user
  mutable : (w.ve.locks tokenId).Mutable nowTs
  ve : (w.ve.toppedUp nowTs tokenId amount).Follows w'.ve
  claim : w.claim.transferFrom w.ve.self payer w.ve.self amount = .ok w'.claim

/-- The end that an extension writes. -/
def extendedEnd (nowTs newEnd : ℕ) (l : Lock) : ℕ :=
  if l.autoMax then nowTs + MAX_LOCK_DURATION else newEnd

structure Extended (nowTs : ℕ) (user : Address) (tokenId newEnd : ℕ) (w w' : World S) : Prop where
  user_ne : user ≠ 0
  owner : w.ve.owners tokenId = user
  mutable : (w.ve.locks tokenId).Mutable nowTs
  later : (w.ve.locks tokenId).autoMax = false →
    (w.ve.locks tokenId).lockEnd < newEnd ∧ newEnd ≤ nowTs + MAX_LOCK_DURATION
  ve : (w.ve.setLock tokenId { w.ve.locks tokenId with
    lockStart := nowTs
    lockEnd := extendedEnd nowTs newEnd (w.ve.locks tokenId) }).Follows w'.ve
  claim : w'.claim = w.claim

structure Merged (nowTs : ℕ) (user : Address) (fromTokenId intoTokenId : ℕ) (w w' : World S) :
    Prop where
  distinct : fromTokenId ≠ intoTokenId
  from_owner : w.ve.owners fromTokenId = user
  into_owner : w.ve.owners intoTokenId = user
  user_ne : user ≠ 0
  from_mutable : (w.ve.locks fromTokenId).Mutable nowTs
  into_mutable : (w.ve.locks intoTokenId).Mutable nowTs
  ve : (w.ve.merged nowTs fromTokenId intoTokenId).Follows w'.ve
  claim : w'.claim = w.claim

/-- The lock that `setAutoMax` leaves; disabling a lock that is not AutoMax is
no change. -/
def toggledLock (nowTs : ℕ) (enabled : Bool) (l : Lock) : Lock :=
  if l.autoMax = false ∧ enabled = false then l
  else { l with autoMax := enabled, lockEnd := nowTs + MAX_LOCK_DURATION, lockStart := nowTs }

structure Toggled (nowTs : ℕ) (user : Address) (tokenId : ℕ) (enabled : Bool) (w w' : World S) :
    Prop where
  owner : w.ve.owners tokenId = user
  mutable : (w.ve.locks tokenId).Mutable nowTs
  ve : (w.ve.setLock tokenId (toggledLock nowTs enabled (w.ve.locks tokenId))).Follows w'.ve
  claim : w'.claim = w.claim

/-- A lock leaves the contract with its CLAIM. -/
structure Withdrawn (tokenId : ℕ) (recipient : Address) (w w' : World S) : Prop where
  unlisted : (w.ve.locks tokenId).listed = false
  amount_ne : (w.ve.locks tokenId).amount ≠ 0
  amount_le : (w.ve.locks tokenId).amount ≤ w.ve.totalLockedClaim
  owner_ne : w.ve.owners tokenId ≠ 0
  ve : (w.ve.withdrawn tokenId).Follows w'.ve
  claim : w.claim.transfer w.ve.self recipient (w.ve.locks tokenId).amount = .ok w'.claim

/-- An expired lock is paid out. -/
structure Unlocked (nowTs : ℕ) (tokenOwner : Address) (tokenId : ℕ) (recipient : Address)
    (w w' : World S) : Prop extends Withdrawn tokenId recipient w w' where
  owner : w.ve.owners tokenId = tokenOwner
  decaying : (w.ve.locks tokenId).autoMax = false
  expired : (w.ve.locks tokenId).lockEnd ≤ nowTs

/-- The market hands a token to the Furnace. -/
structure Handed (sender src dst : Address) (tokenId : ℕ) (w w' : World S) : Prop where
  sender : sender = w.ve.mineMarket
  owner : w.ve.owners tokenId = src
  src_ne : src ≠ 0
  dst_eq : dst = w.ve.furnace
  dst_ne : dst ≠ 0
  room : (w.ve.baseUpdate dst tokenId).balances dst ≤ MAX_VE_NFTS_PER_USER
  unlisted : (w.ve.locks tokenId).listed = false
  ve : (w.ve.handed dst tokenId).Follows w'.ve
  claim : w'.claim = w.claim

/-- The market lists or delists a token. -/
structure Listed (nowTs : ℕ) (sender : Address) (tokenId : ℕ) (listed : Bool) (w w' : World S) :
    Prop where
  sender : sender = w.ve.mineMarket
  owner_ne : w.ve.owners tokenId ≠ 0
  unlisted : listed = true → (w.ve.locks tokenId).Mutable nowTs
  ve : (w.ve.setLock tokenId { w.ve.locks tokenId with listed := listed }).Follows w'.ve
  claim : w'.claim = w.claim

variable (port : IShareholderRoyalties S) (call : Call) (w : World S)

theorem createLock_effect (payer user : Address) (amount duration : ℕ) (autoMax : Bool) :
    Returns (Created call.timestamp payer user amount duration autoMax w)
      (createLock port call w payer user amount duration autoMax) := by
  unfold createLock
  refine Returns.guard fun huser ↦ Returns.guard fun _ ↦ Returns.guard fun hamount ↦ ?_
  refine Returns.guard fun hduration ↦ Returns.guard fun hauto ↦ Returns.guard fun hroom ↦ ?_
  refine Returns.seq fun lockEnd hend ↦ ?_
  obtain ⟨-, rfl⟩ := uint256_eq_ok.mp hend
  obtain ⟨hge, hle⟩ := not_or.mp hduration
  have hauto : autoMax = true → duration = MAX_LOCK_DURATION := fun h ↦
    not_not.mp fun hne ↦ hauto ⟨h, hne⟩
  have hchosen : (if autoMax = true then MAX_LOCK_DURATION else duration) = duration := by
    split_ifs with h
    · exact (hauto h).symm
    · rfl
  rw [hchosen]
  refine Outcome.bind (beginMutation_opens port call w user) ?_
  rintro ⟨ve, royalties, claim⟩ ⟨⟨g, es, rfl⟩, rfl⟩
  refine Returns.guard fun _ ↦ Returns.seq fun g' _ ↦ ?_
  refine Returns.seq fun total htotal ↦ Returns.seq fun next hnext ↦ ?_
  obtain ⟨-, rfl⟩ := uint256_eq_ok.mp htotal
  obtain ⟨-, rfl⟩ := uint256_eq_ok.mp hnext
  refine Returns.seq fun m hm ↦ Returns.seq fun claim hclaim ↦ ?_
  obtain ⟨-, hvacant, -, rfl⟩ := VeState.mint_eq_ok hm
  refine ⟨huser, not_lt.mp hamount, not_lt.mp hge, not_lt.mp hle, hauto, not_le.mp hroom, hvacant,
    ?_, ?_⟩
  · rw [pinShareholderObservedMin_ve]
    exact ⟨_, _, rfl⟩
  · rw [pinShareholderObservedMin_claim]
    exact hclaim

theorem addToLock_effect (payer user : Address) (tokenId amount : ℕ) :
    Returns (ToppedUp call.timestamp payer user tokenId amount w)
      (addToLock port call w payer user tokenId amount) := by
  unfold addToLock
  refine Returns.guard fun huser ↦ Returns.guard fun _ ↦ Returns.guard fun hamount ↦ ?_
  refine Returns.guard fun howner ↦ Returns.seq fun _ hmutable ↦ ?_
  refine Outcome.bind (beginMutation_opens port call w user) ?_
  rintro ⟨ve, royalties, claim⟩ ⟨⟨g, es, rfl⟩, rfl⟩
  refine Returns.guard fun _ ↦ Returns.seq fun newAmt hnew ↦ Returns.seq fun lockEnd hend ↦ ?_
  obtain ⟨-, rfl⟩ := uint256_eq_ok.mp hnew
  obtain rfl := refreshedEnd_eq_ok hend
  refine Returns.seq fun g' _ ↦ Returns.seq fun total htotal ↦ ?_
  obtain ⟨-, rfl⟩ := uint256_eq_ok.mp htotal
  refine Returns.seq fun claim hclaim ↦ ?_
  refine ⟨huser, not_lt.mp hamount, not_not.mp howner, requireMutable_eq_ok hmutable, ?_, ?_⟩
  · rw [pinShareholderObservedMin_ve]
    exact ⟨_, _, rfl⟩
  · rw [pinShareholderObservedMin_claim]
    exact hclaim

theorem extendLockToFor_effect (user : Address) (tokenId newEnd : ℕ) :
    Returns (fun w' ↦ call.sender = w.ve.furnace ∧ Extended call.timestamp user tokenId newEnd w w')
      (extendLockToFor port call w user tokenId newEnd) := by
  unfold extendLockToFor
  refine Returns.seq fun _ hcaller ↦ Returns.guard fun huser ↦ Returns.guard fun howner ↦ ?_
  have hsender := (requireCanonicalFurnaceCaller_eq_ok call hcaller).1
  refine Returns.seq fun _ hmutable ↦ ?_
  have hmutable := requireMutable_eq_ok hmutable
  refine Returns.ite (fun hauto ↦ ?_) fun hdecay ↦ ?_
  · refine Outcome.bind (beginMutation_opens port call w user) ?_
    rintro ⟨ve, royalties, claim⟩ ⟨⟨g, es, rfl⟩, rfl⟩
    refine Returns.seq fun targetEnd htarget ↦ ?_
    obtain ⟨-, rfl⟩ := uint256_eq_ok.mp htarget
    refine ⟨hsender, huser, not_not.mp howner, hmutable, fun h ↦ ?_, ?_, rfl⟩
    · rw [hauto] at h
      cases h
    · rw [extendedEnd, if_pos hauto]
      exact ⟨_, _, rfl⟩
  · refine Returns.guard fun hlater ↦ Returns.seq fun maxEnd hmax ↦ Returns.guard fun hle ↦ ?_
    obtain ⟨-, rfl⟩ := uint256_eq_ok.mp hmax
    unfold extendLockToInternal
    refine Returns.guard fun _ ↦ ?_
    refine Outcome.bind (beginMutation_opens port call w user) ?_
    rintro ⟨ve, royalties, claim⟩ ⟨⟨g, es, rfl⟩, rfl⟩
    refine Returns.guard fun _ ↦ Returns.seq fun g' _ ↦ ?_
    refine ⟨hsender, huser, not_not.mp howner, hmutable,
      fun _ ↦ ⟨not_le.mp hlater, not_lt.mp hle⟩, ?_, ?_⟩
    · rw [pinShareholderObservedMin_ve, extendedEnd, if_neg hdecay]
      exact ⟨_, _, rfl⟩
    · rw [pinShareholderObservedMin_claim]

theorem mergeLocksInternal_effect (user : Address) (fromTokenId intoTokenId : ℕ) :
    Returns (Merged call.timestamp user fromTokenId intoTokenId w)
      (mergeLocksInternal port call w user fromTokenId intoTokenId) := by
  unfold mergeLocksInternal
  refine Returns.guard fun hdistinct ↦ Returns.seq fun fromL hfrom ↦
    Returns.seq fun intoL hinto ↦ ?_
  obtain ⟨hfromOwner, rfl⟩ := requireOwnedLock_eq_ok hfrom
  obtain ⟨hintoOwner, rfl⟩ := requireOwnedLock_eq_ok hinto
  refine Returns.seq fun _ hfromMutable ↦ Returns.seq fun _ hintoMutable ↦ ?_
  refine Outcome.bind (beginMutation_opens port call w user) ?_
  rintro ⟨ve, royalties, claim⟩ ⟨⟨g, es, rfl⟩, rfl⟩
  refine Returns.guard fun _ ↦ Returns.seq fun newAmt hnew ↦ Returns.seq fun newEnd hend ↦ ?_
  obtain ⟨-, rfl⟩ := uint256_eq_ok.mp hnew
  obtain rfl := refreshedEnd_eq_ok hend
  refine Returns.seq fun g' _ ↦ Returns.seq fun m hm ↦ ?_
  obtain ⟨hlive, rfl⟩ := VeState.burn_eq_ok hm
  have hlive : w.ve.owners fromTokenId ≠ 0 := hlive
  refine ⟨hdistinct, hfromOwner, hintoOwner, hfromOwner ▸ hlive, requireMutable_eq_ok hfromMutable,
    requireMutable_eq_ok hintoMutable, ?_, ?_⟩
  · have hlonger : (if (w.ve.locks intoTokenId).lockEnd ≥ (w.ve.locks fromTokenId).lockEnd then
        (w.ve.locks intoTokenId).lockEnd else (w.ve.locks fromTokenId).lockEnd) =
        max (w.ve.locks fromTokenId).lockEnd (w.ve.locks intoTokenId).lockEnd :=
      (max_def _ _).symm
    rw [pinShareholderObservedMin_ve]
    simp only [hlonger]
    exact ⟨_, _, rfl⟩
  · rw [pinShareholderObservedMin_claim]

theorem setAutoMax_effect (tokenId : ℕ) (enabled : Bool) :
    Returns (Toggled call.timestamp call.sender tokenId enabled w)
      (setAutoMax port call w tokenId enabled) := by
  unfold setAutoMax
  refine Returns.seq fun l hl ↦ ?_
  obtain ⟨howner, rfl⟩ := requireOwnedLock_eq_ok hl
  refine Returns.seq fun _ hmutable ↦ ?_
  have hmutable := requireMutable_eq_ok hmutable
  have hchanged (h : ¬ ((w.ve.locks tokenId).autoMax = false ∧ enabled = false)) :
      toggledLock call.timestamp enabled (w.ve.locks tokenId) =
        { w.ve.locks tokenId with
          autoMax := enabled
          lockEnd := call.timestamp + MAX_LOCK_DURATION
          lockStart := call.timestamp } := if_neg h
  refine Returns.ite (fun hsame ↦ Returns.ite (fun hon ↦ ?_) fun hoff ↦ ?_) fun hother ↦ ?_
  · refine Outcome.bind (beginMutation_opens port call w call.sender) ?_
    rintro ⟨ve, royalties, claim⟩ ⟨⟨g, es, rfl⟩, rfl⟩
    refine Returns.guard fun _ ↦ Returns.seq fun lockEnd hend ↦ ?_
    obtain ⟨-, rfl⟩ := uint256_eq_ok.mp hend
    refine ⟨howner, hmutable, ?_, rfl⟩
    rw [hchanged fun h ↦ by simp [hon] at h, ← hsame]
    exact ⟨_, _, rfl⟩
  · refine ⟨howner, hmutable, ?_, rfl⟩
    have hoff : enabled = false := by simpa using hoff
    rw [toggledLock, if_pos ⟨hsame.trans hoff, hoff⟩, VeState.setLock, update_eq_self]
    exact .refl _
  · refine Outcome.bind (beginMutation_opens port call w call.sender) ?_
    rintro ⟨ve, royalties, claim⟩ ⟨⟨g, es, rfl⟩, rfl⟩
    refine Returns.guard fun _ ↦ Returns.seq fun newEnd hend ↦ ?_
    obtain ⟨-, rfl⟩ := uint256_eq_ok.mp hend
    refine Returns.seq fun g' _ ↦ ⟨howner, hmutable, ?_, ?_⟩
    · rw [pinShareholderObservedMin_ve, hchanged fun h ↦ hother (h.1.trans h.2.symm)]
      exact ⟨_, _, rfl⟩
    · rw [pinShareholderObservedMin_claim]

theorem unlockTo_effect (tokenOwner : Address) (tokenId : ℕ) (recipient : Address) :
    Returns (Unlocked call.timestamp tokenOwner tokenId recipient w)
      (unlockTo port call w tokenOwner tokenId recipient) := by
  unfold unlockTo
  refine Returns.guard fun _ ↦ Returns.seq fun l hl ↦ ?_
  obtain ⟨howner, rfl⟩ := requireOwnedLock_eq_ok hl
  refine Returns.guard fun hlisted ↦ Returns.guard fun hauto ↦ Returns.guard fun hexpired ↦ ?_
  refine Outcome.bind (beginMutation_opens port call w tokenOwner) ?_
  rintro ⟨ve, royalties, claim⟩ ⟨⟨g, es, rfl⟩, rfl⟩
  refine Returns.guard fun hamount ↦ Returns.seq fun g' _ ↦ Returns.seq fun total htotal ↦ ?_
  obtain ⟨hle, rfl⟩ := usub_eq_ok.mp htotal
  refine Returns.seq fun m hm ↦ Returns.seq fun claim hclaim ↦ ?_
  obtain ⟨hlive, rfl⟩ := VeState.burn_eq_ok hm
  rw [pinShareholderObservedMin_ve, pinShareholderObservedMin_claim] at hclaim
  refine ⟨⟨by simpa using hlisted, hamount, hle, hlive, ?_, hclaim⟩, howner, by simpa using hauto,
    not_lt.mp hexpired⟩
  dsimp only
  rw [pinShareholderObservedMin_ve]
  exact ⟨_, _, rfl⟩

theorem furnaceBurnAndWithdraw_effect (tokenId : ℕ) (recipient : Address) :
    Returns (fun w' ↦ call.sender = w.ve.furnace ∧ w.ve.owners tokenId = w.ve.furnace ∧
        Withdrawn tokenId recipient w w')
      (furnaceBurnAndWithdraw port call w tokenId recipient) := by
  unfold furnaceBurnAndWithdraw
  refine Returns.seq fun _ hcaller ↦ Returns.guard fun _ ↦ Returns.guard fun howner ↦ ?_
  have hsender := (requireCanonicalFurnaceCaller_eq_ok call hcaller).1
  refine Returns.guard fun hlisted ↦ ?_
  refine Outcome.bind (checkpointGlobal_follows w.ve call.timestamp) ?_
  rintro ve ⟨g, es, rfl⟩
  have hopens := bestEffort_opens port call
    { w with ve := { w.ve with global := g, events := es } } w.ve.furnace
  revert hopens
  dsimp only
  generalize checkpointShareholderRoyaltiesBestEffort call port
    { w with ve := { w.ve with global := g, events := es } } w.ve.furnace = w₁
  intro hopens
  obtain ⟨ve, royalties, claim⟩ := w₁
  obtain ⟨⟨g, es, rfl⟩, rfl⟩ := hopens
  refine Returns.guard fun hamount ↦ Returns.seq fun g' _ ↦ Returns.seq fun total htotal ↦ ?_
  obtain ⟨hle, rfl⟩ := usub_eq_ok.mp htotal
  refine Returns.seq fun m hm ↦ Returns.seq fun claim hclaim ↦ ?_
  obtain ⟨hlive, rfl⟩ := VeState.burn_eq_ok hm
  rw [pinShareholderObservedMin_ve, pinShareholderObservedMin_claim] at hclaim
  refine ⟨hsender, not_not.mp howner, by simpa using hlisted, hamount, hle, hlive, ?_, hclaim⟩
  dsimp only
  rw [pinShareholderObservedMin_ve]
  exact ⟨_, _, rfl⟩

theorem transferFrom_effect (src dst : Address) (tokenId : ℕ) :
    Returns (Handed call.sender src dst tokenId w) (transferFrom port call w src dst tokenId) := by
  unfold transferFrom
  refine Returns.guard fun hdst ↦ Returns.guard fun hlive ↦ ?_
  refine Outcome.bind (checkpointGlobal_follows w.ve call.timestamp) ?_
  rintro ve ⟨g, es, rfl⟩
  refine Returns.guard fun _ ↦ ?_
  refine Outcome.bind (Returns.of_outcome (checkpointShareholderRoyalties_spec port call _)) ?_
  rintro ⟨ve, royalties, claim⟩ ⟨rfl, rfl⟩
  refine Outcome.bind (Returns.of_outcome (checkpointShareholderRoyalties_spec port call _)) ?_
  rintro ⟨ve, royalties, claim⟩ ⟨rfl, rfl⟩
  refine Returns.seq fun _ hcaller ↦ Returns.guard fun hfurnace ↦ Returns.guard fun hlisted ↦ ?_
  have hsender := (requireCanonicalMineMarketCaller_eq_ok call hcaller).1
  refine Returns.seq fun m hm ↦ ?_
  obtain ⟨hroom, rfl⟩ :=
    VeState.hand_eq_ok (s := { w.ve with global := g, events := es }) hlive hdst hm
  refine Returns.guard fun hsrc ↦ ?_
  have hsrc : w.ve.owners tokenId = src := not_not.mp hsrc
  refine ⟨hsender, hsrc, hsrc ▸ hlive, not_not.mp hfurnace, hdst,
    hroom, by simpa using hlisted, ?_, ?_⟩
  · rw [pinShareholderObservedMin_ve, pinShareholderObservedMin_ve]
    exact ⟨_, _, rfl⟩
  · rw [pinShareholderObservedMin_claim, pinShareholderObservedMin_claim]

theorem setListed_effect (tokenId : ℕ) (listed : Bool) :
    Returns (Listed call.timestamp call.sender tokenId listed w)
    (setListed call w tokenId listed) := by
  unfold setListed
  refine Returns.seq fun _ hcaller ↦ Returns.guard fun hlive ↦ ?_
  have hsender := (requireCanonicalMineMarketCaller_eq_ok call hcaller).1
  refine Returns.ite (fun hlist ↦ ?_) fun hdelist ↦ ?_
  · refine Returns.guard fun hexpired ↦ Returns.guard fun hlisted ↦ ?_
    refine ⟨hsender, hlive, fun _ ↦ ⟨by simpa using hlisted, fun hauto ↦ ?_⟩, ?_, rfl⟩
    · simpa [hauto] using hexpired
    · rw [hlist]
      exact ⟨_, _, rfl⟩
  · have hdelist : listed = false := by simpa using hdelist
    refine ⟨hsender, hlive, fun h ↦ absurd (hdelist.symm.trans h) (by simp), ?_, rfl⟩
    rw [hdelist]
    exact ⟨_, _, rfl⟩

/-- A change of the wiring. -/
structure Rewired (w w' : World S) : Prop where
  ve : VeState.Follows { w.ve with
    mineMarket := w'.ve.mineMarket
    furnace := w'.ve.furnace
    configFrozen := w'.ve.configFrozen } w'.ve
  claim : w'.claim = w.claim

/-- What an operation of the lock contract does. -/
def Op.Effect (call : Call) (w w' : World S) : Op → Prop
  | .createLockFor user amount duration autoMax =>
      call.sender = w.ve.furnace ∧
        Created call.timestamp call.sender user amount duration autoMax w w'
  | .addToLockFor user tokenId amount =>
      call.sender = w.ve.furnace ∧ ToppedUp call.timestamp call.sender user tokenId amount w w'
  | .extendLockToFor user tokenId newEnd =>
      call.sender = w.ve.furnace ∧ Extended call.timestamp user tokenId newEnd w w'
  | .mergeLocksFor user fromTokenId intoTokenId =>
      call.sender = w.ve.furnace ∧ Merged call.timestamp user fromTokenId intoTokenId w w'
  | .setAutoMax tokenId enabled => Toggled call.timestamp call.sender tokenId enabled w w'
  | .unlock tokenId => Unlocked call.timestamp call.sender tokenId call.sender w w'
  | .unlockExpiredForUser user tokenId => Unlocked call.timestamp user tokenId user w w'
  | .furnaceBurnAndWithdraw tokenId recipient =>
      call.sender = w.ve.furnace ∧ w.ve.owners tokenId = w.ve.furnace ∧
        Withdrawn tokenId recipient w w'
  | .transferFrom src dst tokenId => Handed call.sender src dst tokenId w w'
  | .safeTransferFrom src dst tokenId => Handed call.sender src dst tokenId w w'
  | .setListed tokenId listed => Listed call.timestamp call.sender tokenId listed w w'
  | .checkpointGlobalState => Opens w w'
  | .setMineMarket _ => Rewired w w'
  | .setFurnace _ => Rewired w w'
  | .freezeConfig => Rewired w w'

theorem exec_effect (op : Op) : Returns (op.Effect call w) (exec port call w op) := by
  cases op with
  | createLockFor user amount duration autoMax =>
      refine Returns.seq fun _ hcaller ↦ ?_
      exact (createLock_effect port call w _ _ _ _ _).weaken fun _ h ↦
        ⟨(requireCanonicalFurnaceCaller_eq_ok call hcaller).1, h⟩
  | addToLockFor user tokenId amount =>
      refine Returns.seq fun _ hcaller ↦ ?_
      exact (addToLock_effect port call w _ _ _ _).weaken fun _ h ↦
        ⟨(requireCanonicalFurnaceCaller_eq_ok call hcaller).1, h⟩
  | extendLockToFor user tokenId newEnd => exact extendLockToFor_effect port call w _ _ _
  | mergeLocksFor user fromTokenId intoTokenId =>
      refine Returns.seq fun _ hcaller ↦ ?_
      exact (mergeLocksInternal_effect port call w _ _ _).weaken fun _ h ↦
        ⟨(requireCanonicalFurnaceCaller_eq_ok call hcaller).1, h⟩
  | setAutoMax tokenId enabled => exact setAutoMax_effect port call w _ _
  | unlock tokenId => exact unlockTo_effect port call w _ _ _
  | unlockExpiredForUser user tokenId =>
      refine Returns.seq fun _ _ ↦ Outcome.bind (unlockTo_effect port call w _ _ _) fun w' h ↦ ?_
      exact ⟨{ h.toWithdrawn with ve := h.ve.trans ⟨_, _, rfl⟩ }, h.owner, h.decaying, h.expired⟩
  | furnaceBurnAndWithdraw tokenId recipient =>
      exact furnaceBurnAndWithdraw_effect port call w _ _
  | transferFrom src dst tokenId => exact transferFrom_effect port call w _ _ _
  | safeTransferFrom src dst tokenId =>
      exact Outcome.bind (transferFrom_effect port call w _ _ _) fun w' h ↦ Returns.guard fun _ ↦ h
  | setListed tokenId listed => exact setListed_effect call w _ _
  | checkpointGlobalState =>
      exact Outcome.bind (checkpointGlobal_follows w.ve call.timestamp) fun s hs ↦ ⟨hs, rfl⟩
  | setMineMarket mineMarket =>
      refine Returns.guard fun _ ↦ Returns.guard fun _ ↦ Returns.guard fun _ ↦ ?_
      refine Returns.guard fun _ ↦ Returns.guard fun _ ↦ Returns.seq fun _ _ ↦ ?_
      exact ⟨⟨_, _, rfl⟩, rfl⟩
  | setFurnace furnace =>
      refine Returns.guard fun _ ↦ Returns.guard fun _ ↦ Returns.guard fun _ ↦ ?_
      refine Returns.guard fun _ ↦ Returns.guard fun _ ↦ Returns.seq fun _ _ ↦ ?_
      exact ⟨⟨_, _, rfl⟩, rfl⟩
  | freezeConfig =>
      have hfrozen : Rewired w
          { w with ve := { w.ve with configFrozen := true }.emit .ConfigFrozen } :=
        ⟨⟨_, _, rfl⟩, rfl⟩
      refine Returns.guard fun _ ↦ Returns.guard fun _ ↦ Returns.guard fun _ ↦ ?_
      refine Returns.guard fun _ ↦ Returns.seq fun _ _ ↦ Returns.guard fun _ ↦ ?_
      refine Returns.seq fun sr _ ↦ Returns.ite (fun _ ↦ ?_) fun _ ↦ hfrozen
      exact Returns.guard fun _ ↦ Returns.guard fun _ ↦ hfrozen

/-- The kinds of edit that operations make. -/
inductive Edited (call : Call) (op : Op) (s : VeState) : VeState → Prop
  | created (user : Address) (l : Lock) (huser : user ≠ 0)
      (hroom : s.balances user < MAX_VE_NFTS_PER_USER) (hvacant : s.owners s.nextTokenId = 0) :
      Edited call op s (s.created user l)
  | relocked (tokenId total : ℕ) (l : Lock) (hmutable : (s.locks tokenId).Mutable call.timestamp) :
      Edited call op s ({ s with totalLockedClaim := total }.setLock tokenId l)
  | merged (fromTokenId intoTokenId : ℕ) (hlive : s.owners fromTokenId ≠ 0)
      (hfrom : (s.locks fromTokenId).Mutable call.timestamp)
      (hinto : (s.locks intoTokenId).Mutable call.timestamp) :
      Edited call op s (s.merged call.timestamp fromTokenId intoTokenId)
  | withdrawn (tokenId : ℕ) (hlive : s.owners tokenId ≠ 0)
      (hunlisted : (s.locks tokenId).listed = false) : Edited call op s (s.withdrawn tokenId)
  | handed (tokenId : ℕ) (hsender : call.sender = s.mineMarket)
      (hop : op = .transferFrom (s.owners tokenId) s.furnace tokenId ∨
        op = .safeTransferFrom (s.owners tokenId) s.furnace tokenId)
      (hlive : s.owners tokenId ≠ 0) (hfurnace : s.furnace ≠ 0)
      (hroom : (s.baseUpdate s.furnace tokenId).balances s.furnace ≤ MAX_VE_NFTS_PER_USER)
      (hunlisted : (s.locks tokenId).listed = false) : Edited call op s (s.handed s.furnace tokenId)
  | listed (tokenId : ℕ) (listed : Bool) (hsender : call.sender = s.mineMarket)
      (hop : op = .setListed tokenId listed) :
      Edited call op s (s.setLock tokenId { s.locks tokenId with listed := listed })
  | rewired (mineMarket furnace : Address) (configFrozen : Bool) :
      Edited call op s
        { s with mineMarket := mineMarket, furnace := furnace, configFrozen := configFrozen }

variable {call w} {w' : World S}

theorem Handed.edited {op : Op} {src dst : Address} {tokenId : ℕ}
    (h : Handed call.sender src dst tokenId w w')
    (hop : op = .transferFrom src dst tokenId ∨ op = .safeTransferFrom src dst tokenId) :
    Edited call op w.ve (w.ve.handed dst tokenId) := by
  obtain ⟨hsender, rfl, hsrc, rfl, hdst, hroom, hunlisted, -, -⟩ := h
  exact .handed tokenId hsender hop hsrc hdst hroom hunlisted

/-- Every operation makes one edit. -/
theorem Op.Effect.edited {op : Op} (h : op.Effect call w w') :
    ∃ s, Edited call op w.ve s ∧ s.Follows w'.ve := by
  cases op with
  | createLockFor user amount duration autoMax =>
      exact ⟨_, .created user _ h.2.user_ne h.2.room h.2.vacant, h.2.ve⟩
  | addToLockFor user tokenId amount => exact ⟨_, .relocked tokenId _ _ h.2.mutable, h.2.ve⟩
  | extendLockToFor user tokenId newEnd => exact ⟨_, .relocked tokenId _ _ h.2.mutable, h.2.ve⟩
  | mergeLocksFor user fromTokenId intoTokenId =>
      have hlive : w.ve.owners fromTokenId ≠ 0 := h.2.from_owner ▸ h.2.user_ne
      exact ⟨_, .merged fromTokenId intoTokenId hlive h.2.from_mutable h.2.into_mutable, h.2.ve⟩
  | setAutoMax tokenId enabled => exact ⟨_, .relocked tokenId _ _ h.mutable, h.ve⟩
  | unlock tokenId => exact ⟨_, .withdrawn tokenId h.owner_ne h.unlisted, h.ve⟩
  | unlockExpiredForUser user tokenId => exact ⟨_, .withdrawn tokenId h.owner_ne h.unlisted, h.ve⟩
  | furnaceBurnAndWithdraw tokenId recipient =>
      exact ⟨_, .withdrawn tokenId h.2.2.owner_ne h.2.2.unlisted, h.2.2.ve⟩
  | transferFrom src dst tokenId => exact ⟨_, Handed.edited h (.inl rfl), h.ve⟩
  | safeTransferFrom src dst tokenId => exact ⟨_, Handed.edited h (.inr rfl), h.ve⟩
  | setListed tokenId listed => exact ⟨_, .listed tokenId listed h.sender rfl, h.ve⟩
  | checkpointGlobalState => exact ⟨_, .rewired _ _ _, h.ve⟩
  | setMineMarket mineMarket => exact ⟨_, .rewired _ _ _, h.ve⟩
  | setFurnace furnace => exact ⟨_, .rewired _ _ _, h.ve⟩
  | freezeConfig => exact ⟨_, .rewired _ _ _, h.ve⟩

end Effects

end ClaimRush.VeClaimNFT
