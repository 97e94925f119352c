import ClaimRush.Furnace.ExtensionQuotes
import ClaimRush.Lib.SplitLedger

/-!
# The books of the bonus basis

Extensions and merges are priced on the principal that the user supplied, which the
Furnace records beside the lock contract that holds the amounts.  Its own log is the
ledger to which both are compared.
-/

open Function

namespace ClaimRush.Furnace

open Constants

variable {S : Type} (port : VeClaimNFT.IShareholderRoyalties S) (call : Call) (w : World S)

/-! ## The ledger -/

/-- What an event says about the content of a lock. -/
def Event.posting : Event → Option (Posting ℕ)
  | .FurnaceEnter _ _ _ principalClaim bonusClaim tokenId =>
      some (.add tokenId principalClaim bonusClaim)
  | .FurnaceMergeWithBonus _ fromTokenId intoTokenId _ _ _ _ _ _ bonusClaim =>
      some (.merge fromTokenId intoTokenId bonusClaim)
  | .AutoMaxBonusClaimed _ tokenId bonusClaim => some (.add tokenId 0 bonusClaim)
  | .LockSoldToFurnace _ tokenId _ _ _ _ _ _ _ _ => some (.close tokenId)
  | .PendingSellNFTRescued tokenId _ _ => some (.close tokenId)
  | _ => none

def postings (events : List Event) : List (Posting ℕ) := events.filterMap Event.posting

theorem postings_concat (events : List Event) (e : Event) :
    postings (events ++ [e]) = postings events ++ e.posting.toList := by
  unfold postings
  rw [List.filterMap_append]
  cases h : e.posting <;> simp [h]

/-- The locks as pots; ids from the counter on are fresh. -/
def World.pots : Pots ℕ where
  live id := w.ve.owners id ≠ 0
  fresh id := w.ve.nextTokenId ≤ id
  amount id := (w.ve.locks id).amount
  principal := w.furnace.bonusBasis

/-- The basis and the amounts are those of the log. -/
def World.Booked : Prop := Tallied (postings w.furnace.events) w.pots

/-! ## Quiet steps -/

/-- No basis changes, and nothing is said about the content of a lock. -/
structure FurnaceState.SameBooks (f f' : FurnaceState) : Prop where
  basis : f'.bonusBasis = f.bonusBasis
  posted : postings f'.events = postings f.events

namespace FurnaceState.SameBooks

theorem refl (f : FurnaceState) : f.SameBooks f := ⟨rfl, rfl⟩

theorem trans {f f' f'' : FurnaceState} (h : f.SameBooks f') (h' : f'.SameBooks f'') :
    f.SameBooks f'' :=
  ⟨h'.basis.trans h.basis, h'.posted.trans h.posted⟩

/-- Events about something else. -/
theorem emit {f f' : FurnaceState} (h : f.SameBooks f') {e : Event} (he : e.posting = none) :
    f.SameBooks (f'.emit e) := by
  refine ⟨h.basis, ?_⟩
  change postings (f'.events ++ [e]) = _
  rw [postings_concat, he]
  exact (List.append_nil _).trans h.posted

end FurnaceState.SameBooks

/-- The books do not change, and neither do the locks. -/
structure Quiet (w w' : World S) : Prop where
  books : w.furnace.SameBooks w'.furnace
  ve : w'.ve = w.ve

theorem Quiet.refl : Quiet w w := ⟨.refl _, rfl⟩

variable {w} in
theorem Quiet.trans {w' w'' : World S} (h : Quiet w w') (h' : Quiet w' w'') : Quiet w w'' :=
  ⟨h.books.trans h'.books, h'.ve.trans h.ve⟩

variable {w} in
theorem Quiet.booked {w' : World S} (h : Quiet w w') (hb : w.Booked) : w'.Booked := by
  unfold World.Booked World.pots at hb ⊢
  rw [h.books.posted, h.books.basis, h.ve]
  exact hb

theorem notify_sameBooks (f : FurnaceState) (vault : Address) (amount : ℕ) :
    f.SameBooks (notifyLpRewardsVaultBestEffort call f vault amount) := by
  unfold notifyLpRewardsVaultBestEffort
  split
  · exact .refl f
  · exact (FurnaceState.SameBooks.refl f).emit rfl

theorem accrueLpStream_quiet : Returns (fun r ↦ Quiet w r.1) (accrueLpStream call w) := by
  unfold accrueLpStream
  apply Returns.ite
  · exact fun _ ↦ .refl w
  intro _
  apply Returns.ite
  · exact fun _ ↦ ⟨⟨rfl, rfl⟩, rfl⟩
  intro _
  apply Returns.ite
  · exact fun _ ↦ .refl w
  intro _
  generalize (if call.timestamp < w.furnace.stream.finish then call.timestamp
    else w.furnace.stream.finish) = t
  apply Returns.ite
  · exact fun _ ↦ .refl w
  intro _
  apply Returns.seq
  intro streamed _
  apply Returns.seq
  intro claim _
  have hnotified := notify_sameBooks call { w.furnace with
    stream := { w.furnace.stream with last := t }
    ghost := { w.furnace.ghost with streamed := w.furnace.ghost.streamed + streamed } }
    w.furnace.lpRewardsVault streamed
  refine ⟨⟨?_, ?_⟩, rfl⟩
  · dsimp only
    split <;> exact hnotified.basis
  · dsimp only
    split <;> exact hnotified.posted

theorem fundLpStreamInternal_sameBooks (f : FurnaceState) (amount : ℕ) :
    Returns f.SameBooks (fundLpStreamInternal call f amount) := by
  unfold fundLpStreamInternal
  apply Returns.ite
  · exact fun _ ↦ .refl f
  intro _
  apply Returns.ite
  · exact fun _ ↦ .refl f
  intro _
  apply Returns.seq
  intro s _
  apply FurnaceState.SameBooks.emit
  · exact ⟨rfl, rfl⟩
  · rfl

theorem overflowDrip_sameBooks (f : FurnaceState) :
    Returns f.SameBooks (overflowDrip call f) := by
  unfold overflowDrip
  apply Returns.ite
  · exact fun _ ↦ .refl f
  intro _
  apply Returns.ite
  · exact fun _ ↦ ⟨rfl, rfl⟩
  intro _
  apply Returns.ite
  · exact fun _ ↦ ⟨rfl, rfl⟩
  intro _
  apply Returns.seq
  intro p _
  apply Returns.ite
  · exact fun _ ↦ ⟨rfl, rfl⟩
  intro _
  apply Returns.seq
  intro accrued _
  apply Returns.ite
  · exact fun _ ↦ ⟨rfl, rfl⟩
  intro _
  apply Outcome.bind (fundLpStreamInternal_sameBooks call _ _)
  intro f' hfunded
  apply Returns.guard
  intro _
  apply FurnaceState.SameBooks.emit
  · exact ⟨hfunded.basis, hfunded.posted⟩
  · rfl

theorem accrueLpOverflowDrip_quiet :
    Returns (fun r ↦ Quiet w r.1) (accrueLpOverflowDrip call w) := by
  unfold accrueLpOverflowDrip
  apply Outcome.bind (accrueLpStream_quiet call w)
  rintro ⟨w₁, streamed⟩ hstream
  apply Outcome.bind (overflowDrip_sameBooks call w₁.furnace)
  intro f hdrip
  exact ⟨hstream.books.trans hdrip, hstream.ve⟩

theorem syncFurnaceReserve_quiet : Quiet w (syncFurnaceReserve call w) := by
  refine ⟨?_, congrArg VeClaimNFT.World.ve (syncFurnaceReserve_same call w).2⟩
  unfold syncFurnaceReserve
  dsimp only
  generalize (if w.claimBalance > w.furnace.stream.liability then
    w.claimBalance - w.furnace.stream.liability else 0) = cap
  split
  · apply FurnaceState.SameBooks.emit
    · exact ⟨rfl, rfl⟩
    · rfl
  · exact .refl _

theorem applyBonusAmm_quiet (user : Address) (principalClaim principalEff lockDurationSec : ℕ) :
    Returns (fun r ↦ Quiet w r.1)
      (applyBonusAmm call w user principalClaim principalEff lockDurationSec) := by
  unfold applyBonusAmm
  apply Outcome.bind (accrueLpOverflowDrip_quiet call w)
  rintro ⟨w₁, streamed⟩ hdrip
  unfold bonusAmm
  apply Returns.ite
  · exact fun _ ↦ hdrip
  intro _
  apply Outcome.bind (bonusAmmComputeAndUpdate_changes call w₁ user principalClaim principalEff
    lockDurationSec)
  rintro ⟨w₂, frame⟩ ⟨lastUpdate, reserve, depth, rfl⟩
  have hpaid : w.furnace.SameBooks { w₁.furnace with
      lastBonusUpdate := lastUpdate
      furnaceReserve := reserve
      bonusVirtualDepth := depth } := ⟨hdrip.books.basis, hdrip.books.posted⟩
  apply Returns.ite
  · exact fun _ ↦ ⟨hpaid, hdrip.ve⟩
  intro _
  have hrouted (f : FurnaceState) : Returns (fun r ↦ f.SameBooks r.1)
      (bonusAmmSplitAndRoute call f frame) := by
    unfold bonusAmmSplitAndRoute
    dsimp only
    split
    · exact Outcome.bind (fundLpStreamInternal_sameBooks call f _) fun _ h ↦ h
    · exact .refl f
  apply Outcome.bind (hrouted _)
  rintro ⟨f, frame'⟩ hf
  refine ⟨?_, hdrip.ve⟩
  have hsplit := hpaid.trans hf
  unfold bonusAmmEmit
  split
  · exact hsplit
  · exact hsplit.emit rfl

/-! ## Changes of the locks -/

/-- Locks may go, and those that stay keep their amounts. -/
structure Wanes (s s' : VeClaimNFT.VeState) : Prop where
  live : ∀ id, s'.owners id ≠ 0 → s.owners id ≠ 0 ∧ (s'.locks id).amount = (s.locks id).amount
  next : s'.nextTokenId = s.nextTokenId

theorem Wanes.refl (s : VeClaimNFT.VeState) : Wanes s s := ⟨fun _ h ↦ ⟨h, rfl⟩, rfl⟩

theorem Wanes.trans {s s' s'' : VeClaimNFT.VeState} (h : Wanes s s') (h' : Wanes s' s'') :
    Wanes s s'' := by
  refine ⟨fun id hid ↦ ?_, h'.next.trans h.next⟩
  obtain ⟨hid, hamount'⟩ := h'.live id hid
  obtain ⟨hid, hamount⟩ := h.live id hid
  exact ⟨hid, hamount'.trans hamount⟩

theorem wanes_follows {s s' s'' : VeClaimNFT.VeState} (h' : s'.Follows s'') (h : Wanes s s') :
    Wanes s s'' := by
  obtain ⟨g, es, rfl⟩ := h'
  exact ⟨h.live, h.next⟩

theorem wanes_setLock (s : VeClaimNFT.VeState) {tokenId : ℕ} {l : VeClaimNFT.Lock}
    (h : l.amount = (s.locks tokenId).amount) : Wanes s (s.setLock tokenId l) := by
  refine ⟨fun id hid ↦ ⟨hid, ?_⟩, rfl⟩
  change (update s.locks tokenId l id).amount = _
  by_cases heq : id = tokenId
  · rw [heq, update_self, h]
  · rw [update_of_ne heq]

theorem wanes_withdrawn (s : VeClaimNFT.VeState) (tokenId : ℕ) :
    Wanes s (s.withdrawn tokenId) ∧ (s.withdrawn tokenId).owners tokenId = 0 := by
  refine ⟨⟨fun id hid ↦ ?_, rfl⟩, update_self ..⟩
  change update s.owners tokenId 0 id ≠ 0 at hid
  change _ ∧ (update s.locks tokenId {} id).amount = _
  by_cases heq : id = tokenId
  · rw [heq, update_self] at hid
    exact absurd rfl hid
  · rw [update_of_ne heq] at hid ⊢
    exact ⟨hid, rfl⟩

theorem wanes_handed {s : VeClaimNFT.VeState} (dst : Address) {tokenId : ℕ}
    (h : s.owners tokenId ≠ 0) : Wanes s (s.handed dst tokenId) := by
  refine ⟨fun id hid ↦ ⟨?_, rfl⟩, rfl⟩
  by_cases heq : id = tokenId
  · exact heq ▸ h
  · change update s.owners tokenId dst id ≠ 0 at hid
    rwa [update_of_ne heq] at hid

/-- Only the Furnace puts CLAIM into locks. -/
theorem exec_wanes (call : VeClaimNFT.Call) (w : VeClaimNFT.World S) (op : VeClaimNFT.Op)
    (hsender : call.sender ≠ w.ve.furnace) :
    Returns (fun w' ↦ Wanes w.ve w'.ve) (VeClaimNFT.exec port call w op) := by
  apply (VeClaimNFT.exec_effect port call w op).weaken
  intro w' h
  cases op with
  | createLockFor user amount duration autoMax => exact absurd h.1 hsender
  | addToLockFor user tokenId amount => exact absurd h.1 hsender
  | extendLockToFor user tokenId newEnd => exact absurd h.1 hsender
  | mergeLocksFor user fromTokenId intoTokenId => exact absurd h.1 hsender
  | furnaceBurnAndWithdraw tokenId recipient => exact absurd h.1 hsender
  | setAutoMax tokenId enabled =>
      apply wanes_follows h.ve
      apply wanes_setLock
      unfold VeClaimNFT.toggledLock
      split <;> rfl
  | unlock tokenId => exact wanes_follows h.ve (wanes_withdrawn w.ve tokenId).1
  | unlockExpiredForUser user tokenId => exact wanes_follows h.ve (wanes_withdrawn w.ve tokenId).1
  | transferFrom src dst tokenId =>
      exact wanes_follows h.ve (wanes_handed dst (h.owner ▸ h.src_ne))
  | safeTransferFrom src dst tokenId =>
      exact wanes_follows h.ve (wanes_handed dst (h.owner ▸ h.src_ne))
  | setListed tokenId listed => exact wanes_follows h.ve (wanes_setLock w.ve rfl)
  | checkpointGlobalState => exact wanes_follows h.ve (.refl w.ve)
  | setMineMarket mineMarket => exact wanes_follows h.ve ⟨fun _ hid ↦ ⟨hid, rfl⟩, rfl⟩
  | setFurnace furnace => exact wanes_follows h.ve ⟨fun _ hid ↦ ⟨hid, rfl⟩, rfl⟩
  | freezeConfig => exact wanes_follows h.ve ⟨fun _ hid ↦ ⟨hid, rfl⟩, rfl⟩

/-- One lock gains an amount; a new lock takes the next id. -/
structure Gains (tokenId amount : ℕ) (s s' : VeClaimNFT.VeState) : Prop where
  gained : s.owners tokenId ≠ 0 ∧ s'.nextTokenId = s.nextTokenId ∧
      (s'.locks tokenId).amount = (s.locks tokenId).amount + amount ∨
    tokenId = s.nextTokenId ∧ s'.nextTokenId = s.nextTokenId + 1 ∧
      (s'.locks tokenId).amount = amount
  others : ∀ id, id ≠ tokenId → s'.owners id ≠ 0 →
    s.owners id ≠ 0 ∧ (s'.locks id).amount = (s.locks id).amount

theorem gains_nothing {s : VeClaimNFT.VeState} {tokenId : ℕ} (h : s.owners tokenId ≠ 0) :
    Gains tokenId 0 s s :=
  ⟨.inl ⟨h, rfl, rfl⟩, fun _ _ hid ↦ ⟨hid, rfl⟩⟩

theorem lockToDestination_gains (user : Address) (amountLocked targetTokenId d : ℕ)
    (createAutoMax : Bool) :
    Returns (fun r ↦ r.1.furnace = w.furnace ∧ Gains r.2.2 amountLocked w.ve r.1.ve)
      (lockToDestination port call w user amountLocked targetTokenId d createAutoMax) := by
  apply ((lockToDestination_lockCall port call w user amountLocked targetTokenId d
    createAutoMax).and (lockToDestination_used port call w user amountLocked targetTokenId d
      createAutoMax)).weaken
  rintro r ⟨⟨hfurnace, -, before, base, after, hexec, hbase⟩, hused⟩
  have hve : r.1.ve = base.ve := (congrArg VeClaimNFT.World.ve hbase :)
  refine ⟨hfurnace, ?_⟩
  rw [hve, hused]
  by_cases htarget : targetTokenId = 0
  · rw [entryOp, if_pos htarget] at hexec
    obtain ⟨-, hcreated⟩ := (VeClaimNFT.exec_effect port _ _ _).of_ok hexec
    obtain ⟨g, es, hve⟩ := hcreated.ve
    rw [if_pos htarget, hve]
    refine ⟨.inr ⟨rfl, rfl, ?_⟩, fun id hid hlive ↦ ?_⟩
    · change (update w.ve.locks w.ve.nextTokenId _ w.ve.nextTokenId).amount = _
      rw [update_self]
    · change update w.ve.owners w.ve.nextTokenId user id ≠ 0 at hlive
      change _ ∧ (update w.ve.locks w.ve.nextTokenId _ id).amount = _
      rw [update_of_ne hid] at hlive ⊢
      exact ⟨hlive, rfl⟩
  · rw [entryOp, if_neg htarget] at hexec
    obtain ⟨-, htopped⟩ := (VeClaimNFT.exec_effect port _ _ _).of_ok hexec
    have hlive : w.ve.owners targetTokenId ≠ 0 := by
      intro hzero
      exact htopped.user_ne (htopped.owner.symm.trans hzero)
    obtain ⟨g, es, hve⟩ := htopped.ve
    rw [if_neg htarget, hve]
    refine ⟨.inl ⟨hlive, rfl, ?_⟩, fun id hid hlive ↦ ⟨hlive, ?_⟩⟩
    · change (update w.ve.locks targetTokenId _ targetTokenId).amount = _
      rw [update_self]
      rfl
    · exact congrArg VeClaimNFT.Lock.amount (update_of_ne hid ..)

/-! ## Entries of the ledger -/

variable {port call w}

theorem World.Booked.waned (hb : w.Booked) {w' : World S} (hbooks : w.furnace.SameBooks w'.furnace)
    (h : Wanes w.ve w'.ve) : w'.Booked := by
  unfold World.Booked
  rw [hbooks.posted]
  apply Tallied.keep hb
  · exact hbooks.basis
  · exact h.live
  · intro id hid
    exact h.next.ge.trans hid

/-- A basis is recorded for every lock. -/
theorem World.Booked.basisOf_eq (hb : w.Booked) {tokenId : ℕ} (hlive : w.ve.owners tokenId ≠ 0)
    (amount : ℕ) : basisOf w.furnace tokenId amount = w.furnace.bonusBasis tokenId :=
  if_neg (hb.funded tokenId hlive).ne'

/-- The last step of a call writes its event. -/
theorem synced_emit (call : Call) (w' : World S) (e : Event) {f : FurnaceState} {p : Posting ℕ}
    (h : f.SameBooks w'.furnace) (he : e.posting = some p) :
    postings ((syncFurnaceReserve call w').emit e).furnace.events = postings f.events ++ [p] ∧
      ((syncFurnaceReserve call w').emit e).furnace.bonusBasis = f.bonusBasis ∧
      ((syncFurnaceReserve call w').emit e).ve = w'.ve := by
  have hsync := syncFurnaceReserve_quiet call w'
  have hbooks := h.trans hsync.books
  refine ⟨?_, hbooks.basis, hsync.ve⟩
  change postings ((syncFurnaceReserve call w').furnace.events ++ [e]) = _
  rw [postings_concat, hbooks.posted, he]
  rfl

theorem World.Booked.gained (hb : w.Booked) {w' : World S} {tokenId principal bonus : ℕ}
    (h : Gains tokenId (principal + bonus) w.ve w'.ve)
    (hpos : w.ve.owners tokenId = 0 → 0 < principal)
    (hbasis : w'.furnace.bonusBasis =
      update w.furnace.bonusBasis tokenId (w.furnace.bonusBasis tokenId + principal))
    (hposted : postings w'.furnace.events =
      postings w.furnace.events ++ [.add tokenId principal bonus]) : w'.Booked := by
  unfold World.Booked
  rw [hposted]
  apply Tallied.add hb
  · rcases h.gained with ⟨hlive, -, hamount⟩ | ⟨hnew, -, hamount⟩
    · exact .inl ⟨hlive, hamount⟩
    · have hfresh : w.pots.fresh tokenId := hnew.ge
      exact .inr ⟨hfresh, hamount, hpos (not_not.mp (hb.unused tokenId hfresh).1)⟩
  · exact hbasis
  · exact h.others
  · intro id hid
    change w'.ve.nextTokenId ≤ id at hid
    change w.ve.nextTokenId ≤ id ∧ id ≠ tokenId
    rcases h.gained with ⟨hlive, hnext, -⟩ | ⟨hnew, hnext, -⟩
    · rw [hnext] at hid
      exact ⟨hid, fun heq ↦ (hb.unused id hid).1 (heq ▸ hlive)⟩
    · omega

/-- A bonus adds nothing to the basis. -/
theorem World.Booked.rewarded (hb : w.Booked) {w' : World S} {tokenId bonus : ℕ}
    (hlive : w.ve.owners tokenId ≠ 0) (h : Gains tokenId bonus w.ve w'.ve)
    (hbasis : w'.furnace.bonusBasis = w.furnace.bonusBasis)
    (hposted : postings w'.furnace.events = postings w.furnace.events ++ [.add tokenId 0 bonus]) :
    w'.Booked := by
  refine hb.gained ?_ (fun hdead ↦ absurd hdead hlive) ?_ hposted
  · rw [Nat.zero_add]
    exact h
  · rw [Nat.add_zero, update_eq_self]
    exact hbasis

theorem World.Booked.closed (hb : w.Booked) {w' : World S} {tokenId : ℕ}
    (hlive : w.ve.owners tokenId ≠ 0) (h : Wanes w.ve w'.ve) (hgone : w'.ve.owners tokenId = 0)
    (hbasis : w'.furnace.bonusBasis = update w.furnace.bonusBasis tokenId 0)
    (hposted : postings w'.furnace.events = postings w.furnace.events ++ [.close tokenId]) :
    w'.Booked := by
  unfold World.Booked
  rw [hposted]
  apply Tallied.close hb
  · exact fun hfresh ↦ (hb.unused tokenId hfresh).1 hlive
  · exact hbasis
  · intro id hid
    refine ⟨?_, h.live id hid⟩
    rintro rfl
    exact hid hgone
  · intro id hid
    exact h.next.ge.trans hid

variable (port call w)

/-! ## Entries -/

theorem enterAfterPrincipal_booked (hb : w.Booked) (user : Address) (mode ethIn principalClaim
    targetTokenId durationSeconds : ℕ) (createAutoMax : Bool) (minVeOut : ℕ) :
    Returns (fun r ↦ r.1.Booked)
      (enterAfterPrincipal port call w user mode ethIn principalClaim targetTokenId
        durationSeconds createAutoMax minVeOut) := by
  unfold enterAfterPrincipal
  apply Returns.guard
  intro hprincipal
  refine Returns.guard fun _ ↦ Returns.guard fun _ ↦ Returns.seq fun ⟨d, weight⟩ _ ↦ ?_
  apply Returns.seq
  intro product _
  apply Outcome.bind (applyBonusAmm_quiet call w user principalClaim _ d)
  rintro ⟨w₁, bonus⟩ hquiet
  have hb₁ := hquiet.booked hb
  apply Outcome.bind (lockToDestination_gains port call w₁ user (principalClaim + bonus.user)
    targetTokenId d createAutoMax)
  rintro ⟨w₂, veOut, tokenIdUsed⟩ ⟨hfurnace, hgains⟩
  apply Returns.seq
  intro basis hbasis
  obtain ⟨-, rfl⟩ := uint256_eq_ok.mp hbasis
  apply Returns.guard
  intro _
  have hend {f : FurnaceState} (hf : FurnaceState.SameBooks { w₂.furnace with
      bonusBasis := update w₂.furnace.bonusBasis tokenIdUsed
        (w₂.furnace.bonusBasis tokenIdUsed + principalClaim) } f) :
      ((syncFurnaceReserve call { w₂ with furnace := f }).emit
        (.FurnaceEnter user mode ethIn principalClaim bonus.user tokenIdUsed)).Booked := by
    obtain ⟨hposted, hrecorded, hve⟩ := synced_emit call { w₂ with furnace := f }
      (.FurnaceEnter user mode ethIn principalClaim bonus.user tokenIdUsed) hf rfl
    dsimp only at hfurnace hposted hrecorded
    rw [hfurnace] at hposted hrecorded
    refine hb₁.gained ?_ (fun _ ↦ Nat.pos_of_ne_zero hprincipal) hrecorded hposted
    rw [hve]
    exact hgains
  apply hend
  split
  · apply FurnaceState.SameBooks.emit
    · exact .refl _
    · rfl
  · exact .refl _

theorem enterClaim_booked (hb : w.Booked) (user : Address) (claimAmount : ℕ)
    (dst : Destination) :
    Returns (fun r ↦ r.1.Booked) (enterClaim port call w user claimAmount dst) := by
  unfold enterClaim
  apply Returns.seq
  intro _ _
  apply Returns.seq
  intro w₁ hpull
  obtain ⟨claim, -, hw₁⟩ := bind_eq_ok_iff.mp hpull
  obtain rfl := Except.ok.inj hw₁
  exact enterAfterPrincipal_booked port call (w.withClaim claim) hb _ _ _ _ _ _ _ _

/-! ## Delivered bonuses -/

theorem addToLockDelegated_gains (user : Address) (tokenId amount : ℕ) :
    Returns (fun w' ↦ w'.furnace = w.furnace ∧ Gains tokenId amount w.ve w'.ve)
      (addToLockDelegated port call w user tokenId amount) := by
  unfold addToLockDelegated
  apply Outcome.bind (VeClaimNFT.exec_effect port (call.byFurnace w.furnace) _
    (.addToLockFor user tokenId amount))
  rintro base ⟨-, htopped⟩
  refine ⟨rfl, ?_⟩
  have hlive : w.ve.owners tokenId ≠ 0 := by
    intro hzero
    exact htopped.user_ne (htopped.owner.symm.trans hzero)
  obtain ⟨g, es, hve⟩ := htopped.ve
  change Gains tokenId amount w.ve base.ve
  rw [hve]
  refine ⟨.inl ⟨hlive, rfl, ?_⟩, fun id hid hlive ↦ ⟨hlive, ?_⟩⟩
  · change (update w.ve.locks tokenId _ tokenId).amount = _
    rw [update_self]
    rfl
  · exact congrArg VeClaimNFT.Lock.amount (update_of_ne hid ..)

/-- A dust bonus goes back to the reserve, and is no bonus. -/
theorem deliverOrRefund_gains {tokenId userBonus : ℕ} (hlive : w.ve.owners tokenId ≠ 0)
    {deliver : Except Error (World S)}
    (hdeliver : Returns (fun w' ↦ w'.furnace = w.furnace ∧ Gains tokenId userBonus w.ve w'.ve)
      deliver) :
    Returns (fun r ↦ w.furnace.SameBooks r.1.furnace ∧ Gains tokenId r.2 w.ve r.1.ve)
      (deliverOrRefund w deliver userBonus) := by
  unfold deliverOrRefund
  apply Returns.ite
  · intro _
    apply Outcome.bind hdeliver
    rintro w' ⟨hfurnace, hgains⟩
    exact ⟨⟨congrArg _ hfurnace, by rw [hfurnace]⟩, hgains⟩
  · exact fun _ ↦ ⟨⟨rfl, rfl⟩, gains_nothing hlive⟩

theorem bonusFromHelper_quiet (user : Address) (principalClaim principalEff lockDurationSec : ℕ) :
    Returns (fun r ↦ Quiet w r.1)
      (bonusFromHelper call w user principalClaim principalEff lockDurationSec) := by
  unfold bonusFromHelper
  apply Returns.ite
  · intro _
    exact Outcome.bind (applyBonusAmm_quiet call w user principalClaim principalEff
      lockDurationSec) fun _ h ↦ h
  · exact fun _ ↦ .refl w

/-- The seeding of a basis is for locks without one, and there are none. -/
theorem extendBody_booked (hb : w.Booked) (user : Address)
    (tokenId durationSeconds minBonusOut : ℕ) :
    Returns (fun r ↦ r.1.Booked)
      (extendBody port call w user tokenId durationSeconds minBonusOut) := by
  unfold extendBody
  apply Returns.seq
  rintro ⟨lockAmount, d, principalEff⟩ hresolved
  have hlive : w.ve.owners tokenId ≠ 0 := by
    obtain ⟨_, -, hresolved⟩ := bind_eq_ok_iff.mp hresolved
    obtain ⟨_, -, hresolved⟩ := bind_eq_ok_iff.mp hresolved
    obtain ⟨_, -, hresolved⟩ := bind_eq_ok_iff.mp hresolved
    obtain ⟨_, -, hresolved⟩ := bind_eq_ok_iff.mp hresolved
    obtain ⟨_, hminted, -⟩ := bind_eq_ok_iff.mp hresolved
    exact revertIf_eq_ok.mp hminted
  have hseeded : update w.furnace.bonusBasis tokenId (basisOf w.furnace tokenId lockAmount) =
      w.furnace.bonusBasis := by
    rw [hb.basisOf_eq hlive, update_eq_self]
  dsimp only
  rw [hseeded]
  apply Outcome.bind (bonusFromHelper_quiet call w user lockAmount _ d)
  rintro ⟨w₁, userBonus⟩ hquiet
  have hb₁ := hquiet.booked hb
  apply Outcome.bind (VeClaimNFT.exec_effect port (call.byFurnace w₁.furnace) w₁.base
    (.extendLockToFor user tokenId (call.timestamp + d)))
  rintro base ⟨-, hextended⟩
  have hwanes : Wanes w₁.ve base.ve := wanes_follows hextended.ve (wanes_setLock w₁.ve rfl)
  have hb₂ : World.Booked ⟨w₁.furnace, base⟩ := hb₁.waned (.refl _) hwanes
  have hlive₂ : base.ve.owners tokenId ≠ 0 := by
    rw [hextended.ve.keeps VeClaimNFT.VeState.owners fun _ _ ↦ rfl]
    change w₁.ve.owners tokenId ≠ 0
    rw [hquiet.ve]
    exact hlive
  apply Outcome.bind (deliverOrRefund_gains ⟨w₁.furnace, base⟩ hlive₂
    (addToLockDelegated_gains port call ⟨w₁.furnace, base⟩ user tokenId userBonus))
  rintro ⟨w₂, bonusClaim⟩ ⟨hbooks, hgains⟩
  apply Returns.guard
  intro _
  obtain ⟨hposted, hrecorded, hve⟩ := synced_emit call w₂
    (.FurnaceEnter user 4 0 0 bonusClaim tokenId) hbooks rfl
  refine hb₂.rewarded hlive₂ ?_ hrecorded hposted
  rw [hve]
  exact hgains

/-! ## Merges -/

theorem mergeBody_booked (hb : w.Booked) (user : Address)
    (fromTokenId intoTokenId minBonusOut : ℕ) :
    Returns (fun r ↦ r.1.Booked)
      (mergeBody port call w user fromTokenId intoTokenId minBonusOut) := by
  unfold mergeBody
  apply Returns.seq
  intro r _
  apply Outcome.bind (bonusFromHelper_quiet call w user (r.fromAmt + r.intoAmt) _ r.newRemaining)
  rintro ⟨w₁, userBonus⟩ hquiet
  have hb₁ := hquiet.booked hb
  apply Returns.seq
  intro basis hbasis
  obtain ⟨-, rfl⟩ := uint256_eq_ok.mp hbasis
  apply Outcome.bind (VeClaimNFT.exec_effect port (call.byFurnace w₁.furnace) w₁.base
    (.mergeLocksFor user fromTokenId intoTokenId))
  rintro base ⟨-, hmerged⟩
  have hfrom : w₁.ve.owners fromTokenId ≠ 0 := by
    intro hzero
    exact hmerged.user_ne (hmerged.from_owner.symm.trans hzero)
  have hinto : w₁.ve.owners intoTokenId ≠ 0 := by
    intro hzero
    exact hmerged.user_ne (hmerged.into_owner.symm.trans hzero)
  have howners : base.ve.owners = update w₁.ve.owners fromTokenId 0 :=
    hmerged.ve.keeps VeClaimNFT.VeState.owners fun _ _ ↦ rfl
  have hlocks : base.ve.locks = update (update w₁.ve.locks intoTokenId
      (VeClaimNFT.VeState.mergedLock call.timestamp (w₁.ve.locks fromTokenId)
        (w₁.ve.locks intoTokenId))) fromTokenId {} :=
    hmerged.ve.keeps VeClaimNFT.VeState.locks fun _ _ ↦ rfl
  have hnext : base.ve.nextTokenId = w₁.ve.nextTokenId :=
    hmerged.ve.keeps VeClaimNFT.VeState.nextTokenId fun _ _ ↦ rfl
  have hne := hmerged.distinct
  have hlive₂ : base.ve.owners intoTokenId ≠ 0 := by
    rw [howners, update_of_ne hne.symm]
    exact hinto
  dsimp only
  rw [hb₁.basisOf_eq hfrom, hb₁.basisOf_eq hinto]
  apply Outcome.bind (deliverOrRefund_gains (World.mk _ base) hlive₂
    (addToLockDelegated_gains port call _ user intoTokenId userBonus))
  rintro ⟨w₂, bonusClaim⟩ ⟨hbooks, hgains⟩
  apply Returns.guard
  intro _
  obtain ⟨hposted, hrecorded, hve⟩ := synced_emit call w₂
    (.FurnaceMergeWithBonus user fromTokenId intoTokenId r.fromAmt r.intoAmt
      ((base.ve.locks intoTokenId).amount + bonusClaim) (base.ve.locks intoTokenId).lockEnd
      (base.ve.locks intoTokenId).autoMax r.durationDelta bonusClaim) hbooks rfl
  change World.Booked _
  unfold World.Booked
  rw [hposted]
  have hgained : w₂.ve.nextTokenId = base.ve.nextTokenId ∧ (w₂.ve.locks intoTokenId).amount =
      (base.ve.locks intoTokenId).amount + bonusClaim := by
    rcases hgains.gained with ⟨-, hsame⟩ | ⟨hnew, -⟩
    · exact hsame
    · exact absurd (hnew.trans hnext).ge fun hfresh ↦ (hb₁.unused intoTokenId hfresh).1 hinto
  apply Tallied.merge hb₁ hne hfrom hinto
  · exact hrecorded
  · change (((syncFurnaceReserve call w₂).emit _).ve.locks intoTokenId).amount = _
    rw [hve, hgained.2, hlocks, update_of_ne hne.symm, update_self]
    change _ + _ + bonusClaim = _
    rw [Nat.add_comm (VeClaimNFT.Lock.amount _)]
    rfl
  · intro id hid
    change ((syncFurnaceReserve call w₂).emit _).ve.owners id ≠ 0 at hid
    change _ ∧ _ ∧ (_ → (((syncFurnaceReserve call w₂).emit _).ve.locks id).amount = _)
    rw [hve] at hid ⊢
    by_cases hii : id = intoTokenId
    · exact ⟨hii ▸ hne.symm, hii ▸ hinto, fun hni ↦ absurd hii hni⟩
    obtain ⟨hid, hamount⟩ := hgains.others id hii hid
    dsimp only at hid hamount
    change base.ve.owners id ≠ 0 at hid
    change _ = (base.ve.locks id).amount at hamount
    rw [howners] at hid
    have hif : id ≠ fromTokenId := by
      rintro rfl
      rw [update_self] at hid
      exact hid rfl
    rw [update_of_ne hif] at hid
    refine ⟨hif, hid, fun _ ↦ ?_⟩
    rw [hamount, hlocks, update_of_ne hif, update_of_ne hii]
    rfl
  · intro id hid
    change ((syncFurnaceReserve call w₂).emit _).ve.nextTokenId ≤ id at hid
    rw [hve, hgained.1, hnext] at hid
    exact hid

/-! ## AutoMax bonuses -/

theorem claimAutoMaxBonusCore_booked (hb : w.Booked) (tokenId lockAmount : ℕ) :
    Returns (fun r ↦ r.1.Booked) (claimAutoMaxBonusCore port call w tokenId lockAmount) := by
  unfold claimAutoMaxBonusCore
  apply Returns.ite
  · exact fun _ ↦ hb
  intro _
  apply Returns.seq
  intro elapsed _
  apply Returns.ite
  · exact fun _ ↦ hb
  intro _
  apply Returns.guard
  intro hlive
  apply Returns.ite
  · exact fun _ ↦ hb
  intro _
  apply Returns.guard
  intro _
  apply Returns.seq
  rintro ⟨_, quoted⟩ _
  apply Returns.ite
  · exact fun _ ↦ hb
  intro _
  apply Outcome.bind (applyBonusAmm_quiet call w _ lockAmount _ MAX_LOCK_DURATION)
  rintro ⟨w₁, bonus⟩ hquiet
  have hb₁ := hquiet.booked hb
  apply Returns.ite
  · exact fun _ ↦ hb₁
  intro _
  have hlive₁ : w₁.ve.owners tokenId ≠ 0 := by
    rw [hquiet.ve]
    exact hlive
  apply Outcome.bind (deliverOrRefund_gains w₁ hlive₁ (delegatecall_returns
    (addToLockDelegated_gains port call w₁ (w.ve.owners tokenId) tokenId bonus.user)))
  rintro ⟨w₂, bonusClaim⟩ ⟨hbooks, hgains⟩
  refine hb₁.rewarded hlive₁ hgains hbooks.basis ?_
  change postings (w₂.furnace.events ++ [_]) = _
  rw [postings_concat, hbooks.posted]
  rfl

theorem claimAutoMaxBonus_booked (hb : w.Booked) (tokenId : ℕ) :
    Returns (fun r ↦ r.1.Booked) (claimAutoMaxBonus port call w tokenId) := by
  unfold claimAutoMaxBonus
  refine Returns.seq fun _ _ ↦ Returns.guard fun _ ↦ Returns.guard fun _ ↦ ?_
  refine Returns.guard fun _ ↦ Returns.guard fun _ ↦ ?_
  apply Outcome.bind (claimAutoMaxBonusCore_booked port call w hb tokenId _)
  rintro ⟨w₁, bonusClaim⟩ hb₁
  exact (syncFurnaceReserve_quiet call w₁).booked hb₁

theorem claimAutoMaxBonusLoop_booked (tokenIds : List ℕ) (w : World S) (hb : w.Booked)
    (previous : Option ℕ) (totalBonus : ℕ) :
    Returns (fun r ↦ r.1.Booked)
      (claimAutoMaxBonusLoop port call w previous tokenIds totalBonus) := by
  induction tokenIds generalizing w previous totalBonus with
  | nil => exact hb
  | cons tokenId tokenIds ih =>
    have hstep : Returns (fun r ↦ r.1.Booked)
        (claimAutoMaxBonusStep port call w previous tokenId totalBonus) := by
      unfold claimAutoMaxBonusStep
      refine Returns.ite (fun _ ↦ hb) fun _ ↦ Returns.ite (fun _ ↦ hb) fun _ ↦ ?_
      apply Outcome.bind (claimAutoMaxBonusCore_booked port call w hb tokenId _)
      rintro ⟨w₁, bonusClaim⟩ hb₁
      exact Returns.seq fun _ _ ↦ hb₁
    apply Outcome.bind hstep
    rintro ⟨w₁, total⟩ hb₁
    exact ih w₁ hb₁ (some tokenId) total

theorem claimAutoMaxBonusBatch_booked (hb : w.Booked) (tokenIds : List ℕ) (maxLocks : ℕ) :
    Returns (fun r ↦ r.1.Booked) (claimAutoMaxBonusBatch port call w tokenIds maxLocks) := by
  unfold claimAutoMaxBonusBatch
  apply Returns.seq
  intro _ _
  apply Outcome.bind (claimAutoMaxBonusLoop_booked port call _ w hb none 0)
  rintro ⟨w₁, total⟩ hb₁
  exact (syncFurnaceReserve_quiet call w₁).booked hb₁

end ClaimRush.Furnace
