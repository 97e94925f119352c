import ClaimRush.Furnace.Frame

/-!
# What an entry takes and where it goes

An entry of CLAIM takes at most its amount from the account that pays it, and
adds the amount to the lock that it names, or mints the next lock.
-/

open Function

namespace ClaimRush.Furnace

variable {S : Type} (port : VeClaimNFT.IShareholderRoyalties S) (call : Call) (w : World S)

/-- Neither the Furnace nor one of the contracts that it pays. -/
structure World.Outside (w : World S) (account : Address) : Prop where
  furnace : account ≠ w.furnace.self
  vault : account ≠ w.furnace.lpRewardsVault
  ve : account ≠ w.ve.self

/-- At most `amount` leaves `account`, and the other accounts outside keep their CLAIM. -/
structure Takes (account : Address) (amount : ℕ) (w w' : World S) : Prop where
  self : w'.furnace.self = w.furnace.self
  vault : w'.furnace.lpRewardsVault = w.furnace.lpRewardsVault
  lock : w'.ve.self = w.ve.self
  claim : w.claim.Spends account amount w'.claim
  outside : ∀ other, w.Outside other → other ≠ account →
    w'.claim.balanceOf other = w.claim.balanceOf other

/-- The locks stay as they are, too, and nothing leaves `account`. -/
structure Spared (account : Address) (w w' : World S) : Prop extends Takes account 0 w w' where
  ve : w'.ve = w.ve

section Takes

variable {account : Address} {amount : ℕ} {w w' w'' : World S}

theorem Takes.keepsOutside (h : Takes account amount w w') {other : Address}
    (hout : w.Outside other) : w'.Outside other :=
  ⟨h.self ▸ hout.furnace, h.vault ▸ hout.vault, h.lock ▸ hout.ve⟩

theorem Takes.after (h : Takes account amount w w') (h' : Takes account 0 w' w'') :
    Takes account amount w w'' :=
  ⟨h'.self.trans h.self, h'.vault.trans h.vault, h'.lock.trans h.lock, h.claim.after h'.claim,
    fun other hout hne ↦
      (h'.outside other (h.keepsOutside hout) hne).trans (h.outside other hout hne)⟩

namespace Spared

theorem refl (w : World S) : Spared account w w := ⟨⟨rfl, rfl, rfl, .refl _, fun _ _ _ ↦ rfl⟩, rfl⟩

theorem trans (h : Spared account w w') (h' : Spared account w' w'') : Spared account w w'' :=
  ⟨h.toTakes.after h'.toTakes, h'.ve.trans h.ve⟩

/-- Only the storage of the Furnace changes. -/
theorem of_base (hself : w'.furnace.self = w.furnace.self)
    (hvault : w'.furnace.lpRewardsVault = w.furnace.lpRewardsVault) (hbase : w'.base = w.base) :
    Spared account w w' := by
  obtain ⟨f, base⟩ := w'
  obtain rfl : base = w.base := hbase
  exact ⟨⟨hself, hvault, rfl, .refl _, fun _ _ _ ↦ rfl⟩, rfl⟩

end Spared

end Takes

/-! ## The stream and the bonus -/

section Bonus

variable {account : Address} (hother : account ≠ w.furnace.self)
include hother

/-- The stream pays out of the Furnace. -/
theorem accrueLpStream_spared :
    Returns (fun r ↦ Spared account w r.1) (accrueLpStream call w) := by
  unfold accrueLpStream
  apply Returns.ite
  · exact fun _ ↦ .refl w
  intro _
  apply Returns.ite
  · exact fun _ ↦ .of_base rfl rfl rfl
  intro _
  apply Returns.ite
  · exact fun _ ↦ .refl w
  intro _
  generalize (if call.timestamp < w.furnace.stream.finish then call.timestamp
    else w.furnace.stream.finish) = t
  apply Returns.ite
  · exact fun _ ↦ .refl w
  intro _
  refine Returns.seq fun streamed _ ↦ Returns.seq fun claim hclaim ↦ ?_
  have hspared : w.claim.Spares account claim := ClaimToken.transfer_spares hother hclaim
  have houtside : ∀ other, w.Outside other → other ≠ account →
      claim.balanceOf other = w.claim.balanceOf other := fun other hout _ ↦
    (ClaimToken.transfer_eq_ok hclaim).balance_third hout.furnace hout.vault
  choose events hevents using notify_eq call
  rw [hevents]
  by_cases hend : t ≥ w.furnace.stream.finish
  · simp only [if_pos hend]
    exact ⟨⟨rfl, rfl, rfl, hspared, houtside⟩, rfl⟩
  · simp only [if_neg hend]
    exact ⟨⟨rfl, rfl, rfl, hspared, houtside⟩, rfl⟩

theorem accrueLpOverflowDrip_spared :
    Returns (fun r ↦ Spared account w r.1) (accrueLpOverflowDrip call w) := by
  unfold accrueLpOverflowDrip
  refine Outcome.bind (accrueLpStream_spared call w hother) ?_
  rintro ⟨w₁, streamed⟩ h₁
  refine Outcome.bind (overflowDrip_rest call w₁.furnace) ?_
  rintro f ⟨stream, events, ghost, reserve, last, -, -, rfl⟩
  exact h₁.trans (.of_base rfl rfl rfl)

omit hother in
theorem syncFurnaceReserve_spared : Spared account w (syncFurnaceReserve call w) := by
  unfold syncFurnaceReserve
  dsimp only
  split
  · split <;> exact .of_base rfl rfl rfl
  · split <;> exact .of_base rfl rfl rfl

theorem creditReserve_spared (amount : ℕ) :
    Returns (Spared account w) (creditReserve call w amount) := by
  unfold creditReserve
  refine Returns.guard fun _ ↦ ?_
  refine Outcome.bind (accrueLpOverflowDrip_spared call w hother) ?_
  rintro ⟨w₁, streamed⟩ h₁
  refine Returns.ite (fun _ ↦ h₁) fun _ ↦ Returns.seq fun reserve _ ↦ ?_
  have hcredited : Spared account w₁
      { w₁ with furnace := { w₁.furnace with furnaceReserve := reserve } } := .of_base rfl rfl rfl
  have hsynced := (h₁.trans hcredited).trans (syncFurnaceReserve_spared call _)
  exact hsynced.trans (.of_base rfl rfl rfl)

omit hother in
theorem bonusAmm_base (user : Address) (principalClaim principalEff lockDurationSec : ℕ) :
    Returns (fun r ↦ r.1.furnace.self = w.furnace.self ∧
        r.1.furnace.lpRewardsVault = w.furnace.lpRewardsVault ∧ r.1.base = w.base)
      (bonusAmm call w user principalClaim principalEff lockDurationSec) := by
  unfold bonusAmm
  refine Returns.ite (fun _ ↦ ⟨rfl, rfl, rfl⟩) fun _ ↦ ?_
  refine Outcome.bind (bonusAmmComputeAndUpdate_changes call w user principalClaim principalEff
    lockDurationSec) ?_
  rintro ⟨w₁, frame⟩ ⟨lastUpdate, reserve, depth, rfl⟩
  refine Returns.ite (fun _ ↦ ⟨rfl, rfl, rfl⟩) fun _ ↦ ?_
  have hrouted {f : FurnaceState} : Returns (fun r : FurnaceState × BonusAmmFrame ↦
      r.1.self = f.self ∧ r.1.lpRewardsVault = f.lpRewardsVault)
      (bonusAmmSplitAndRoute call f frame) := by
    unfold bonusAmmSplitAndRoute
    dsimp only
    split
    · refine Outcome.bind (fundLpStreamInternal_rest call f _) ?_
      rintro f' ⟨stream, events, ghost, rfl⟩
      exact ⟨rfl, rfl⟩
    · exact ⟨rfl, rfl⟩
  refine Outcome.bind hrouted ?_
  rintro ⟨f, frame'⟩ ⟨hself, hvault⟩
  refine ⟨?_, ?_, rfl⟩
  · unfold bonusAmmEmit
    split <;> exact hself
  · unfold bonusAmmEmit
    split <;> exact hvault

theorem applyBonusAmm_spared (user : Address) (principalClaim principalEff lockDurationSec : ℕ) :
    Returns (fun r ↦ Spared account w r.1)
      (applyBonusAmm call w user principalClaim principalEff lockDurationSec) := by
  unfold applyBonusAmm
  refine Outcome.bind (accrueLpOverflowDrip_spared call w hother) ?_
  rintro ⟨w₁, streamed⟩ h₁
  refine (bonusAmm_base call w₁ user _ _ _).weaken ?_
  rintro r ⟨hself, hvault, hbase⟩
  exact h₁.trans (.of_base hself hvault hbase)

end Bonus

/-! ## Locks -/

/-- `amount` or more goes into one lock, and no lock else changes. -/
structure TopsUp (tokenId amount : ℕ) (s s' : VeClaimNFT.VeState) : Prop where
  owners : s'.owners = s.owners
  nextTokenId : s'.nextTokenId = s.nextTokenId
  others : ∀ id, id ≠ tokenId → s'.locks id = s.locks id
  amount : (s.locks tokenId).amount + amount ≤ (s'.locks tokenId).amount

/-- The next lock is minted, with `amount` or more in it. -/
structure MintsLock (user : Address) (amount : ℕ) (s s' : VeClaimNFT.VeState) : Prop where
  owners : s'.owners = update s.owners s.nextTokenId user
  nextTokenId : s'.nextTokenId = s.nextTokenId + 1
  others : ∀ id, id ≠ s.nextTokenId → s'.locks id = s.locks id
  amount : amount ≤ (s'.locks s.nextTokenId).amount

/-- The lock contract draws what the Furnace has approved. -/
theorem drawn_takes {account : Address} (hother : account ≠ w.furnace.self) {amount : ℕ}
    {w' : World S} {claim : ClaimToken} (hfurnace : w'.furnace = w.furnace)
    (hlock : w'.ve.self = w.ve.self)
    (hdrawn : (w.claim.approve w.furnace.self w.ve.self amount).transferFrom w.ve.self
      w.furnace.self w.ve.self amount = .ok claim)
    (hclaim : w'.claim = claim.approve w.furnace.self w.ve.self 0) : Takes account 0 w w' := by
  have happrove := ClaimToken.approve_spares (c := w.claim) hother w.ve.self amount
  have hpaid := ClaimToken.transferFrom_spares hother hdrawn
  refine ⟨by rw [hfurnace], by rw [hfurnace], hlock, ?_, fun other hout _ ↦ ?_⟩
  · rw [hclaim]
    exact (happrove.after hpaid).after (ClaimToken.approve_spares hother _ _)
  · rw [hclaim]
    exact (ClaimToken.transferFrom_eq_ok hdrawn).balance_third hout.furnace hout.ve

theorem createLockDelegated_mints {account : Address} (hother : account ≠ w.furnace.self)
    (user : Address) (amount duration : ℕ) (autoMax : Bool) :
    Returns (fun r ↦ Takes account 0 w r.1 ∧ MintsLock user amount w.ve r.1.ve ∧
        r.2 = w.ve.nextTokenId)
      (createLockDelegated port call w user amount duration autoMax) := by
  unfold createLockDelegated
  refine Outcome.bind (VeClaimNFT.exec_effect port (call.byFurnace w.furnace) _
    (.createLockFor user amount duration autoMax)) ?_
  rintro base ⟨-, hcreated⟩
  have hself := hcreated.ve.keeps VeClaimNFT.VeState.self fun _ _ ↦ rfl
  refine ⟨drawn_takes w hother rfl hself hcreated.claim rfl, ?_, rfl⟩
  have hlocks := hcreated.ve.keeps VeClaimNFT.VeState.locks fun _ _ ↦ rfl
  refine ⟨hcreated.ve.keeps VeClaimNFT.VeState.owners fun _ _ ↦ rfl,
    hcreated.ve.keeps VeClaimNFT.VeState.nextTokenId fun _ _ ↦ rfl, fun id hid ↦ ?_, ?_⟩
  · exact (congrFun hlocks id).trans (update_of_ne hid _ _)
  · exact (congrArg VeClaimNFT.Lock.amount ((congrFun hlocks _).trans (update_self ..))).ge

theorem addToLockDelegated_topsUp {account : Address} (hother : account ≠ w.furnace.self)
    (user : Address) (tokenId amount : ℕ) :
    Returns (fun w' ↦ Takes account 0 w w' ∧ TopsUp tokenId amount w.ve w'.ve)
      (addToLockDelegated port call w user tokenId amount) := by
  unfold addToLockDelegated
  refine Outcome.bind (VeClaimNFT.exec_effect port (call.byFurnace w.furnace) _
    (.addToLockFor user tokenId amount)) ?_
  rintro base ⟨-, htopped⟩
  have hself := htopped.ve.keeps VeClaimNFT.VeState.self fun _ _ ↦ rfl
  refine ⟨drawn_takes w hother rfl hself htopped.claim rfl, ?_⟩
  have hlocks := htopped.ve.keeps VeClaimNFT.VeState.locks fun _ _ ↦ rfl
  refine ⟨htopped.ve.keeps VeClaimNFT.VeState.owners fun _ _ ↦ rfl,
    htopped.ve.keeps VeClaimNFT.VeState.nextTokenId fun _ _ ↦ rfl, fun id hid ↦ ?_, ?_⟩
  · exact (congrFun hlocks id).trans (update_of_ne hid _ _)
  · exact (congrArg VeClaimNFT.Lock.amount ((congrFun hlocks tokenId).trans (update_self ..))).ge

/-- `amount` or more goes into the target lock of `user`, or into the next lock. -/
structure Deposits (user : Address) (amount targetTokenId tokenIdUsed : ℕ)
    (s s' : VeClaimNFT.VeState) : Prop where
  existing : targetTokenId ≠ 0 → tokenIdUsed = targetTokenId ∧ TopsUp targetTokenId amount s s'
  fresh : targetTokenId = 0 → tokenIdUsed = s.nextTokenId ∧ MintsLock user amount s s'

theorem lockToDestination_deposits {account : Address} (hother : account ≠ w.furnace.self)
    (user : Address) (amountLocked targetTokenId durationSeconds : ℕ) (createAutoMax : Bool) :
    Returns (fun r ↦ Takes account 0 w r.1 ∧
        Deposits user amountLocked targetTokenId r.2.2 w.ve r.1.ve)
      (lockToDestination port call w user amountLocked targetTokenId durationSeconds
        createAutoMax) := by
  unfold lockToDestination
  refine Returns.ite (fun htarget ↦ ?_) fun htarget ↦ ?_
  · refine Returns.seq fun veOut _ ↦ ?_
    refine Outcome.bind (delegatecall_returns
      (createLockDelegated_mints port call w hother user amountLocked _ createAutoMax)) ?_
    rintro ⟨w₁, tokenId⟩ ⟨htakes, hmints, hid⟩
    exact ⟨htakes, fun hne ↦ absurd htarget hne, fun _ ↦ ⟨hid, hmints⟩⟩
  · refine Returns.seq fun veOut _ ↦ ?_
    refine Outcome.bind (delegatecall_returns
      (addToLockDelegated_topsUp port call w hother user targetTokenId amountLocked)) ?_
    rintro w₁ ⟨htakes, htops⟩
    exact ⟨htakes, fun _ ↦ ⟨rfl, htops⟩, fun hzero ↦ absurd hzero htarget⟩

theorem Deposits.mono {user amount amount' targetTokenId tokenIdUsed : ℕ}
    {s s' : VeClaimNFT.VeState}
    (h : Deposits user amount targetTokenId tokenIdUsed s s') (hle : amount' ≤ amount) :
    Deposits user amount' targetTokenId tokenIdUsed s s' := by
  refine ⟨fun htarget ↦ ?_, fun htarget ↦ ?_⟩
  · obtain ⟨hid, htops⟩ := h.existing htarget
    exact ⟨hid, htops.owners, htops.nextTokenId, htops.others,
      (Nat.add_le_add_left hle _).trans htops.amount⟩
  · obtain ⟨hid, hmints⟩ := h.fresh htarget
    exact ⟨hid, hmints.owners, hmints.nextTokenId, hmints.others, hle.trans hmints.amount⟩

/-! ## Entries -/

theorem enterAfterPrincipal_deposits {account : Address} (hother : account ≠ w.furnace.self)
    (user : Address) (mode ethIn principalClaim targetTokenId durationSeconds : ℕ)
    (createAutoMax : Bool) (minVeOut : ℕ) :
    Returns (fun r ↦ Takes account 0 w r.1 ∧
        Deposits user principalClaim targetTokenId r.2.tokenIdUsed w.ve r.1.ve)
      (enterAfterPrincipal port call w user mode ethIn principalClaim targetTokenId durationSeconds
        createAutoMax minVeOut) := by
  unfold enterAfterPrincipal
  refine Returns.guard fun _ ↦ Returns.guard fun _ ↦ Returns.guard fun _ ↦ ?_
  refine Returns.seq fun ⟨d, weight⟩ _ ↦ Returns.seq fun product _ ↦ ?_
  refine Outcome.bind (applyBonusAmm_spared call w hother user principalClaim _ d) ?_
  rintro ⟨w₁, bonus⟩ h₁
  have hother₁ : account ≠ w₁.furnace.self := by
    rw [h₁.self]
    exact hother
  refine Outcome.bind (lockToDestination_deposits port call w₁ hother₁ user
    (principalClaim + bonus.user) targetTokenId d createAutoMax) ?_
  rintro ⟨w₂, veOut, tokenIdUsed⟩ ⟨h₂, hlocks⟩
  refine Returns.seq fun basis _ ↦ Returns.guard fun _ ↦ ?_
  have hend {f : FurnaceState} (e : Event) (hself : f.self = w₂.furnace.self)
      (hvault : f.lpRewardsVault = w₂.furnace.lpRewardsVault) :
      let w₃ := (syncFurnaceReserve call { w₂ with furnace := f }).emit e
      Takes account 0 w w₃ ∧ Deposits user principalClaim targetTokenId tokenIdUsed w.ve w₃.ve := by
    have h₃ : Spared account w₂ { w₂ with furnace := f } := .of_base hself hvault rfl
    have hsynced := h₃.trans (syncFurnaceReserve_spared call _)
    have hemitted : Spared account w₂ ((syncFurnaceReserve call { w₂ with furnace := f }).emit e) :=
      hsynced.trans (.of_base rfl rfl rfl)
    refine ⟨(h₁.toTakes.after h₂).after hemitted.toTakes, ?_⟩
    rw [hemitted.ve, ← show w₁.ve = w.ve from h₁.ve]
    exact hlocks.mono (Nat.le_add_right _ _)
  apply hend
  · split <;> rfl
  · split <;> rfl

/-- An entry of CLAIM takes its amount from the caller. -/
theorem enterClaim_deposits (hother : call.sender ≠ w.furnace.self) (user : Address)
    (claimAmount : ℕ) (dst : Destination) :
    Returns (fun r ↦ Takes call.sender claimAmount w r.1 ∧
        Deposits user claimAmount dst.targetTokenId r.2.tokenIdUsed w.ve r.1.ve)
      (enterClaim port call w user claimAmount dst) := by
  unfold enterClaim
  refine Returns.seq fun _ _ ↦ Returns.seq fun w₁ hpull ↦ ?_
  obtain ⟨claim, htransfer, hw₁⟩ := bind_eq_ok_iff.mp hpull
  obtain rfl := Except.ok.inj hw₁
  have hpulled : Takes call.sender claimAmount w (w.withClaim claim) :=
    ⟨rfl, rfl, rfl, ClaimToken.transferFrom_spends htransfer, fun other hout hne ↦
      (ClaimToken.transferFrom_eq_ok htransfer).balance_third hne hout.furnace⟩
  refine (enterAfterPrincipal_deposits port call (w.withClaim claim) hother user _ _ _ _ _ _
    _).weaken ?_
  rintro r ⟨htakes, hlocks⟩
  exact ⟨hpulled.after htakes, hlocks⟩

theorem enterWithClaimFor_deposits (hother : call.sender ≠ w.furnace.self) (user : Address)
    (claimAmount : ℕ) (dst : Destination) :
    Returns (fun r ↦ Takes call.sender claimAmount w r.1 ∧
        Deposits user claimAmount dst.targetTokenId r.2.tokenIdUsed w.ve r.1.ve)
      (enterWithClaimFor port call w user claimAmount dst) := by
  unfold enterWithClaimFor
  refine Returns.seq fun _ _ ↦ Returns.guard fun _ ↦ Returns.guard fun _ ↦ ?_
  have hend := enterClaim_deposits port call w hother user claimAmount dst
  dsimp only
  split
  · exact Returns.seq fun _ _ ↦ hend
  split
  · exact Returns.seq fun _ _ ↦ hend
  split
  · exact Returns.seq fun _ _ ↦ hend
  · trivial

end ClaimRush.Furnace
