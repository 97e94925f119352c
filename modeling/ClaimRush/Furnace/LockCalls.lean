import ClaimRush.Furnace.Payers

/-!
# The lock call of a sale and of an entry

A sale burns one lock, and an entry creates or tops up one.  Everything else these
calls do outside the storage of the Furnace happens in the token.
-/

open Function

namespace ClaimRush.Furnace

variable {S : Type} (port : VeClaimNFT.IShareholderRoyalties S) (call : Call) (w : World S)

/-- The Furnace calls the lock contract once; before and after, only the token and the
storage of the Furnace change. -/
structure LockCall (op : VeClaimNFT.Op) (w w' : World S) : Prop where
  self : w'.furnace.self = w.furnace.self
  call : ∃ before base after,
    VeClaimNFT.exec port (call.byFurnace w.furnace) { w.base with claim := before } op = .ok base ∧
    w'.base = { base with claim := after }

variable {port call w}

theorem Call.byFurnace_congr {f f' : FurnaceState} (h : f'.self = f.self) :
    call.byFurnace f' = call.byFurnace f := by
  unfold Call.byFurnace
  rw [h]

/-- A call that only follows changes of the token and of the Furnace. -/
theorem LockCall.after {op : VeClaimNFT.Op} {w₁ w' : World S} (h : LockCall port call op w₁ w')
    (hself : w₁.furnace.self = w.furnace.self)
    (hbase : ∃ claim, w₁.base = { w.base with claim := claim }) : LockCall port call op w w' := by
  obtain ⟨f, base₁⟩ := w₁
  obtain ⟨claim, rfl⟩ := hbase
  obtain ⟨hself', before, base, after, hexec, hbase'⟩ := h
  rw [Call.byFurnace_congr hself] at hexec
  exact ⟨hself'.trans hself, before, base, after, hexec, hbase'⟩

theorem LockCall.claimed {op : VeClaimNFT.Op} {w' w'' : World S} (h : LockCall port call op w w')
    (hself : w''.furnace.self = w'.furnace.self) {claim : ClaimToken}
    (hbase : w''.base = { w'.base with claim := claim }) : LockCall port call op w w'' := by
  obtain ⟨hself', before, base, after, hexec, hbase'⟩ := h
  refine ⟨hself.trans hself', before, base, claim, hexec, ?_⟩
  rw [hbase, hbase']

variable (port call w)

/-! ## Sales -/

theorem accrueLpOverflowDrip_base :
    Returns (fun r ↦ r.1.furnace.self = w.furnace.self ∧
        ∃ claim, r.1.base = { w.base with claim := claim }) (accrueLpOverflowDrip call w) := by
  refine (accrueLpOverflowDrip_rest call w).weaken ?_
  rintro r ⟨stream, events, ghost, reserve, last, claim, -, -, -, hr⟩
  rw [hr]
  exact ⟨rfl, claim, rfl⟩

theorem syncFurnaceReserve_same :
    (syncFurnaceReserve call w).furnace.self = w.furnace.self ∧
      (syncFurnaceReserve call w).base = w.base := by
  unfold syncFurnaceReserve
  dsimp only
  generalize (if w.claimBalance > w.furnace.stream.liability then
    w.claimBalance - w.furnace.stream.liability else 0) = cap
  split <;> exact ⟨rfl, rfl⟩

theorem settleSale_lockCall (seller : Address) (tokenId lockAmount : ℕ) (q : SellExecutionData)
    (cut : ℕ) :
    Returns (LockCall port call (.furnaceBurnAndWithdraw tokenId w.furnace.self) w)
      (settleSale port call w seller tokenId lockAmount q cut) := by
  unfold settleSale
  refine Returns.seq fun f₁ hvolume ↦ ?_
  obtain ⟨volume, -, hvolume⟩ := bind_eq_ok_iff.mp hvolume
  obtain rfl := Except.ok.inj hvolume
  refine Outcome.bind (trackLpSaleRewardFunding_changes call _ q.lpReward) ?_
  rintro f₂ ⟨day, funded, rfl⟩
  refine Returns.seq fun base hburned ↦ Returns.seq fun reserve _ ↦ ?_
  have hpaid (f : FurnaceState) (hself : f.self = w.furnace.self) :
      Returns (LockCall port call (.furnaceBurnAndWithdraw tokenId w.furnace.self) w)
        (do let claim ← base.claim.transfer f.self seller q.claimOut
            return syncFurnaceReserve call
              { furnace := f, base := { base with claim := claim } }) := by
    refine Returns.seq fun claim _ ↦ ?_
    obtain ⟨hself', hbase⟩ :=
      syncFurnaceReserve_same call (World.mk f { base with claim := claim })
    exact ⟨hself'.trans hself, w.base.claim, base, claim, hburned, hbase⟩
  dsimp only
  apply Returns.ite
  · intro _
    refine Outcome.bind (fundLpStreamInternal_rest call _ q.lpReward) ?_
    rintro f ⟨stream, events, ghost, rfl⟩
    exact hpaid _ rfl
  · exact fun _ ↦ hpaid _ rfl

theorem sellLockToFurnaceFromMarket_lockCall (seller : Address) (tokenId minClaimOut : ℕ) :
    Returns (fun r ↦ LockCall port call (.furnaceBurnAndWithdraw tokenId w.furnace.self) w r.1)
      (sellLockToFurnaceFromMarket port call w seller tokenId minClaimOut) := by
  unfold sellLockToFurnaceFromMarket
  refine Returns.seq fun _ _ ↦ Returns.seq fun _ _ ↦ Returns.guard fun _ ↦ Returns.guard fun _ ↦ ?_
  refine Outcome.bind (accrueLpOverflowDrip_base call w) ?_
  rintro ⟨w₁, streamed⟩ ⟨hself, hbase⟩
  refine Returns.guard fun _ ↦ Returns.guard fun _ ↦ Returns.guard fun _ ↦ ?_
  refine Returns.guard fun _ ↦ Returns.guard fun _ ↦ Returns.guard fun _ ↦ ?_
  refine Returns.seq fun ⟨q, cut⟩ _ ↦ ?_
  refine Outcome.bind (settleSale_lockCall port call _ seller tokenId _ q cut) ?_
  intro w' hsettled
  have hself₁ : w₁.furnace.self = w.furnace.self := hself
  rw [← hself₁]
  exact hsettled.after hself₁ hbase

/-- A sale pays out of the Furnace and out of the lock. -/
theorem settleSale_spares {account : Address} (hself : account ≠ w.furnace.self)
    (hlock : account ≠ w.ve.self) (seller : Address) (tokenId lockAmount : ℕ)
    (q : SellExecutionData) (cut : ℕ) :
    Returns (fun w' ↦ w.claim.Spares account w'.claim)
      (settleSale port call w seller tokenId lockAmount q cut) := by
  unfold settleSale
  refine Returns.seq fun f₁ hvolume ↦ ?_
  obtain ⟨volume, -, hvolume⟩ := bind_eq_ok_iff.mp hvolume
  obtain rfl := Except.ok.inj hvolume
  refine Outcome.bind (trackLpSaleRewardFunding_changes call _ q.lpReward) ?_
  rintro f₂ ⟨day, funded, rfl⟩
  refine Returns.seq fun base hburned ↦ Returns.seq fun reserve _ ↦ ?_
  obtain ⟨-, -, hwithdrawn⟩ :=
    (VeClaimNFT.furnaceBurnAndWithdraw_effect port _ w.base tokenId _).of_ok hburned
  have hspared : w.claim.Spares account base.claim :=
    ClaimToken.transfer_spares hlock hwithdrawn.claim
  have hpaid (f : FurnaceState) (hf : f.self = w.furnace.self) :
      Returns (fun w' ↦ w.claim.Spares account w'.claim)
        (do let claim ← base.claim.transfer f.self seller q.claimOut
            return syncFurnaceReserve call
              { furnace := f, base := { base with claim := claim } }) := by
    refine Returns.seq fun claim htransfer ↦ ?_
    have hsync := syncFurnaceReserve_same call (World.mk f { base with claim := claim })
    change w.claim.Spares account (syncFurnaceReserve call _).base.claim
    rw [hsync.2]
    exact hspared.after (ClaimToken.transfer_spares (hf ▸ hself) htransfer)
  dsimp only
  apply Returns.ite
  · intro _
    refine Outcome.bind (fundLpStreamInternal_rest call _ q.lpReward) ?_
    rintro f ⟨stream, events, ghost, rfl⟩
    exact hpaid _ rfl
  · exact fun _ ↦ hpaid _ rfl

theorem sellLockToFurnaceFromMarket_spares {account : Address} (hself : account ≠ w.furnace.self)
    (hlock : account ≠ w.ve.self) (seller : Address) (tokenId minClaimOut : ℕ) :
    Returns (fun r ↦ w.claim.Spares account r.1.claim)
      (sellLockToFurnaceFromMarket port call w seller tokenId minClaimOut) := by
  unfold sellLockToFurnaceFromMarket
  refine Returns.seq fun _ _ ↦ Returns.seq fun _ _ ↦ Returns.guard fun _ ↦ Returns.guard fun _ ↦ ?_
  refine Outcome.bind (accrueLpOverflowDrip_spared call w hself) ?_
  rintro ⟨w₁, streamed⟩ hdripped
  have hself₁ : account ≠ w₁.furnace.self := fun h ↦ hself (h.trans hdripped.self)
  have hlock₁ : account ≠ w₁.ve.self := by
    rw [show w₁.ve = w.ve from hdripped.ve]
    exact hlock
  refine Returns.guard fun _ ↦ Returns.guard fun _ ↦ Returns.guard fun _ ↦ ?_
  refine Returns.guard fun _ ↦ Returns.guard fun _ ↦ Returns.guard fun _ ↦ ?_
  refine Returns.seq fun ⟨q, cut⟩ _ ↦ ?_
  refine Outcome.bind (settleSale_spares port call
    { w₁ with furnace := { w₁.furnace with
      pendingSellSeller := update w₁.furnace.pendingSellSeller tokenId 0 } }
    hself₁ hlock₁ seller tokenId _ q cut) ?_
  intro w' hsettled
  exact hdripped.claim.after hsettled

/-! ## Entries -/

theorem applyBonusAmm_base (user : Address) (principalClaim principalEff lockDurationSec : ℕ) :
    Returns (fun r ↦ r.1.furnace.self = w.furnace.self ∧
        ∃ claim, r.1.base = { w.base with claim := claim })
      (applyBonusAmm call w user principalClaim principalEff lockDurationSec) := by
  unfold applyBonusAmm
  refine Outcome.bind (accrueLpOverflowDrip_base call w) ?_
  rintro ⟨w₁, streamed⟩ ⟨hself, hbase⟩
  refine (bonusAmm_base call w₁ user principalClaim principalEff lockDurationSec).weaken ?_
  rintro r ⟨hself', -, hbase'⟩
  exact ⟨hself'.trans hself, by rw [hbase']; exact hbase⟩

/-- The lock call of an entry of `amount` for `user`. -/
def entryOp (user : Address) (amount targetTokenId durationSeconds : ℕ) (createAutoMax : Bool) :
    VeClaimNFT.Op :=
  if targetTokenId = 0 then .createLockFor user amount durationSeconds createAutoMax
  else .addToLockFor user targetTokenId amount

theorem lockToDestination_lockCall (user : Address)
    (amountLocked targetTokenId durationSeconds : ℕ) (createAutoMax : Bool) :
    Returns (fun r ↦ r.1.furnace = w.furnace ∧ LockCall port call
        (entryOp user amountLocked targetTokenId durationSeconds createAutoMax) w r.1)
      (lockToDestination port call w user amountLocked targetTokenId durationSeconds
        createAutoMax) := by
  unfold lockToDestination entryOp
  split
  · refine Returns.seq fun veOut _ ↦ Outcome.bind (delegatecall_returns (Returns.iff_forall.mpr
      fun r hr ↦ ?_)) fun r hr ↦ hr
    obtain ⟨base, hcreated, hr⟩ := bind_eq_ok_iff.mp hr
    obtain rfl := Except.ok.inj hr
    exact ⟨rfl, rfl, _, base, _, hcreated, rfl⟩
  · refine Returns.seq fun veOut _ ↦ Outcome.bind (delegatecall_returns (Returns.iff_forall.mpr
      fun w' hw' ↦ ?_)) fun w' hw' ↦ hw'
    obtain ⟨base, hadded, hw'⟩ := bind_eq_ok_iff.mp hw'
    obtain rfl := Except.ok.inj hw'
    exact ⟨rfl, rfl, _, base, _, hadded, rfl⟩

theorem enterAfterPrincipal_lockCall (user : Address) (mode ethIn principalClaim targetTokenId
    durationSeconds : ℕ) (createAutoMax : Bool) (minVeOut : ℕ) :
    Returns (fun r ↦ ∃ d, LockCall port call
        (entryOp user (principalClaim + r.2.bonusClaim) targetTokenId d createAutoMax) w r.1)
      (enterAfterPrincipal port call w user mode ethIn principalClaim targetTokenId durationSeconds
        createAutoMax minVeOut) := by
  unfold enterAfterPrincipal
  refine Returns.guard fun _ ↦ Returns.guard fun _ ↦ Returns.guard fun _ ↦ ?_
  refine Returns.seq fun ⟨d, weight⟩ _ ↦ Returns.seq fun product _ ↦ ?_
  refine Outcome.bind (applyBonusAmm_base call w user principalClaim _ d) ?_
  rintro ⟨w₁, bonus⟩ ⟨hself, hbase⟩
  refine Outcome.bind (lockToDestination_lockCall port call w₁ user
    (principalClaim + bonus.user) targetTokenId d createAutoMax) ?_
  rintro ⟨w₂, veOut, tokenIdUsed⟩ ⟨hfurnace, hlocked⟩
  refine Returns.seq fun basis _ ↦ Returns.guard fun _ ↦ ⟨d, ?_⟩
  have hend {f : FurnaceState} (e : Event) (hf : f.self = w₂.furnace.self) :
      LockCall port call (entryOp user (principalClaim + bonus.user) targetTokenId d createAutoMax)
        w₁ ((syncFurnaceReserve call { w₂ with furnace := f }).emit e) := by
    obtain ⟨hself', hbase'⟩ := syncFurnaceReserve_same call { w₂ with furnace := f }
    exact hlocked.claimed (hself'.trans hf) hbase'
  refine (hend _ ?_).after hself hbase
  split <;> rfl

theorem enterWithClaimFor_lockCall (user : Address) (claimAmount : ℕ) (dst : Destination) :
    Returns (fun r ↦ ∃ d, LockCall port call (entryOp user (claimAmount + r.2.bonusClaim)
        dst.targetTokenId d dst.createAutoMax) w r.1)
      (enterWithClaimFor port call w user claimAmount dst) := by
  have hend : Returns (fun r ↦ ∃ d, LockCall port call (entryOp user (claimAmount + r.2.bonusClaim)
      dst.targetTokenId d dst.createAutoMax) w r.1)
      (enterClaim port call w user claimAmount dst) := by
    unfold enterClaim
    refine Returns.seq fun _ _ ↦ Returns.seq fun w₁ hpull ↦ ?_
    obtain ⟨claim, -, hw₁⟩ := bind_eq_ok_iff.mp hpull
    obtain rfl := Except.ok.inj hw₁
    refine (enterAfterPrincipal_lockCall port call _ user _ _ _ _ _ _ _).weaken ?_
    rintro r ⟨d, hlocked⟩
    exact ⟨d, hlocked.after rfl ⟨claim, rfl⟩⟩
  unfold enterWithClaimFor
  refine Returns.seq fun _ _ ↦ Returns.guard fun _ ↦ Returns.guard fun _ ↦ ?_
  dsimp only
  split
  · exact Returns.seq fun _ _ ↦ hend
  split
  · exact Returns.seq fun _ _ ↦ hend
  split
  · exact Returns.seq fun _ _ ↦ hend
  · trivial

end ClaimRush.Furnace
