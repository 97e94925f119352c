import ClaimRush.Furnace.BasisBooks
import ClaimRush.Furnace.Ladder

/-!
# Runs of the bonus basis

Locks are filled through the Furnace only; other accounts may unlock, list, sell or toggle
them between its calls and during its swaps.
-/

open Function Relation

namespace ClaimRush.Furnace

open Constants

variable {S : Type} (port : VeClaimNFT.IShareholderRoyalties S) (call : Call) (w : World S)

/-! ## Sales -/

theorem trackLpSaleRewardFunding_sameBooks (f : FurnaceState) (amount : ℕ) :
    Returns f.SameBooks (trackLpSaleRewardFunding call f amount) := by
  apply (trackLpSaleRewardFunding_changes call f amount).weaken
  rintro f' ⟨day, funded, rfl⟩
  exact ⟨rfl, rfl⟩

theorem settleSale_booked (hb : w.Booked) (seller : Address) {tokenId : ℕ}
    (hlive : w.ve.owners tokenId ≠ 0) (lockAmount : ℕ) (q : SellExecutionData) (cut : ℕ) :
    Returns (fun w' ↦ w'.Booked) (settleSale port call w seller tokenId lockAmount q cut) := by
  unfold settleSale
  apply Returns.seq
  intro f₁ hvolume
  obtain ⟨volume, -, hvolume⟩ := bind_eq_ok_iff.mp hvolume
  obtain rfl := Except.ok.inj hvolume
  apply Outcome.bind (trackLpSaleRewardFunding_sameBooks call _ q.lpReward)
  intro f₂ htracked
  apply Outcome.bind (VeClaimNFT.exec_effect port _ w.base
    (.furnaceBurnAndWithdraw tokenId f₂.self))
  rintro base ⟨-, -, hout⟩
  apply Returns.seq
  intro reserve _
  obtain ⟨hwanes, hgone⟩ := wanes_withdrawn w.ve tokenId
  have hwanes : Wanes w.ve base.ve := wanes_follows hout.ve hwanes
  have hgone : base.ve.owners tokenId = 0 :=
    (congrFun (hout.ve.keeps VeClaimNFT.VeState.owners fun _ _ ↦ rfl) tokenId).trans hgone
  have hpaid (f : FurnaceState) (hbasis : f.bonusBasis = update w.furnace.bonusBasis tokenId 0)
      (hposted : postings f.events = postings w.furnace.events ++ [.close tokenId]) :
      Returns (fun w' ↦ w'.Booked) (do
        let claim ← base.claim.transfer f.self seller q.claimOut
        return syncFurnaceReserve call { furnace := f, base := { base with claim := claim } }) := by
    apply Returns.seq
    intro claim _
    have hsync := syncFurnaceReserve_quiet call (World.mk f { base with claim := claim })
    exact hsync.booked (hb.closed hlive hwanes hgone hbasis hposted)
  have hsold (e : Event) (he : e.posting = some (.close tokenId)) :
      postings (f₂.events ++ [e]) = postings w.furnace.events ++ [.close tokenId] := by
    rw [postings_concat, htracked.posted, he]
    rfl
  have hreset : update f₂.bonusBasis tokenId 0 = update w.furnace.bonusBasis tokenId 0 :=
    congrArg (update · tokenId 0) htracked.basis
  dsimp only
  apply Returns.ite
  · intro _
    apply Outcome.bind (fundLpStreamInternal_sameBooks call _ q.lpReward)
    intro f hfunded
    exact hpaid f (hfunded.basis.trans hreset) (hfunded.posted.trans (hsold _ rfl))
  · intro _
    exact hpaid _ hreset (hsold _ rfl)

theorem sellLockToFurnaceFromMarket_booked (hb : w.Booked) (seller : Address)
    (tokenId minClaimOut : ℕ) :
    Returns (fun r ↦ r.1.Booked)
      (sellLockToFurnaceFromMarket port call w seller tokenId minClaimOut) := by
  unfold sellLockToFurnaceFromMarket
  refine Returns.seq fun _ _ ↦ Returns.seq fun _ _ ↦ Returns.guard fun _ ↦ Returns.guard fun _ ↦ ?_
  apply Outcome.bind (accrueLpOverflowDrip_quiet call w)
  rintro ⟨w₁, streamed⟩ hquiet
  apply Returns.guard
  intro hlive
  refine Returns.guard fun _ ↦ Returns.guard fun _ ↦ Returns.guard fun _ ↦ ?_
  refine Returns.guard fun _ ↦ Returns.guard fun _ ↦ Returns.seq fun ⟨q, cut⟩ _ ↦ ?_
  have hb₁ : World.Booked { w₁ with furnace := { w₁.furnace with
      pendingSellSeller := update w₁.furnace.pendingSellSeller tokenId 0 } } := hquiet.booked hb
  exact Outcome.bind (settleSale_booked port call _ hb₁ seller hlive _ q cut) fun _ h ↦ h

theorem rescuePendingSellNFT_booked (hb : w.Booked) (tokenId : ℕ) :
    Returns (fun w' ↦ w'.Booked) (rescuePendingSellNFT port call w tokenId) := by
  unfold rescuePendingSellNFT
  refine Returns.seq fun _ _ ↦ Returns.guard fun _ ↦ Returns.guard fun _ ↦ ?_
  apply Outcome.bind (VeClaimNFT.exec_effect port _ w.base
    (.furnaceBurnAndWithdraw tokenId (w.furnace.pendingSellSeller tokenId)))
  rintro base ⟨-, -, hout⟩
  obtain ⟨hwanes, hgone⟩ := wanes_withdrawn w.ve tokenId
  have hlive : w.ve.owners tokenId ≠ 0 := hout.owner_ne
  refine hb.closed hlive (wanes_follows hout.ve hwanes) ?_ rfl ?_
  · exact (congrFun (hout.ve.keeps VeClaimNFT.VeState.owners fun _ _ ↦ rfl) tokenId).trans hgone
  · change postings (w.furnace.events ++ [_]) = _
    rw [postings_concat]
    rfl

/-! ## Swaps -/

/-- Somebody other than the wired Furnace calls the lock contract, or the token and the
royalties storage change. -/
inductive Aside : VeClaimNFT.World S → VeClaimNFT.World S → Prop
  | locks {b b' : VeClaimNFT.World S} (call : VeClaimNFT.Call) (op : VeClaimNFT.Op)
      (hsender : call.sender ≠ b.ve.furnace) (hexec : VeClaimNFT.exec port call b op = .ok b') :
      Aside b b'
  | rest {b : VeClaimNFT.World S} (royalties : S) (claim : ClaimToken) :
      Aside b { ve := b.ve, royalties := royalties, claim := claim }

/-- A router does no more than others may do. -/
def Swap.Aside (swap : Swap S) : Prop :=
  ∀ b b', swap b = some b' → ReflTransGen (Furnace.Aside port) b b'

variable {port} in
theorem aside_wanes {b b' : VeClaimNFT.World S} (h : ReflTransGen (Aside port) b b') :
    Wanes b.ve b'.ve := by
  induction h with
  | refl => exact .refl _
  | tail _ hstep ih =>
    cases hstep with
    | locks call op hsender hexec =>
      exact ih.trans ((exec_wanes port call _ op hsender).of_ok hexec)
    | rest royalties claim => exact ih

theorem enterSwapped_booked (hb : w.Booked) (user : Address) (mode ethIn : ℕ) {swap : Swap S}
    (hswap : swap.Aside port) (dst : Destination) :
    Returns (fun r ↦ r.1.Booked) (enterSwapped port call w user mode ethIn swap.fixed dst) := by
  unfold enterSwapped
  apply Returns.seq
  rintro ⟨w₁, principalClaim⟩ hswapped
  obtain ⟨_, -, hswapped⟩ := bind_eq_ok_iff.mp hswapped
  obtain ⟨base, hbase, hswapped⟩ := bind_eq_ok_iff.mp hswapped
  obtain ⟨_, -, hswapped⟩ := bind_eq_ok_iff.mp hswapped
  obtain ⟨_, -, hswapped⟩ := bind_eq_ok_iff.mp hswapped
  obtain ⟨rfl, rfl⟩ := Prod.mk.inj (Except.ok.inj hswapped)
  have hmoved := Option.mem_filter_iff.mp (externalCall_eq_ok.mp hbase)
  have hb₁ : World.Booked { w with base := base } :=
    hb.waned (.refl _) (aside_wanes (hswap _ _ hmoved.1))
  exact enterAfterPrincipal_booked port call _ hb₁ _ _ _ _ _ _ _ _

/-! ## Administration -/

theorem logged_quiet {f : FurnaceState} {e : Event} (h : w.furnace.SameBooks f)
    (he : e.posting = none) :
    Returns (Quiet w) (pure { w with furnace := f.emit e } : Except Error (World S)) :=
  ⟨h.emit he, rfl⟩

theorem tick_quiet : Returns (Quiet w) (tick call w) := by
  unfold tick
  apply Outcome.bind (accrueLpOverflowDrip_quiet call w)
  rintro ⟨w₁, streamed⟩ hdrip
  dsimp only
  split
  · apply Outcome.bind (fundLpStreamInternal_sameBooks call w₁.furnace 0)
    intro f hf
    have hfunded : Quiet w { w₁ with furnace := f } := ⟨hdrip.books.trans hf, hdrip.ve⟩
    exact hfunded.trans (syncFurnaceReserve_quiet call _)
  · exact hdrip.trans (syncFurnaceReserve_quiet call _)

theorem creditReserve_quiet (amount : ℕ) : Returns (Quiet w) (creditReserve call w amount) := by
  unfold creditReserve
  apply Returns.guard
  intro _
  apply Outcome.bind (accrueLpOverflowDrip_quiet call w)
  rintro ⟨w₁, streamed⟩ hdrip
  apply Returns.ite
  · exact fun _ ↦ hdrip
  intro _
  apply Returns.seq
  intro reserve _
  have hsync := syncFurnaceReserve_quiet call
    { w₁ with furnace := { w₁.furnace with furnaceReserve := reserve } }
  have hcredited : Quiet w { w₁ with furnace := { w₁.furnace with furnaceReserve := reserve } } :=
    ⟨⟨hdrip.books.basis, hdrip.books.posted⟩, hdrip.ve⟩
  have hboth := hcredited.trans hsync
  exact ⟨hboth.books.emit rfl, hboth.ve⟩

theorem settleMaturedLpCarry_quiet (vault : Address) :
    Quiet w (settleMaturedLpCarry call w vault) := by
  unfold settleMaturedLpCarry
  dsimp only
  split
  · exact .refl w
  split
  · exact .refl w
  split
  · have hnotified := notify_sameBooks call { w.furnace with
      stream := { w.furnace.stream with carry := 0 }
      ghost := { w.furnace.ghost with
        streamed := w.furnace.ghost.streamed + w.furnace.stream.carry } }
      vault w.furnace.stream.carry
    exact ⟨⟨hnotified.basis, hnotified.posted⟩, rfl⟩
  · exact ⟨(FurnaceState.SameBooks.refl _).emit rfl, rfl⟩

theorem setMineCore_quiet (mineCore : Address) :
    Returns (Quiet w) (setMineCore call w mineCore) := by
  unfold setMineCore
  apply Returns.seq
  intro _ _
  apply Returns.seq
  intro _ _
  have hset (f : FurnaceState) (hf : w.furnace.SameBooks f) (old : FurnaceState) :
      Quiet w { w with furnace :=
        let f := { f with mineCore := mineCore, guardian := mineCore }.emit
          (.MineCoreChanged old.mineCore mineCore)
        if old.guardian ≠ mineCore then f.emit (.GuardianChanged old.guardian mineCore)
        else f } := by
    have hchanged : w.furnace.SameBooks ({ f with mineCore := mineCore, guardian := mineCore }.emit
        (.MineCoreChanged old.mineCore mineCore)) := by
      apply FurnaceState.SameBooks.emit
      · exact ⟨hf.basis, hf.posted⟩
      · rfl
    refine ⟨?_, rfl⟩
    dsimp only
    split
    · exact hchanged.emit rfl
    · exact hchanged
  apply Returns.guard
  intro _
  dsimp only
  split
  · refine Returns.seq fun _ _ ↦ Returns.guard fun _ ↦ ?_
    apply hset
    exact ⟨rfl, rfl⟩
  · refine Returns.seq fun _ _ ↦ Returns.guard fun _ ↦ ?_
    apply hset
    exact .refl _

theorem setLpRewardsVault_quiet (vault : Address) :
    Returns (Quiet w) (setLpRewardsVault call w vault) := by
  have hset : Returns (Quiet w) (do
      if w.furnace.lpRewardsVault ≠ vault then
        let dripped ← accrueLpOverflowDrip call w
        let w₁ := settleMaturedLpCarry call dripped.1 w.furnace.lpRewardsVault
        let liability ← lpRewardsVaultLiability call w₁.furnace
        revertIf (liability ≠ 0) .LpRewardsStreamActive
        let f := { w₁.furnace with
          lastLpOverflowDripUpdate := call.timestamp
          lpRewardsVault := vault }
        return { w₁ with
          furnace := f.emit (.LpRewardsVaultSet w.furnace.lpRewardsVault vault) }
      else
        return w.emit (.LpRewardsVaultSet w.furnace.lpRewardsVault vault)) := by
    apply Returns.ite
    · intro _
      apply Outcome.bind (accrueLpOverflowDrip_quiet call w)
      rintro ⟨w₁, streamed⟩ hdrip
      have hsettled := hdrip.trans
        (settleMaturedLpCarry_quiet call w₁ w.furnace.lpRewardsVault)
      refine Returns.seq fun _ _ ↦ Returns.guard fun _ ↦ ⟨?_, hsettled.ve⟩
      apply FurnaceState.SameBooks.emit
      · exact ⟨hsettled.books.basis, hsettled.books.posted⟩
      · rfl
    · exact fun _ ↦ logged_quiet w (.refl _) rfl
  unfold setLpRewardsVault
  apply Returns.seq
  intro _ _
  dsimp only
  apply Returns.ite
  · intro _
    exact Returns.guard fun _ ↦ Returns.seq fun _ _ ↦ hset
  · exact fun _ ↦ hset

/-! ## Calls -/

/-- What others do besides the call: between the calls, and in the swaps. -/
def Op.Aside (w : World S) : Op S → Prop
  | .enterWithEth swap _ => swap.Aside port
  | .enterWithToken _ _ swap _ => swap.Aside port
  | .enterWithEthFor _ swap _ => swap.Aside port
  | .enterWithTokenFromCallerFor _ _ _ swap _ => swap.Aside port
  | .lockEthReward _ _ swap _ => swap.Aside port
  | .outside base => ReflTransGen (Furnace.Aside port) w.base base
  | _ => True

variable {w} in
theorem first_booked {α : Type} {x : Except Error (World S × α)}
    (h : Returns (fun r ↦ r.1.Booked) x) :
    Returns (fun w' ↦ w'.Booked) (do return (← x).1) :=
  Outcome.bind h fun _ hr ↦ hr

variable {w} in
theorem quiet_booked (hb : w.Booked) {x : Except Error (World S)} (h : Returns (Quiet w) x) :
    Returns (fun w' ↦ w'.Booked) x :=
  h.weaken fun _ hquiet ↦ hquiet.booked hb

theorem exec_booked (hb : w.Booked) (op : Op S) (haside : op.Aside port w) :
    Returns (fun w' ↦ w'.Booked) (exec port call w op) := by
  unfold exec
  apply Returns.guard
  intro _
  cases op with
  | tick => exact quiet_booked hb (tick_quiet call w)
  | creditReserve amount => exact quiet_booked hb (creditReserve_quiet call w amount)
  | mintToReserve amount =>
      apply Returns.seq
      intro claim _
      have hb₁ : World.Booked (w.withClaim claim) := hb
      exact quiet_booked hb₁ (creditReserve_quiet call (w.withClaim claim) amount)
  | enterWithEth swap dst =>
      apply first_booked
      refine Returns.seq fun _ _ ↦ Returns.guard fun _ ↦ ?_
      exact enterSwapped_booked port call w hb _ _ _ haside dst
  | enterWithClaim claimAmount dst =>
      apply first_booked
      refine Returns.seq fun _ _ ↦ Returns.guard fun _ ↦ ?_
      exact enterClaim_booked port call w hb _ _ dst
  | enterWithClaimFor user claimAmount dst =>
      apply first_booked
      obtain ⟨canonical, heq⟩ := enterWithClaimFor_eq port call w user claimAmount
      rw [heq]
      refine Returns.seq fun _ _ ↦ Returns.guard fun _ ↦ Returns.guard fun _ ↦ ?_
      exact Returns.seq fun _ _ ↦ enterClaim_booked port call w hb _ _ dst
  | enterWithToken tokenIn amountIn swap dst =>
      apply first_booked
      refine Returns.seq fun _ _ ↦ Returns.guard fun _ ↦ Returns.guard fun _ ↦ ?_
      refine Returns.guard fun _ ↦ ?_
      exact enterSwapped_booked port call w hb _ _ _ haside dst
  | enterWithEthFor user swap dst =>
      apply first_booked
      refine Returns.seq fun _ _ ↦ Returns.guard fun _ ↦ Returns.seq fun _ _ ↦ ?_
      apply Returns.guard
      intro _
      apply Outcome.bind (enterSwapped_booked port call w hb _ _ _ haside dst)
      rintro ⟨w₁, entered⟩ hb₁
      exact Quiet.booked ⟨(FurnaceState.SameBooks.refl _).emit rfl, rfl⟩ hb₁
  | enterWithClaimFromCallerFor user claimAmount dst =>
      apply first_booked
      refine Returns.seq fun _ _ ↦ Returns.guard fun _ ↦ Returns.guard fun _ ↦ ?_
      apply Returns.seq
      intro _ _
      apply Outcome.bind (enterClaim_booked port call w hb _ _ dst)
      rintro ⟨w₁, entered⟩ hb₁
      exact Quiet.booked ⟨(FurnaceState.SameBooks.refl _).emit rfl, rfl⟩ hb₁
  | enterWithTokenFromCallerFor user tokenIn amountIn swap dst =>
      apply first_booked
      refine Returns.seq fun _ _ ↦ Returns.guard fun _ ↦ Returns.guard fun _ ↦ ?_
      refine Returns.guard fun _ ↦ Returns.guard fun _ ↦ Returns.seq fun _ _ ↦ ?_
      apply Outcome.bind (enterSwapped_booked port call w hb _ _ _ haside dst)
      rintro ⟨w₁, entered⟩ hb₁
      exact Quiet.booked ⟨(FurnaceState.SameBooks.refl _).emit rfl, rfl⟩ hb₁
  | lockEthReward user ethAmount swap dst =>
      apply first_booked
      refine Returns.seq fun _ _ ↦ Returns.seq fun _ _ ↦ Returns.guard fun _ ↦ ?_
      refine Returns.guard fun _ ↦ Returns.guard fun _ ↦ ?_
      exact enterSwapped_booked port call w hb _ _ _ haside dst
  | extendWithBonus tokenId durationSeconds minBonusOut =>
      apply first_booked
      exact Returns.seq fun _ _ ↦ extendBody_booked port call w hb _ _ _ _
  | extendWithBonusFor user tokenId durationSeconds minBonusOut =>
      apply first_booked
      refine Returns.seq fun _ _ ↦ Returns.guard fun _ ↦ Returns.seq fun _ _ ↦ ?_
      apply Outcome.bind (extendBody_booked port call w hb _ _ _ _)
      rintro ⟨w₁, bonusClaim⟩ hb₁
      exact Quiet.booked ⟨(FurnaceState.SameBooks.refl _).emit rfl, rfl⟩ hb₁
  | mergeLocksWithBonus fromTokenId intoTokenId minBonusOut =>
      apply first_booked
      exact Returns.seq fun _ _ ↦ mergeBody_booked port call w hb _ _ _ _
  | mergeLocksWithBonusFor user fromTokenId intoTokenId minBonusOut =>
      apply first_booked
      refine Returns.seq fun _ _ ↦ Returns.guard fun _ ↦ Returns.seq fun _ _ ↦ ?_
      apply Outcome.bind (mergeBody_booked port call w hb _ _ _ _)
      rintro ⟨w₁, bonusClaim⟩ hb₁
      exact Quiet.booked ⟨(FurnaceState.SameBooks.refl _).emit rfl, rfl⟩ hb₁
  | claimAutoMaxBonus tokenId => exact first_booked (claimAutoMaxBonus_booked port call w hb _)
  | claimAutoMaxBonusBatch tokenIds maxLocks =>
      exact first_booked (claimAutoMaxBonusBatch_booked port call w hb _ _)
  | sellLockToFurnaceFromMarket seller tokenId minClaimOut =>
      exact first_booked (sellLockToFurnaceFromMarket_booked port call w hb _ _ _)
  | rescuePendingSellNFT tokenId => exact rescuePendingSellNFT_booked port call w hb tokenId
  | outside base =>
      refine Returns.guard fun _ ↦ Returns.guard fun _ ↦ ?_
      exact hb.waned (.refl _) (aside_wanes haside)
  | onERC721Received operator src tokenId =>
      apply quiet_booked hb
      refine Returns.guard fun _ ↦ Returns.guard fun _ ↦ Returns.guard fun _ ↦ ?_
      refine Returns.seq fun _ _ ↦ Returns.guard fun _ ↦ Returns.guard fun _ ↦ ?_
      exact Returns.guard fun _ ↦ ⟨⟨rfl, rfl⟩, rfl⟩
  | setShareholderRoyalties sr =>
      apply quiet_booked hb
      refine Returns.seq fun _ _ ↦ Returns.seq fun _ _ ↦ Returns.guard fun _ ↦ ?_
      exact Returns.guard fun _ ↦ logged_quiet w ⟨rfl, rfl⟩ rfl
  | setMineCore mineCore => exact quiet_booked hb (setMineCore_quiet call w mineCore)
  | setMineMarket mineMarket =>
      apply quiet_booked hb
      exact Returns.seq fun _ _ ↦ Returns.seq fun _ _ ↦ logged_quiet w ⟨rfl, rfl⟩ rfl
  | setDelegationHub hub =>
      apply quiet_booked hb
      refine Returns.seq fun _ _ ↦ Returns.guard fun _ ↦ Returns.guard fun _ ↦ ?_
      exact Returns.seq fun _ _ ↦ logged_quiet w ⟨rfl, rfl⟩ rfl
  | setEntryTokenRegistry mineCoreRegistry registry =>
      apply quiet_booked hb
      refine Returns.seq fun _ _ ↦ Returns.seq fun _ _ ↦ Returns.guard fun _ ↦ ?_
      exact logged_quiet w ⟨rfl, rfl⟩ rfl
  | setFurnaceQuoter quoter =>
      apply quiet_booked hb
      refine Returns.seq fun _ _ ↦ Returns.seq fun _ _ ↦ Returns.guard fun _ ↦ ?_
      exact logged_quiet w ⟨rfl, rfl⟩ rfl
  | setLpRewardsVault vault => exact quiet_booked hb (setLpRewardsVault_quiet call w vault)
  | freezeConfig =>
      apply quiet_booked hb
      refine Returns.seq fun _ _ ↦ Returns.guard fun _ ↦ Returns.seq fun _ _ ↦ ?_
      refine Returns.guard fun _ ↦ Returns.seq fun _ _ ↦ Returns.guard fun _ ↦ ?_
      apply Returns.ite
      · exact fun _ ↦ Returns.seq fun _ _ ↦ logged_quiet w ⟨rfl, rfl⟩ rfl
      · exact fun _ ↦ logged_quiet w ⟨rfl, rfl⟩ rfl
  | setGuardian guardian =>
      apply quiet_booked hb
      refine Returns.guard fun _ ↦ Returns.guard fun _ ↦ Returns.guard fun _ ↦ ?_
      exact Returns.guard fun _ ↦ logged_quiet w ⟨rfl, rfl⟩ rfl
  | setLockingPaused paused =>
      apply quiet_booked hb
      refine Returns.guard fun _ ↦ Returns.ite (fun _ ↦ .refl w) fun _ ↦ ?_
      exact logged_quiet w ⟨rfl, rfl⟩ rfl
  | requestEmergencyVaultRewire newVault =>
      apply quiet_booked hb
      refine Returns.seq fun _ _ ↦ Returns.guard fun _ ↦ Returns.guard fun _ ↦ ?_
      refine Returns.guard fun _ ↦ Returns.seq fun _ _ ↦ Returns.guard fun _ ↦ ?_
      exact Returns.seq fun _ _ ↦ Returns.seq fun _ _ ↦ logged_quiet w ⟨rfl, rfl⟩ rfl
  | cancelEmergencyVaultRewire =>
      apply quiet_booked hb
      exact Returns.seq fun _ _ ↦ Returns.guard fun _ ↦ logged_quiet w ⟨rfl, rfl⟩ rfl
  | executeEmergencyVaultRewire =>
      apply quiet_booked hb
      refine Returns.seq fun _ _ ↦ Returns.guard fun _ ↦ Returns.guard fun _ ↦ ?_
      refine Returns.guard fun _ ↦ Returns.guard fun _ ↦ Returns.seq fun _ _ ↦ ?_
      apply Returns.seq
      intro stranded _
      apply logged_quiet
      · apply FurnaceState.SameBooks.emit
        · exact ⟨rfl, rfl⟩
        · rfl
      · rfl

/-! ## Runs -/

/-- The Furnace from its deployment on, beside a lock contract without locks. -/
def soleFiller : TransitionSystem (Timed (World S)) where
  init c := ∃ self owner base, self ≠ base.ve.self ∧ (∀ id, base.ve.owners id = 0) ∧
    c.state = ⟨initial self owner c.now, base⟩
  step c c' := ∃ call op, op.Aside port c.state ∧ c.now ≤ call.timestamp ∧
    exec port call c.state op = .ok c'.state ∧ c'.now = call.timestamp

variable {port}

theorem reachable_booked {c : Timed (World S)} (hc : (soleFiller port).Reachable c) :
    c.state.Booked := by
  refine hc.invariant (I := fun c ↦ c.state.Booked) ?_ ?_
  · rintro c ⟨self, owner, base, -, hnone, hstate⟩
    rw [hstate]
    apply tallied_nil
    · exact fun id hlive ↦ hlive (hnone id)
    · exact fun id ↦ rfl
  · rintro c c' - hb ⟨call, op, haside, -, hok, -⟩
    exact (exec_booked port call c.state hb op haside).of_ok hok

theorem soleFiller_run {calls : List (Call × Op S)} {c : Timed (World S)} {w : World S}
    (hc : (soleFiller port).Reachable c)
    (hrun : runCalls (fun c w ↦ exec port c.1 w c.2) calls c.state = .ok w)
    (haside : ∀ call ∈ calls, ∀ w, call.2.Aside port w)
    (hsorted : (c.now :: calls.map fun call ↦ call.1.timestamp).IsChain (· ≤ ·)) :
    ∃ now, (soleFiller port).Reachable ⟨now, w⟩ := by
  induction calls generalizing c with
  | nil =>
    obtain rfl := Except.ok.inj hrun
    exact ⟨c.now, hc⟩
  | cons call calls ih =>
    obtain ⟨w₁, hexec, hrest⟩ := bind_eq_ok_iff.mp hrun
    obtain ⟨hle, hsorted⟩ := List.isChain_cons_cons.mp hsorted
    obtain ⟨hcall, hcalls⟩ := List.forall_mem_cons.mp haside
    have hnext : (soleFiller port).Reachable ⟨call.1.timestamp, w₁⟩ :=
      hc.step ⟨call.1, call.2, hcall c.state, hle, hexec, rfl⟩
    exact ih hnext hrest hcalls hsorted

/-- In every run in which only the Furnace fills locks, the recorded basis of a lock is the
principal that users entered into it and into the locks now merged into it, and a lock
holds its basis and the bonuses delivered to them.  A sold, rescued or merged lock is left
with no basis. -/
theorem bonus_basis_is_principal {c : Timed (World S)} (hc : (soleFiller port).Reachable c) :
    let ps := postings c.state.furnace.events
    (∀ id, c.state.furnace.bonusBasis id = tally Posting.principal ps id) ∧
      (∀ id, c.state.ve.owners id ≠ 0 → 0 < c.state.furnace.bonusBasis id ∧
        (c.state.ve.locks id).amount =
          c.state.furnace.bonusBasis id + tally Posting.bonus ps id) ∧
      ∀ p ∈ ps, ∀ id, p.emptied = some id →
        c.state.ve.owners id = 0 ∧ c.state.furnace.bonusBasis id = 0 := by
  have hb := reachable_booked hc
  refine ⟨hb.recorded, fun id hlive ↦ ⟨hb.funded id hlive, hb.held id hlive⟩, ?_⟩
  intro p hp id hid
  obtain ⟨hdead, -, hzero⟩ := hb.ended p hp id hid
  exact ⟨not_not.mp hdead, hzero⟩

/-- Two locks earn bonuses at their entry and at an extension, and one is merged into the
other. -/
def basisCalls : List (Call × Op Unit) :=
  ladderCalls ++ [(wiredCall 2 7, .enterWithClaim (10 ^ 21) ⟨0, 5184000, false, 1⟩),
    (wiredCall 3 7, .extendWithBonus 1 7776000 0), (wiredCall 4 7, .mergeLocksWithBonus 1 2 0)]

theorem bonus_basis_is_principal_merged : ∃ w : World Unit,
    w.furnace.bonusBasis 2 = 2 * 10 ^ 21 ∧
      tally Posting.principal (postings w.furnace.events) 2 = 2 * 10 ^ 21 ∧
      0 < tally Posting.bonus (postings w.furnace.events) 2 ∧
      (w.ve.locks 2).amount = 2 * 10 ^ 21 + tally Posting.bonus (postings w.furnace.events) 2 ∧
      w.furnace.bonusBasis 1 = 0 := by
  have hok : ((runCalls (fun c w ↦ exec VeClaimNFT.acceptingPort c.1 w c.2) basisCalls
      wiredWorld).toOption.any fun w ↦ decide (w.furnace.bonusBasis 2 = 2 * 10 ^ 21 ∧
        w.ve.owners 2 ≠ 0 ∧ (∃ p ∈ postings w.furnace.events, p.emptied = some 1) ∧
        0 < tally Posting.bonus (postings w.furnace.events) 2)) = true := by
    decide +kernel
  obtain ⟨w, hrun, hfinal⟩ := exists_ok_of_any hok
  obtain ⟨hbasis, hlive, ⟨p, hmerged, hemptied⟩, hbonus⟩ := of_decide_eq_true hfinal
  have hinit : (soleFiller VeClaimNFT.acceptingPort).Reachable ⟨1, wiredWorld⟩ :=
    .init ⟨3, 9, wiredWorld.base, by decide, fun id ↦ rfl, rfl⟩
  obtain ⟨now, hc⟩ := soleFiller_run hinit hrun
    (by simp [basisCalls, ladderCalls, wiringCalls, Op.Aside])
    (by simp [basisCalls, ladderCalls, wiringCalls, wiredCall])
  obtain ⟨hrecorded, hheld, hended⟩ := bonus_basis_is_principal hc
  refine ⟨w, hbasis, (hrecorded 2).symm.trans hbasis, hbonus, ?_, (hended p hmerged 1 hemptied).2⟩
  rw [(hheld 2 hlive).2, hbasis]

end ClaimRush.Furnace
