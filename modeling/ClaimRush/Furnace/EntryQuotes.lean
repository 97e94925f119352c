import ClaimRush.Furnace.BonusQuotes
import ClaimRush.Furnace.LockCalls

/-!
# Quotes of entries

An entry is paid the bonus and the ve output that are quoted in the state before it.
The quoted output is the largest floor that admits the entry.
-/

open Function

namespace ClaimRush.Furnace

open Constants

variable {S : Type} (port : VeClaimNFT.IShareholderRoyalties S) (call : Call) (w : World S)

/-! ## Destinations -/

/-- What an entry does with `principalClaim` and what it returns are quoted. -/
def Entered.Quoted (user : Address) (principalClaim : ℕ) (dst : Destination) (entered : Entered) :
    Prop :=
  Quoter.quoteAfterPrincipal call w user principalClaim dst.targetTokenId dst.durationSeconds
    dst.createAutoMax = .ok (entered.bonusClaim, entered.veOut, dst.targetTokenId)

theorem revertIf_passed {ε α : Type} {c : Prop} [Decidable c] {e : ε} {f : Unit → Except ε α}
    (h : ¬ c) : (revertIf c e >>= f) = f () :=
  congrArg (· >>= f) (if_neg h)

/-- The helper and the quoter resolve the same duration. -/
theorem resolveEntryDurationAndWeight_quoted (user : Address)
    (targetTokenId durationSeconds : ℕ) (createAutoMax : Bool) :
    Returns (fun r ↦ r.2 = durationWeight r.1 ∧
        Quoter.resolveDestinationDuration call w user targetTokenId durationSeconds createAutoMax =
          .ok (r.1, targetTokenId))
      (resolveEntryDurationAndWeight call w user targetTokenId durationSeconds createAutoMax) := by
  unfold resolveEntryDurationAndWeight Quoter.resolveDestinationDuration
  dsimp only
  apply Returns.ite
  · intro hnew
    apply Returns.guard
    intro hauto
    subst hnew
    refine ⟨rfl, ?_⟩
    rw [if_pos rfl]
    exact revertIf_passed hauto
  · intro hold
    rw [if_neg hold]
    apply Returns.guard
    intro hminted
    apply Returns.guard
    intro howner
    rw [revertIf_passed hminted, revertIf_passed howner]
    generalize w.ve.getLockInfo call.timestamp targetTokenId = info
    obtain ⟨amount, lockEnd, autoMax, listed⟩ := info
    apply Returns.guard
    intro hlisted
    apply Returns.guard
    intro hexpired
    dsimp only
    rw [revertIf_passed hlisted, revertIf_passed hexpired]
    apply Returns.ite
    · intro hauto
      apply Returns.guard
      intro hmax
      rw [if_pos hauto]
      refine ⟨rfl, ?_⟩
      exact revertIf_passed hmax
    · intro hplain
      apply Returns.guard
      intro hlong
      rw [if_neg hplain]
      refine ⟨rfl, ?_⟩
      exact revertIf_passed hlong

/-- The time that CLAIM in the lock of the token stays locked. -/
def remainingOf (ve : VeClaimNFT.VeState) (nowTs tokenId : ℕ) : ℕ :=
  let (_, lockEnd, autoMax, _) := ve.getLockInfo nowTs tokenId
  if autoMax then MAX_LOCK_DURATION else lockEnd - nowTs

theorem remainingOf_follows {s s' : VeClaimNFT.VeState} (h : s.Follows s') (nowTs tokenId : ℕ) :
    remainingOf s' nowTs tokenId = remainingOf s nowTs tokenId :=
  h.keeps (fun s ↦ remainingOf s nowTs tokenId) fun _ _ ↦ rfl

theorem remainingOf_created (s : VeClaimNFT.VeState) (user : Address) (nowTs amount : ℕ)
    {duration : ℕ} {autoMax : Bool} (hmax : autoMax = true → duration = MAX_LOCK_DURATION) :
    remainingOf (s.created user
      { amount := amount, lockStart := nowTs, lockEnd := nowTs + duration, autoMax := autoMax })
      nowTs s.nextTokenId = duration := by
  unfold remainingOf VeClaimNFT.VeState.getLockInfo VeClaimNFT.VeState.created
    VeClaimNFT.VeState.setLock
  cases autoMax with
  | true => simp [hmax rfl]
  | false => simp

theorem remainingOf_toppedUp (s : VeClaimNFT.VeState) (nowTs tokenId amount : ℕ) :
    remainingOf (s.toppedUp nowTs tokenId amount) nowTs tokenId =
      remainingOf s nowTs tokenId := by
  unfold remainingOf VeClaimNFT.VeState.getLockInfo VeClaimNFT.VeState.toppedUp
    VeClaimNFT.VeState.setLock
  cases hauto : (s.locks tokenId).autoMax with
  | true => simp [hauto]
  | false => simp [hauto]

theorem resolveEntryDurationAndWeight_existing (user : Address) {targetTokenId : ℕ}
    (htarget : targetTokenId ≠ 0) (durationSeconds : ℕ) (createAutoMax : Bool) :
    Returns (fun r ↦ r.1 = remainingOf w.ve call.timestamp targetTokenId)
      (resolveEntryDurationAndWeight call w user targetTokenId durationSeconds createAutoMax) := by
  unfold resolveEntryDurationAndWeight remainingOf
  dsimp only
  rw [if_neg htarget]
  iterate 4 refine Returns.guard fun _ ↦ ?_
  split <;> exact Returns.guard fun _ ↦ rfl

theorem resolveExistingLockDestination_veOut (user : Address)
    (targetTokenId amountLocked durationSeconds : ℕ) :
    Returns (fun veOut ↦
        veOut = amountLocked * remainingOf w.ve call.timestamp targetTokenId / MAX_LOCK_DURATION)
      (resolveExistingLockDestination call w user targetTokenId amountLocked durationSeconds) := by
  unfold resolveExistingLockDestination remainingOf
  generalize w.ve.getLockInfo call.timestamp targetTokenId = info
  obtain ⟨amount, lockEnd, autoMax, listed⟩ := info
  iterate 4 refine Returns.guard fun _ ↦ ?_
  apply Returns.ite
  · rintro rfl
    exact Returns.guard fun _ ↦ rfl
  · intro hplain
    obtain rfl := Bool.eq_false_of_not_eq_true hplain
    exact Returns.guard fun _ ↦ rfl

/-- A lock keeps the ve output of the resolved duration. -/
theorem lockToDestination_quoted (user : Address) (amountLocked targetTokenId d : ℕ)
    (createAutoMax : Bool)
    (hd : targetTokenId ≠ 0 → d = remainingOf w.ve call.timestamp targetTokenId) :
    Returns (fun r ↦ Quoter.quoteVeOutForResolvedDuration amountLocked d targetTokenId =
        .ok r.2.1)
      (lockToDestination port call w user amountLocked targetTokenId d createAutoMax) := by
  unfold lockToDestination
  apply Returns.ite
  · intro hnew
    apply Returns.seq
    intro veOut hveOut
    obtain ⟨_, -, hveOut⟩ := bind_eq_ok_iff.mp hveOut
    obtain ⟨_, hmin, hveOut⟩ := bind_eq_ok_iff.mp hveOut
    obtain rfl := Except.ok.inj hveOut
    apply Returns.seq
    intro r _
    apply revertIf_passed
    intro hsmall
    exact revertIf_eq_ok.mp hmin hsmall.2
  · intro hold
    apply Outcome.bind (resolveExistingLockDestination_veOut call w user _ _ _)
    rintro veOut rfl
    apply Returns.seq
    intro w' _
    rw [← hd hold]
    apply revertIf_passed
    exact fun h ↦ hold h.1

/-- `amount` arrives in one lock of `user`, where it stays for `remaining`, and no
other lock changes. -/
structure Received (nowTs : ℕ) (user : Address)
    (targetTokenId amount remaining tokenIdUsed : ℕ) (s s' : VeClaimNFT.VeState) : Prop where
  used : tokenIdUsed = if targetTokenId = 0 then s.nextTokenId else targetTokenId
  owner : s'.owners tokenIdUsed = user
  amount : (s'.locks tokenIdUsed).amount =
    (if targetTokenId = 0 then 0 else (s.locks targetTokenId).amount) + amount
  remaining : remainingOf s' nowTs tokenIdUsed = remaining
  others : ∀ id, id ≠ tokenIdUsed → s'.locks id = s.locks id

theorem lockToDestination_used (user : Address) (amountLocked targetTokenId d : ℕ)
    (createAutoMax : Bool) :
    Returns (fun r ↦ r.2.2 = if targetTokenId = 0 then w.ve.nextTokenId else targetTokenId)
      (lockToDestination port call w user amountLocked targetTokenId d createAutoMax) := by
  unfold lockToDestination
  apply Returns.ite
  · intro hnew
    rw [if_pos hnew]
    apply Returns.seq
    intro veOut _
    have hcreated : Returns (fun r : World S × ℕ ↦ r.2 = w.ve.nextTokenId)
        (createLockDelegated port call w user amountLocked d createAutoMax) :=
      Returns.seq fun base _ ↦ rfl
    exact Outcome.bind (delegatecall_returns hcreated) fun r hr ↦ hr
  · intro hold
    rw [if_neg hold]
    exact Returns.seq fun _ _ ↦ Returns.seq fun _ _ ↦ rfl

variable {port call w} in
theorem LockCall.received {user : Address} {amount targetTokenId d : ℕ} {createAutoMax : Bool}
    {w' : World S} (h : LockCall port call (entryOp user amount targetTokenId d createAutoMax) w w')
    (hd : targetTokenId ≠ 0 → d = remainingOf w.ve call.timestamp targetTokenId) :
    Received call.timestamp user targetTokenId amount d
      (if targetTokenId = 0 then w.ve.nextTokenId else targetTokenId) w.ve w'.ve := by
  obtain ⟨-, before, base, after, hexec, hbase⟩ := h
  have hve : w'.ve = base.ve := (congrArg VeClaimNFT.World.ve hbase :)
  by_cases htarget : targetTokenId = 0
  · rw [entryOp, if_pos htarget] at hexec
    obtain ⟨-, hcreated⟩ := (VeClaimNFT.exec_effect port _ _ _).of_ok hexec
    have hlocks := hcreated.ve.keeps VeClaimNFT.VeState.locks fun _ _ ↦ rfl
    rw [if_pos htarget]
    constructor
    · exact (if_pos htarget).symm
    · rw [hve, hcreated.ve.keeps VeClaimNFT.VeState.owners fun _ _ ↦ rfl]
      exact update_self ..
    · rw [hve, if_pos htarget, Nat.zero_add]
      exact congrArg VeClaimNFT.Lock.amount ((congrFun hlocks _).trans (update_self ..))
    · rw [hve, remainingOf_follows hcreated.ve]
      exact remainingOf_created w.ve user _ amount hcreated.autoMax_duration
    · intro id hid
      rw [hve, hlocks]
      exact update_of_ne hid _ _
  · rw [entryOp, if_neg htarget] at hexec
    obtain ⟨-, htopped⟩ := (VeClaimNFT.exec_effect port _ _ _).of_ok hexec
    have hlocks := htopped.ve.keeps VeClaimNFT.VeState.locks fun _ _ ↦ rfl
    rw [if_neg htarget]
    constructor
    · exact (if_neg htarget).symm
    · rw [hve, htopped.ve.keeps VeClaimNFT.VeState.owners fun _ _ ↦ rfl]
      exact htopped.owner
    · rw [hve, if_neg htarget]
      exact congrArg VeClaimNFT.Lock.amount ((congrFun hlocks _).trans (update_self ..))
    · rw [hd htarget, hve, remainingOf_follows htopped.ve]
      exact remainingOf_toppedUp w.ve _ targetTokenId amount
    · intro id hid
      rw [hve, hlocks]
      exact update_of_ne hid _ _

/-- What an entry of `principalClaim` returns and does to the locks. -/
structure Entered.Executes (user : Address) (principalClaim : ℕ) (dst : Destination)
    (w w' : World S) (entered : Entered) : Prop where
  quoted : entered.Quoted call w user principalClaim dst
  floor : dst.minVeOut ≠ 0 ∧ dst.minVeOut ≤ entered.veOut
  received : ∃ d, entered.veOut = (principalClaim + entered.bonusClaim) * d / MAX_LOCK_DURATION ∧
    Received call.timestamp user dst.targetTokenId (principalClaim + entered.bonusClaim) d
      entered.tokenIdUsed w.ve w'.ve

/-- Every entry, whatever its principal was paid in. -/
theorem enterAfterPrincipal_executes (user : Address) (mode ethIn principalClaim : ℕ)
    (dst : Destination) :
    Returns (fun r ↦ r.2.Executes call user principalClaim dst w r.1)
      (enterAfterPrincipal port call w user mode ethIn principalClaim dst.targetTokenId
        dst.durationSeconds dst.createAutoMax dst.minVeOut) := by
  unfold enterAfterPrincipal
  refine Returns.guard fun _ ↦ Returns.guard fun _ ↦ Returns.guard fun hrequired ↦ ?_
  apply Returns.seq
  rintro ⟨d, weight⟩ hresolved
  obtain ⟨hweight, hroute⟩ :=
    (resolveEntryDurationAndWeight_quoted call w user _ _ _).of_ok hresolved
  dsimp only at hweight hroute
  have hd (htarget : dst.targetTokenId ≠ 0) :
      d = remainingOf w.ve call.timestamp dst.targetTokenId :=
    (resolveEntryDurationAndWeight_existing call w user htarget _ _).of_ok hresolved
  apply Returns.seq
  intro product hproduct
  obtain ⟨-, rfl⟩ := uint256_eq_ok.mp hproduct
  apply Outcome.bind ((applyBonusAmm_quoted call w user principalClaim _ d).and
    (applyBonusAmm_base call w user principalClaim _ d))
  rintro ⟨w₁, bonus⟩ ⟨⟨lp, hbonus⟩, -, claim, hbase⟩
  have hve : w₁.ve = w.ve := (congrArg VeClaimNFT.World.ve hbase :)
  rw [← hve] at hd
  apply Outcome.bind (((lockToDestination_quoted port call w₁ user (principalClaim + bonus.user)
    dst.targetTokenId d dst.createAutoMax hd).and
      (lockToDestination_lockCall port call w₁ user _ dst.targetTokenId d dst.createAutoMax)).and
      (lockToDestination_used port call w₁ user _ dst.targetTokenId d dst.createAutoMax))
  rintro ⟨w₂, veOut, tokenIdUsed⟩ ⟨⟨hveOut, -, hlocked⟩, hused⟩
  obtain ⟨_, -, hamount⟩ := bind_eq_ok_iff.mp hveOut
  have hreceived := hlocked.received hd
  dsimp only at hused hreceived
  rw [← hused, hve] at hreceived
  apply Returns.seq
  intro basis _
  apply Returns.guard
  intro hfloor
  refine ⟨?_, ⟨hrequired, Nat.le_of_not_lt hfloor⟩, d, (Except.ok.inj hamount).symm, ?_⟩
  · subst hweight
    exact bind_eq_ok_iff.mpr ⟨_, hroute, bind_eq_ok_iff.mpr ⟨_, hbonus,
      bind_eq_ok_iff.mpr ⟨_, hveOut, rfl⟩⟩⟩
  · have hsame (f : FurnaceState) (e : Event) :
        ((syncFurnaceReserve call { w₂ with furnace := f }).emit e).ve = w₂.ve :=
      (congrArg VeClaimNFT.World.ve (syncFurnaceReserve_same call { w₂ with furnace := f }).2 :)
    dsimp only
    rw [hsame]
    exact hreceived

/-! ## Floors -/

/-- The same storage, up to the log. -/
def SameButLog (w w' : World S) : Prop :=
  ∃ events, w' = { w with furnace := { w.furnace with events := events } }

theorem SameButLog.refl (w : World S) : SameButLog w w := ⟨w.furnace.events, rfl⟩

theorem SameButLog.symm {w w' : World S} (h : SameButLog w w') : SameButLog w' w := by
  obtain ⟨events, rfl⟩ := h
  exact ⟨w.furnace.events, rfl⟩

theorem SameButLog.trans {w w' w'' : World S} (h : SameButLog w w') (h' : SameButLog w' w'') :
    SameButLog w w'' := by
  obtain ⟨events, rfl⟩ := h
  obtain ⟨events', rfl⟩ := h'
  exact ⟨events', rfl⟩

theorem SameButLog.sync {w w' : World S} (h : SameButLog w w') :
    SameButLog (syncFurnaceReserve call w) (syncFurnaceReserve call w') := by
  obtain ⟨events, rfl⟩ := h
  unfold syncFurnaceReserve
  dsimp only [World.claimBalance]
  generalize (if w.base.claim.balanceOf w.furnace.self > w.furnace.stream.liability then
    w.base.claim.balanceOf w.furnace.self - w.furnace.stream.liability else 0) = cap
  split
  · exact ⟨_, rfl⟩
  · exact ⟨events, rfl⟩

theorem SameButLog.emit {w w' : World S} (h : SameButLog w w') (e : Event) :
    SameButLog (w.emit e) (w'.emit e) := by
  obtain ⟨events, rfl⟩ := h
  exact ⟨_, rfl⟩

theorem sameButLog_margin (f : FurnaceState) (w : World S) {near near' : Prop} [Decidable near]
    [Decidable near'] (e e' : Event) :
    SameButLog { w with furnace := if near then f.emit e else f }
      { w with furnace := if near' then f.emit e' else f } := by
  split <;> split <;> exact ⟨_, rfl⟩

/-- Every floor up to the output admits the same entry. -/
theorem enterAfterPrincipal_floor {user : Address} {mode ethIn principalClaim : ℕ}
    {targetTokenId durationSeconds : ℕ} {createAutoMax : Bool} {minVeOut : ℕ}
    {r : World S × Entered} (h : enterAfterPrincipal port call w user mode ethIn principalClaim
      targetTokenId durationSeconds createAutoMax minVeOut = .ok r) {floor : ℕ} (hpos : floor ≠ 0)
    (hfloor : floor ≤ r.2.veOut) :
    ∃ w', enterAfterPrincipal port call w user mode ethIn principalClaim targetTokenId
      durationSeconds createAutoMax floor = .ok (w', r.2) ∧ SameButLog r.1 w' := by
  unfold enterAfterPrincipal at h ⊢
  obtain ⟨_, hamount, h⟩ := bind_eq_ok_iff.mp h
  obtain ⟨_, hquoter, h⟩ := bind_eq_ok_iff.mp h
  obtain ⟨_, -, h⟩ := bind_eq_ok_iff.mp h
  obtain ⟨⟨d, weight⟩, hresolved, h⟩ := bind_eq_ok_iff.mp h
  obtain ⟨product, hproduct, h⟩ := bind_eq_ok_iff.mp h
  obtain ⟨⟨w₁, bonus⟩, hbonus, h⟩ := bind_eq_ok_iff.mp h
  obtain ⟨⟨w₂, veOut, tokenIdUsed⟩, hlocked, h⟩ := bind_eq_ok_iff.mp h
  obtain ⟨basis, hbasis, h⟩ := bind_eq_ok_iff.mp h
  obtain ⟨_, -, h⟩ := bind_eq_ok_iff.mp h
  obtain rfl := Except.ok.inj h
  refine ⟨_, bind_eq_ok_iff.mpr ⟨_, hamount, bind_eq_ok_iff.mpr ⟨_, hquoter,
    bind_eq_ok_iff.mpr ⟨_, if_neg hpos, bind_eq_ok_iff.mpr ⟨_, hresolved,
    bind_eq_ok_iff.mpr ⟨_, hproduct, bind_eq_ok_iff.mpr ⟨_, hbonus,
    bind_eq_ok_iff.mpr ⟨_, hlocked, bind_eq_ok_iff.mpr ⟨_, hbasis,
    bind_eq_ok_iff.mpr ⟨_, if_neg (Nat.not_lt.mpr hfloor), rfl⟩⟩⟩⟩⟩⟩⟩⟩⟩, ?_⟩
  exact ((sameButLog_margin _ w₂ _ _).sync call).emit _

/-! ## Entry points -/

/-- A quote of an entry reads the Furnace, the locks and the supply. -/
theorem quoteAfterPrincipal_congr {w' : World S} (hfurnace : w'.furnace = w.furnace)
    (hve : w'.ve = w.ve) (hsupply : w'.claim.totalSupply = w.claim.totalSupply) (user : Address)
    (principalClaim targetTokenId durationSeconds : ℕ) (createAutoMax : Bool) :
    Quoter.quoteAfterPrincipal call w' user principalClaim targetTokenId durationSeconds
        createAutoMax =
      Quoter.quoteAfterPrincipal call w user principalClaim targetTokenId durationSeconds
        createAutoMax := by
  obtain ⟨f, ve, royalties, claim⟩ := w
  obtain ⟨f', ve', royalties', claim'⟩ := w'
  obtain rfl : f' = f := hfurnace
  obtain rfl : ve' = ve := hve
  unfold Quoter.quoteAfterPrincipal Quoter.quoteBonusAmmView
  rw [hsupply]
  rfl

variable {port call w} in
/-- What an entry does after the payment, seen from before it. -/
theorem Entered.Executes.before {user : Address} {principalClaim : ℕ} {dst : Destination}
    {w₁ w' : World S} {entered : Entered}
    (h : entered.Executes call user principalClaim dst w₁ w') (hfurnace : w₁.furnace = w.furnace)
    (hve : w₁.ve = w.ve) (hsupply : w₁.claim.totalSupply = w.claim.totalSupply) :
    entered.Executes call user principalClaim dst w w' where
  quoted := (quoteAfterPrincipal_congr call w hfurnace hve hsupply ..).symm.trans h.quoted
  floor := h.floor
  received := hve ▸ h.received

variable {call w} in
theorem Entered.Executes.logged {user : Address} {principalClaim : ℕ} {dst : Destination}
    {w₁ w' : World S} {entered : Entered} (h : entered.Executes call user principalClaim dst w w₁)
    (hve : w'.ve = w₁.ve) : entered.Executes call user principalClaim dst w w' where
  quoted := h.quoted
  floor := h.floor
  received := hve ▸ h.received

theorem enterClaim_executes (user : Address) (claimIn : ℕ) (dst : Destination) :
    Returns (fun r ↦ r.2.Executes call user claimIn dst w r.1 ∧
        ∃ c, Quoter.requireRegistryAndRouterConfig call w = .ok c)
      (enterClaim port call w user claimIn dst) := by
  unfold enterClaim
  apply Returns.seq
  intro config hconfig
  apply Returns.seq
  intro w₁ hpull
  obtain ⟨claim, htransfer, hw₁⟩ := bind_eq_ok_iff.mp hpull
  obtain rfl := Except.ok.inj hw₁
  have hmoved := ClaimToken.transferFrom_eq_ok htransfer
  apply (enterAfterPrincipal_executes port call (w.withClaim claim) user _ _ _ dst).weaken
  intro r hr
  exact ⟨hr.before rfl rfl hmoved.totalSupply, config, hconfig⟩

theorem enterClaim_floor {user : Address} {claimIn : ℕ} {dst : Destination}
    {r : World S × Entered} (h : enterClaim port call w user claimIn dst = .ok r) {floor : ℕ}
    (hpos : floor ≠ 0) (hfloor : floor ≤ r.2.veOut) :
    ∃ w', enterClaim port call w user claimIn { dst with minVeOut := floor } = .ok (w', r.2) ∧
      SameButLog r.1 w' := by
  obtain ⟨config, hconfig, h⟩ := bind_eq_ok_iff.mp h
  obtain ⟨w₁, hpull, h⟩ := bind_eq_ok_iff.mp h
  obtain ⟨w', hagain, hlog⟩ := enterAfterPrincipal_floor port call w₁ h hpos hfloor
  exact ⟨w', bind_eq_ok_iff.mpr ⟨_, hconfig, bind_eq_ok_iff.mpr ⟨_, hpull, hagain⟩⟩, hlog⟩

/-- An entry of CLAIM for `user`, through one of its three entry points. -/
inductive ClaimEntry (user : Address) (claimIn : ℕ) (dst : Destination) (r : World S × Entered) :
    Prop
  | enterWithClaim (huser : call.sender = user)
      (h : enterWithClaim port call w claimIn dst = .ok r)
  | enterWithClaimFor (h : enterWithClaimFor port call w user claimIn dst = .ok r)
  | enterWithClaimFromCallerFor
      (h : enterWithClaimFromCallerFor port call w user claimIn dst = .ok r)

/-- The caller of `enterWithClaimFor` is one of three contracts of the protocol. -/
theorem enterWithClaimFor_eq (user : Address) (claimIn : ℕ) :
    ∃ canonical : Except Error Unit, ∀ dst, enterWithClaimFor port call w user claimIn dst =
      (do whenLockingEnabled w.furnace
          revertIf (user = 0) .ZeroAddress
          revertIf (claimIn = 0) .AmountZero
          canonical
          enterClaim port call w user claimIn dst) := by
  let vault := w.furnace.lpRewardsVault
  refine ⟨if call.sender = w.furnace.mineMarket then requireCanonicalMineMarketEntryCaller call w
    else if call.sender = vault then requireLpRewardsVaultCompatible call w vault false
    else if call.sender = w.furnace.mineCore then requireCanonicalMineCoreEntryCaller call w
    else throw .NotAuthorized, fun dst ↦ ?_⟩
  unfold enterWithClaimFor
  apply bind_congr_ok
  intro _ _
  apply bind_congr_ok
  intro _ _
  apply bind_congr_ok
  intro _ _
  dsimp only
  split
  · rfl
  split
  · rfl
  split <;> rfl

variable {port call w} in
/-- The three entry points check their caller, and then enter alike. -/
theorem ClaimEntry.entered {user : Address} {claimIn : ℕ} {dst : Destination}
    {r : World S × Entered} (h : ClaimEntry port call w user claimIn dst r) :
    ¬ w.furnace.lockingPaused ∧ claimIn ≠ 0 ∧
      ∃ w₁, enterClaim port call w user claimIn dst = .ok (w₁, r.2) ∧ SameButLog w₁ r.1 ∧
        ∀ dst' w' entered, enterClaim port call w user claimIn dst' = .ok (w', entered) →
          ∃ w'', ClaimEntry port call w user claimIn dst' (w'', entered) ∧ SameButLog w' w'' := by
  cases h with
  | enterWithClaim huser h =>
    subst huser
    obtain ⟨_, henabled, h⟩ := bind_eq_ok_iff.mp h
    obtain ⟨_, hamount, h⟩ := bind_eq_ok_iff.mp h
    refine ⟨revertIf_eq_ok.mp henabled, revertIf_eq_ok.mp hamount, r.1, h, .refl _, ?_⟩
    intro dst' w' entered h'
    exact ⟨w', .enterWithClaim rfl (bind_eq_ok_iff.mpr ⟨_, henabled,
      bind_eq_ok_iff.mpr ⟨_, hamount, h'⟩⟩), .refl _⟩
  | enterWithClaimFor h =>
    obtain ⟨canonical, heq⟩ := enterWithClaimFor_eq port call w user claimIn
    rw [heq] at h
    obtain ⟨_, henabled, h⟩ := bind_eq_ok_iff.mp h
    obtain ⟨_, huser, h⟩ := bind_eq_ok_iff.mp h
    obtain ⟨_, hamount, h⟩ := bind_eq_ok_iff.mp h
    obtain ⟨_, hcaller, h⟩ := bind_eq_ok_iff.mp h
    refine ⟨revertIf_eq_ok.mp henabled, revertIf_eq_ok.mp hamount, r.1, h, .refl _, ?_⟩
    intro dst' w' entered h'
    refine ⟨w', .enterWithClaimFor ?_, .refl _⟩
    rw [heq]
    exact bind_eq_ok_iff.mpr ⟨_, henabled, bind_eq_ok_iff.mpr ⟨_, huser,
      bind_eq_ok_iff.mpr ⟨_, hamount, bind_eq_ok_iff.mpr ⟨_, hcaller, h'⟩⟩⟩⟩
  | enterWithClaimFromCallerFor h =>
    obtain ⟨_, henabled, h⟩ := bind_eq_ok_iff.mp h
    obtain ⟨_, huser, h⟩ := bind_eq_ok_iff.mp h
    obtain ⟨_, hamount, h⟩ := bind_eq_ok_iff.mp h
    obtain ⟨_, hallowed, h⟩ := bind_eq_ok_iff.mp h
    obtain ⟨⟨w₁, entered⟩, hentered, h⟩ := bind_eq_ok_iff.mp h
    obtain rfl := Except.ok.inj h
    refine ⟨revertIf_eq_ok.mp henabled, revertIf_eq_ok.mp hamount, w₁, hentered, ⟨_, rfl⟩, ?_⟩
    intro dst' w' entered' h'
    exact ⟨_, .enterWithClaimFromCallerFor (bind_eq_ok_iff.mpr ⟨_, henabled,
      bind_eq_ok_iff.mpr ⟨_, huser, bind_eq_ok_iff.mpr ⟨_, hamount,
      bind_eq_ok_iff.mpr ⟨_, hallowed, bind_eq_ok_iff.mpr ⟨_, h', rfl⟩⟩⟩⟩⟩), ⟨_, rfl⟩⟩

/-- An entry of ETH or tokens for `user`, swapped to CLAIM by the router. -/
inductive SwappedEntry (user : Address) (swap : Swap S) (dst : Destination)
    (r : World S × Entered) : Prop
  | enterWithEth (huser : call.sender = user) (h : enterWithEth port call w swap dst = .ok r)
  | enterWithToken (tokenIn : Address) (amountIn : ℕ) (huser : call.sender = user)
      (h : enterWithToken port call w tokenIn amountIn swap dst = .ok r)
  | enterWithEthFor (h : enterWithEthFor port call w user swap dst = .ok r)
  | enterWithTokenFromCallerFor (tokenIn : Address) (amountIn : ℕ)
      (h : enterWithTokenFromCallerFor port call w user tokenIn amountIn swap dst = .ok r)
  | lockEthReward (ethAmount : ℕ) (h : lockEthReward port call w user ethAmount swap dst = .ok r)

/-- The principal of a swapped entry is the CLAIM found delivered; a router that leaves
the locks and the supply alone does not move the quote. -/
def SwapExecutes (user : Address) (swap : Swap S) (dst : Destination) (r : World S × Entered) :
    Prop :=
  ∃ base principalClaim, swap w.base = some base ∧
    base.claim.balanceOf w.furnace.self = w.claimBalance + principalClaim ∧
    r.2.Executes call user principalClaim dst { w with base := base } r.1 ∧
    (base.ve = w.ve → base.claim.totalSupply = w.claim.totalSupply →
      r.2.Executes call user principalClaim dst w r.1)

theorem enterSwapped_executes (user : Address) (mode ethIn : ℕ) (swap : Swap S)
    (dst : Destination) :
    Returns (SwapExecutes call w user swap dst)
      (enterSwapped port call w user mode ethIn swap dst) := by
  unfold enterSwapped
  apply Returns.seq
  rintro ⟨w₁, principalClaim⟩ hswapped
  obtain ⟨_, -, hswapped⟩ := bind_eq_ok_iff.mp hswapped
  obtain ⟨base, hbase, hswapped⟩ := bind_eq_ok_iff.mp hswapped
  obtain ⟨delivered, hdelivered, hswapped⟩ := bind_eq_ok_iff.mp hswapped
  obtain ⟨_, -, hswapped⟩ := bind_eq_ok_iff.mp hswapped
  obtain ⟨rfl, rfl⟩ := Prod.mk.inj (Except.ok.inj hswapped)
  obtain ⟨hle, rfl⟩ := usub_eq_ok.mp hdelivered
  apply (enterAfterPrincipal_executes port call _ user mode ethIn _ dst).weaken
  intro r hr
  exact ⟨base, _, externalCall_eq_ok.mp hbase, (Nat.add_sub_of_le hle).symm, hr,
    fun hve hsupply ↦ hr.before rfl hve hsupply⟩

variable {port call w} in
theorem SwappedEntry.executes {user : Address} {swap : Swap S} {dst : Destination}
    {r : World S × Entered} (h : SwappedEntry port call w user swap dst r) :
    SwapExecutes call w user swap dst r := by
  have hentered (mode ethIn : ℕ) := enterSwapped_executes port call w user mode ethIn swap dst
  have hlogged {mode ethIn actionType perms : ℕ} {r : World S × Entered}
      (h : (do let s ← enterSwapped port call w user mode ethIn swap dst
               return (emitDelegationSession call s.1 user actionType perms s.2.tokenIdUsed,
                 s.2)) = .ok r) : SwapExecutes call w user swap dst r := by
    obtain ⟨r₁, hr₁, h⟩ := bind_eq_ok_iff.mp h
    obtain rfl := Except.ok.inj h
    obtain ⟨base, principalClaim, hbase, hdelivered, hexecutes, hquiet⟩ :=
      (hentered mode ethIn).of_ok hr₁
    exact ⟨base, principalClaim, hbase, hdelivered, hexecutes.logged rfl,
      fun hve hsupply ↦ (hquiet hve hsupply).logged rfl⟩
  cases h with
  | enterWithEth huser h =>
    subst huser
    obtain ⟨_, -, h⟩ := bind_eq_ok_iff.mp h
    obtain ⟨_, -, h⟩ := bind_eq_ok_iff.mp h
    exact (hentered _ _).of_ok h
  | enterWithToken tokenIn amountIn huser h =>
    subst huser
    obtain ⟨_, -, h⟩ := bind_eq_ok_iff.mp h
    obtain ⟨_, -, h⟩ := bind_eq_ok_iff.mp h
    obtain ⟨_, -, h⟩ := bind_eq_ok_iff.mp h
    obtain ⟨_, -, h⟩ := bind_eq_ok_iff.mp h
    exact (hentered _ _).of_ok h
  | enterWithEthFor h =>
    obtain ⟨_, -, h⟩ := bind_eq_ok_iff.mp h
    obtain ⟨_, -, h⟩ := bind_eq_ok_iff.mp h
    obtain ⟨_, -, h⟩ := bind_eq_ok_iff.mp h
    obtain ⟨_, -, h⟩ := bind_eq_ok_iff.mp h
    exact hlogged h
  | enterWithTokenFromCallerFor tokenIn amountIn h =>
    obtain ⟨_, -, h⟩ := bind_eq_ok_iff.mp h
    obtain ⟨_, -, h⟩ := bind_eq_ok_iff.mp h
    obtain ⟨_, -, h⟩ := bind_eq_ok_iff.mp h
    obtain ⟨_, -, h⟩ := bind_eq_ok_iff.mp h
    obtain ⟨_, -, h⟩ := bind_eq_ok_iff.mp h
    obtain ⟨_, -, h⟩ := bind_eq_ok_iff.mp h
    exact hlogged h
  | lockEthReward ethAmount h =>
    obtain ⟨_, -, h⟩ := bind_eq_ok_iff.mp h
    obtain ⟨_, -, h⟩ := bind_eq_ok_iff.mp h
    obtain ⟨_, -, h⟩ := bind_eq_ok_iff.mp h
    obtain ⟨_, -, h⟩ := bind_eq_ok_iff.mp h
    obtain ⟨_, -, h⟩ := bind_eq_ok_iff.mp h
    exact (hentered _ _).of_ok h

variable {port call w} in
theorem ClaimEntry.executes {user : Address} {claimIn : ℕ} {dst : Destination}
    {r : World S × Entered} (h : ClaimEntry port call w user claimIn dst r) :
    Quoter.quoteEnterWithClaim call w user claimIn dst.targetTokenId dst.durationSeconds
        dst.createAutoMax = .ok ⟨claimIn, r.2.bonusClaim, r.2.veOut, dst.targetTokenId⟩ ∧
      r.2.Executes call user claimIn dst w r.1 := by
  obtain ⟨henabled, hamount, w₁, hentered, ⟨events, hlog⟩, -⟩ := h.entered
  obtain ⟨hexecutes, config, hconfig⟩ := (enterClaim_executes port call w user claimIn dst).of_ok
    hentered
  constructor
  · exact bind_eq_ok_iff.mpr ⟨(), if_neg henabled, bind_eq_ok_iff.mpr ⟨(), if_neg hamount,
      bind_eq_ok_iff.mpr ⟨config, hconfig, bind_eq_ok_iff.mpr ⟨_, hexecutes.quoted, rfl⟩⟩⟩⟩
  · apply hexecutes.logged
    rw [hlog]
    rfl

/-- Every entry is paid the bonus and the ve output that are quoted in the state before it,
whichever entry point it takes, and puts principal and bonus into one lock of its user.
The floors that admit an entry are those up to the quoted output, and change its log at
most.  The quote of a swapped entry is that of the CLAIM found delivered. -/
theorem entry_executes_quote (user : Address) :
    (∀ claimIn dst r, ClaimEntry port call w user claimIn dst r →
      Quoter.quoteEnterWithClaim call w user claimIn dst.targetTokenId dst.durationSeconds
          dst.createAutoMax = .ok ⟨claimIn, r.2.bonusClaim, r.2.veOut, dst.targetTokenId⟩ ∧
        r.2.Executes call user claimIn dst w r.1 ∧
        ∀ floor, (∃ w', ClaimEntry port call w user claimIn { dst with minVeOut := floor }
          (w', r.2) ∧ SameButLog r.1 w') ↔ floor ≠ 0 ∧ floor ≤ r.2.veOut) ∧
    ∀ swap dst r, SwappedEntry port call w user swap dst r →
      SwapExecutes call w user swap dst r := by
  refine ⟨fun claimIn dst r h ↦ ⟨h.executes.1, h.executes.2, fun floor ↦ ?_⟩,
    fun swap dst r h ↦ h.executes⟩
  constructor
  · rintro ⟨w', hentry, -⟩
    exact hentry.executes.2.floor
  · rintro ⟨hpos, hfloor⟩
    obtain ⟨-, -, w₁, hentered, hlog, hagain⟩ := h.entered
    obtain ⟨w₂, hentered₂, hlog₂⟩ := enterClaim_floor port call w hentered hpos hfloor
    obtain ⟨w', hentry, hlog'⟩ := hagain _ _ _ hentered₂
    exact ⟨w', hentry, (hlog.symm.trans hlog₂).trans hlog'⟩

/-- A router that pays 1000 CLAIM of account 7 for anything. -/
def payingSwap : Swap Unit := fun base ↦
  (base.claim.transfer 7 3 (10 ^ 21)).toOption.map fun claim ↦ { base with claim := claim }

/-- A top-up of a lock of 1000 CLAIM with CLAIM, and one with a token. -/
def topUpRun : Except Error Bool := do
  let w ← runCalls (fun c w ↦ exec VeClaimNFT.acceptingPort c.1 w c.2) ladderCalls wiredWorld
  let (_, entered) ← enterWithClaim VeClaimNFT.acceptingPort (wiredCall 2 7) w (10 ^ 21)
    ⟨1, 2592000, false, 1⟩
  let _ ← enterWithToken VeClaimNFT.acceptingPort (wiredCall 2 7) w 20 5 payingSwap
    ⟨1, 2592000, false, 1⟩
  return decide (0 < entered.bonusClaim)

theorem entry_executes_quote_topUp : ∃ (w : World Unit) (entered : Entered),
    0 < entered.bonusClaim ∧
    Quoter.quoteEnterWithClaim (wiredCall 2 7) w 7 (10 ^ 21) 1 2592000 false =
      .ok ⟨10 ^ 21, entered.bonusClaim, entered.veOut, 1⟩ ∧
    ∃ (w'' : World Unit) (swapped : Entered) (principalClaim : ℕ),
      swapped.Executes (wiredCall 2 7) 7 principalClaim ⟨1, 2592000, false, 1⟩ w w'' := by
  have hok : topUpRun.toOption.any id = true := by decide +kernel
  obtain ⟨_, hrun, rfl⟩ := exists_ok_of_any hok
  obtain ⟨w, -, hrest⟩ := bind_eq_ok_iff.mp hrun
  obtain ⟨⟨w', entered⟩, hentered, hrest⟩ := bind_eq_ok_iff.mp hrest
  obtain ⟨⟨w'', swapped⟩, hswapped, hrest⟩ := bind_eq_ok_iff.mp hrest
  have hbonus := of_decide_eq_true (Except.ok.inj hrest)
  obtain ⟨hclaim, hswap⟩ := entry_executes_quote VeClaimNFT.acceptingPort (wiredCall 2 7) w 7
  obtain ⟨base, principalClaim, hbase, -, -, hquiet⟩ :=
    hswap _ _ _ (.enterWithToken 20 5 rfl hswapped)
  obtain ⟨claim, hpaid, rfl⟩ := Option.map_eq_some_iff.mp hbase
  have hmoved := ClaimToken.transfer_eq_ok (toOption_eq_some.mp hpaid)
  exact ⟨w, entered, hbonus, (hclaim _ _ _ (.enterWithClaim rfl hentered)).1, w'', swapped,
    principalClaim, hquiet rfl hmoved.totalSupply⟩

end ClaimRush.Furnace
