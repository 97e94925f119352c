import ClaimRush.Furnace.EntryQuotes

/-!
# Quotes of extensions and AutoMax bonuses

Both price a step in duration.  A bonus below the minimal top-up is quoted as zero:
an extension gives it back to the reserve, and an AutoMax claim does not ask for it.
-/

open Function

namespace ClaimRush.Furnace

open Constants

variable {S : Type} (port : VeClaimNFT.IShareholderRoyalties S) (call : Call) (w : World S)

/-! ## Delivered bonuses -/

/-- What is delivered of a user bonus. -/
def deliverable (userBonus : ℕ) : ℕ := if userBonus ≥ MIN_TOPUP_AMOUNT then userBonus else 0

theorem deliverable_quoted (userBonus : ℕ) :
    (if userBonus > 0 ∧ userBonus < MIN_TOPUP_AMOUNT then 0 else userBonus) =
      deliverable userBonus := by
  unfold deliverable
  split_ifs <;> omega

theorem deliveredBonus_of_view {principalEff gross user lp : ℕ} (hpos : 0 < principalEff)
    (h : Quoter.quoteBonusAmmView call w principalEff = .ok (gross, user, lp)) :
    Quoter.deliveredBonus call w principalEff = .ok (deliverable user) := by
  unfold Quoter.deliveredBonus
  rw [if_pos hpos, h, ← deliverable_quoted]
  rfl

/-- The helper is paid what the quote delivers or rounds down to nothing. -/
theorem bonusFromHelper_quoted (user : Address)
    (principalClaim principalEff lockDurationSec : ℕ) :
    Returns (fun r ↦ Quoter.deliveredBonus call w principalEff = .ok (deliverable r.2))
      (bonusFromHelper call w user principalClaim principalEff lockDurationSec) := by
  unfold bonusFromHelper
  apply Returns.ite
  · intro hpos
    apply Outcome.bind (applyBonusAmm_quoted call w user principalClaim principalEff
      lockDurationSec)
    rintro ⟨w₁, bonus⟩ ⟨lp, hview⟩
    exact deliveredBonus_of_view call w hpos hview
  · intro hzero
    obtain rfl := Nat.eq_zero_of_not_pos hzero
    have hnone : deliverable 0 = 0 := if_neg (Nat.not_le.mpr MIN_TOPUP_AMOUNT_pos)
    exact congrArg Except.ok hnone.symm

theorem deliverOrRefund_delivers (deliver : Except Error (World S)) (userBonus : ℕ) :
    Returns (fun r ↦ r.2 = deliverable userBonus) (deliverOrRefund w deliver userBonus) := by
  unfold deliverOrRefund deliverable
  apply Returns.ite
  · intro hbig
    rw [if_pos hbig]
    exact Returns.seq fun _ _ ↦ rfl
  · intro hsmall
    rw [if_neg hsmall]
    rfl

/-! ## Extensions -/

/-- The figures of an extension: the lock is plain, and becomes longer. -/
theorem resolveExtendWithBonus_quoted (user : Address) (tokenId durationSeconds : ℕ) :
    Returns (fun r ↦ ∃ remaining,
        w.ve.getLockInfo call.timestamp tokenId =
          (r.1, call.timestamp + remaining, false, false) ∧
        ∀ basis bonusClaim, basis = basisOf w.furnace tokenId r.1 →
          Quoter.deliveredBonus call w (basisPrincipalEff r.2.2 basis r.1) = .ok bonusClaim →
          ¬ w.furnace.lockingPaused →
          Quoter.quoteExtendWithBonus call w user tokenId durationSeconds =
            .ok (r.1, bonusClaim, call.timestamp + r.2.1))
      (resolveExtendWithBonus call w user tokenId durationSeconds) := by
  unfold resolveExtendWithBonus Quoter.quoteExtendWithBonus
  generalize w.ve.getLockInfo call.timestamp tokenId = info
  obtain ⟨amount, lockEnd, autoMax, listed⟩ := info
  apply Returns.guard
  intro hamount
  apply Returns.guard
  intro hauto
  apply Returns.guard
  intro hlisted
  apply Returns.guard
  intro hexpired
  apply Returns.guard
  intro hminted
  apply Returns.guard
  intro howner
  apply Returns.guard
  intro hlonger
  obtain rfl := Bool.eq_false_of_not_eq_true hauto
  obtain rfl := Bool.eq_false_of_not_eq_true hlisted
  refine ⟨lockEnd - call.timestamp, ?_, ?_⟩
  · rw [Nat.add_sub_of_le (Nat.le_of_not_le hexpired)]
  · rintro basis bonusClaim rfl hbonus henabled
    dsimp only at hbonus ⊢
    rw [Quoter.whenLockingEnabled, revertIf_passed henabled, revertIf_passed hamount,
      revertIf_passed hauto, revertIf_passed hlisted, revertIf_passed hexpired,
      revertIf_passed hminted, revertIf_passed howner]
    apply (revertIf_passed hlonger).trans
    exact bind_eq_ok_iff.mpr ⟨bonusClaim, hbonus, rfl⟩

/-- An extension delivers the quoted bonus, and leaves the lock with it until the quoted end. -/
structure ExtensionExecutes (user : Address) (tokenId durationSeconds minBonusOut : ℕ)
    (w w' : World S) (bonusClaim : ℕ) : Prop where
  quoted : ¬ w.furnace.lockingPaused →
      Quoter.quoteExtendWithBonus call w user tokenId durationSeconds =
    .ok ((w.ve.locks tokenId).amount, bonusClaim, call.timestamp + clampDuration durationSeconds)
  lock : w'.ve.getLockInfo call.timestamp tokenId =
    ((w.ve.locks tokenId).amount + bonusClaim, call.timestamp + clampDuration durationSeconds,
      false, false)
  floor : minBonusOut ≤ bonusClaim

theorem extendBody_executes (user : Address) (tokenId durationSeconds minBonusOut : ℕ) :
    Returns (fun r ↦ ExtensionExecutes call user tokenId durationSeconds minBonusOut w r.1 r.2)
      (extendBody port call w user tokenId durationSeconds minBonusOut) := by
  unfold extendBody
  apply Returns.seq
  rintro ⟨lockAmount, d, principalEff⟩ hresolved
  obtain ⟨remaining, hinfo, hquote⟩ :=
    (resolveExtendWithBonus_quoted call w user tokenId durationSeconds).of_ok hresolved
  obtain ⟨-, -, hfigures⟩ :=
    (resolveExtendWithBonus_spec call hinfo durationSeconds).of_ok hresolved
  obtain rfl : d = clampDuration durationSeconds := congrArg (fun r ↦ r.2.1) hfigures
  obtain ⟨hamount, -, -, -⟩ := getLockInfo_plain hinfo
  dsimp only at hinfo hquote hamount ⊢
  apply Outcome.bind ((bonusFromHelper_quoted call _ user lockAmount _ _).and
    (bonusFromHelper_paid call user lockAmount _ _))
  rintro ⟨w₁, userBonus⟩ ⟨hbonus, hpaid⟩
  have hve : w₁.ve = w.ve := by
    rcases hpaid with ⟨-, hsame, -⟩ | ⟨-, bonus, hpaid, -⟩
    · exact (congrArg World.ve hsame :)
    · exact hpaid.ve
  apply Outcome.bind (VeClaimNFT.exec_effect port (call.byFurnace w₁.furnace) w₁.base
    (.extendLockToFor user tokenId (call.timestamp + clampDuration durationSeconds)))
  rintro base ⟨-, hextended⟩
  have hlock : base.ve.getLockInfo call.timestamp tokenId =
      (lockAmount, call.timestamp + clampDuration durationSeconds, false, false) := by
    refine getLockInfo_extended (e := call.timestamp + remaining) ?_ hextended
    rw [← hve] at hinfo
    exact hinfo
  apply Outcome.bind ((deliverOrRefund_spec port call (w := ⟨w₁.furnace, base⟩) hlock).and
    (deliverOrRefund_delivers ⟨w₁.furnace, base⟩
      (addToLockDelegated port call ⟨w₁.furnace, base⟩ user tokenId userBonus) userBonus))
  rintro ⟨w₂, bonusClaim⟩ ⟨⟨-, -, hdelivered⟩, hclaim⟩
  dsimp only at hdelivered hclaim
  apply Returns.guard
  intro hfloor
  refine ⟨fun henabled ↦ ?_, ?_, ?_⟩
  · rw [hamount]
    exact hquote _ _ rfl (hclaim ▸ hbonus) henabled
  · have hsync := (syncFurnaceReserve_same call w₂).2
    rw [hamount, ← hdelivered]
    exact congrArg (fun b ↦ b.ve.getLockInfo call.timestamp tokenId) hsync
  · dsimp only
    omega

/-! ## AutoMax bonuses -/

/-- A lock that may claim: it holds CLAIM, is AutoMax, not listed and not expired. -/
def Claimable (ve : VeClaimNFT.VeState) (nowTs tokenId lockAmount : ℕ) : Prop :=
  ∃ lockEnd, ve.getLockInfo nowTs tokenId = (lockAmount, lockEnd, true, false) ∧
    lockAmount ≠ 0 ∧ nowTs < lockEnd

theorem quotedPrincipalEff_eq (amount newDuration oldDuration : ℕ) :
    amount * (if Quoter.durationWeight newDuration > Quoter.durationWeight oldDuration then
      Quoter.durationWeight newDuration - Quoter.durationWeight oldDuration else 0) / WEIGHT_DENOM =
      incrementalPrincipalEff amount newDuration oldDuration := rfl

theorem quoteAutoMaxBonusSingle_claimable {tokenId lockAmount : ℕ}
    (h : Claimable w.ve call.timestamp tokenId lockAmount) :
    Quoter.quoteAutoMaxBonusSingle call w tokenId =
      if w.furnace.lastAutoMaxBonusClaim tokenId = 0 then .ok (lockAmount, 0)
      else do
        let lockStart := (w.ve.locks tokenId).lockStart
        let recorded := w.furnace.lastAutoMaxBonusClaim tokenId
        let elapsed ← usub call.timestamp (if lockStart > recorded then lockStart else recorded)
        if elapsed < DAY then return (lockAmount, 0)
        else
          let elapsed := if elapsed > MAX_LOCK_DURATION then MAX_LOCK_DURATION else elapsed
          let bonusClaim ← Quoter.deliveredBonus call w
            (incrementalPrincipalEff lockAmount MAX_LOCK_DURATION (MAX_LOCK_DURATION - elapsed))
          return (lockAmount, bonusClaim) := by
  obtain ⟨lockEnd, hinfo, hamount, hopen⟩ := h
  unfold Quoter.quoteAutoMaxBonusSingle
  rw [hinfo]
  dsimp only
  rw [if_neg (show ¬ (lockAmount = 0 ∨ (!true) = true ∨ false = true ∨ lockEnd ≤ call.timestamp) by
    simp [hamount, hopen])]
  split
  · rfl
  apply bind_congr_ok
  intro elapsed _
  split
  · rfl
  · exact congrArg (fun e ↦ Quoter.deliveredBonus call w e >>= fun b ↦ pure (lockAmount, b))
      (quotedPrincipalEff_eq lockAmount MAX_LOCK_DURATION _)

/-- What a claim of `bonusClaim` does: it was quoted, a zero bonus leaves the window open,
and any other bonus goes to the lock and closes it. -/
structure AutoMaxClaimed (tokenId lockAmount : ℕ) (w w' : World S) (bonusClaim : ℕ) : Prop where
  quoted : ¬ w.furnace.lockingPaused →
    Quoter.quoteAutoMaxBonus call w tokenId = .ok (lockAmount, bonusClaim)
  kept : bonusClaim = 0 → w'.base = w.base ∧ w'.furnace = { w.furnace with
    lastAutoMaxBonusClaim :=
      if w.furnace.lastAutoMaxBonusClaim tokenId = 0 then
        update w.furnace.lastAutoMaxBonusClaim tokenId call.timestamp
      else w.furnace.lastAutoMaxBonusClaim }
  paid : bonusClaim ≠ 0 → MIN_TOPUP_AMOUNT ≤ bonusClaim ∧
    w'.furnace.lastAutoMaxBonusClaim =
    update w.furnace.lastAutoMaxBonusClaim tokenId call.timestamp ∧
    w'.ve.locks tokenId = { w.ve.locks tokenId with
      amount := lockAmount + bonusClaim
      lockStart := call.timestamp
      lockEnd := call.timestamp + MAX_LOCK_DURATION } ∧
    ∀ id, id ≠ tokenId → w'.ve.locks id = w.ve.locks id

theorem addToLockDelegated_adds (user : Address) (tokenId amount : ℕ) :
    Returns (fun w' ↦ w'.furnace = w.furnace ∧
        (w.ve.toppedUp call.timestamp tokenId amount).Follows w'.ve)
      (addToLockDelegated port call w user tokenId amount) := by
  unfold addToLockDelegated
  apply Outcome.bind (VeClaimNFT.exec_effect port (call.byFurnace w.furnace) _
    (.addToLockFor user tokenId amount))
  rintro base ⟨-, htopped⟩
  exact ⟨rfl, htopped.ve⟩

theorem claimAutoMaxBonusCore_claimed {tokenId lockAmount : ℕ}
    (h : Claimable w.ve call.timestamp tokenId lockAmount) :
    Returns (fun r ↦ AutoMaxClaimed call tokenId lockAmount w r.1 r.2)
      (claimAutoMaxBonusCore port call w tokenId lockAmount) := by
  have hsingle := quoteAutoMaxBonusSingle_claimable call w h
  have hquote (henabled : ¬ w.furnace.lockingPaused) :
      Quoter.quoteAutoMaxBonus call w tokenId = Quoter.quoteAutoMaxBonusSingle call w tokenId :=
    revertIf_passed henabled
  have hidle (hrecorded : w.furnace.lastAutoMaxBonusClaim tokenId ≠ 0)
      (hzero : Quoter.quoteAutoMaxBonusSingle call w tokenId = .ok (lockAmount, 0)) :
      AutoMaxClaimed call tokenId lockAmount w w 0 := by
    refine ⟨fun henabled ↦ (hquote henabled).trans hzero, fun _ ↦ ⟨rfl, ?_⟩, fun h ↦ absurd rfl h⟩
    rw [if_neg hrecorded]
  unfold claimAutoMaxBonusCore
  apply Returns.ite
  · intro hfirst
    rw [if_pos hfirst] at hsingle
    refine ⟨fun henabled ↦ (hquote henabled).trans hsingle, fun _ ↦ ⟨rfl, ?_⟩, fun h ↦ absurd rfl h⟩
    rw [if_pos hfirst]
  intro hrecorded
  rw [if_neg hrecorded] at hsingle
  apply Returns.seq
  intro elapsed helapsed
  dsimp only at hsingle helapsed
  rw [helapsed] at hsingle
  apply Returns.ite
  · intro hearly
    exact hidle hrecorded (hsingle.trans (if_pos hearly))
  intro hday
  have hsingle := hsingle.trans (if_neg hday)
  dsimp only at hsingle ⊢
  generalize incrementalPrincipalEff lockAmount MAX_LOCK_DURATION (MAX_LOCK_DURATION -
    if elapsed > MAX_LOCK_DURATION then MAX_LOCK_DURATION else elapsed) = principalEff at hsingle ⊢
  apply Returns.guard
  intro _
  apply Returns.ite
  · rintro rfl
    exact hidle hrecorded hsingle
  intro heff
  apply Returns.guard
  intro _
  apply Returns.seq
  rintro ⟨amount, quoted⟩ hquoted
  obtain ⟨_, henabled, hquoted⟩ := bind_eq_ok_iff.mp hquoted
  rw [hsingle] at hquoted
  obtain ⟨delivered, hdelivered, hreturn⟩ := bind_eq_ok_iff.mp hquoted
  obtain ⟨rfl, rfl⟩ := Prod.mk.inj (Except.ok.inj hreturn)
  rw [hdelivered] at hsingle
  apply Returns.ite
  · rintro rfl
    exact hidle hrecorded hsingle
  intro hsome
  obtain ⟨lockEnd, hinfo, hamount, hopen⟩ := h
  apply Outcome.bind (((applyBonusAmm_quoted call w _ lockAmount _ MAX_LOCK_DURATION).and
    (applyBonusAmm_paid call w _ lockAmount _ MAX_LOCK_DURATION heff)).and
    (applyBonusAmm_rest call w _ lockAmount _ MAX_LOCK_DURATION))
  rintro ⟨w₁, bonus⟩ ⟨⟨⟨lp, hview⟩, hpaid⟩, stream, events, ghost, reserve, depth, lastUpdate,
    lastDrip, hrest⟩
  dsimp only at hrest
  obtain rfl : delivered = deliverable bonus.user := Except.ok.inj
    (hdelivered.symm.trans (deliveredBonus_of_view call w (Nat.pos_of_ne_zero heff) hview))
  have hbig : MIN_TOPUP_AMOUNT ≤ bonus.user := by
    by_contra hsmall
    exact hsome (if_neg hsmall)
  have hall : deliverable bonus.user = bonus.user := if_pos hbig
  rw [hall] at hsingle
  apply Returns.ite
  · intro hnone
    have hzero : bonus.user = 0 := Nat.le_zero.mp (hnone ▸ hpaid.user_le)
    rw [hall, hzero] at hsome
    exact absurd rfl hsome
  intro _
  unfold deliverOrRefund
  rw [if_pos hbig, bind_assoc]
  apply Outcome.bind (delegatecall_returns
    (addToLockDelegated_adds port call w₁ (w.ve.owners tokenId) tokenId bonus.user))
  rintro w₂ ⟨hfurnace, hadded⟩
  rw [hpaid.ve] at hadded
  have hlocks := hadded.keeps VeClaimNFT.VeState.locks fun _ _ ↦ rfl
  have hlock : w₂.ve.locks tokenId = { w.ve.locks tokenId with
      amount := lockAmount + bonus.user
      lockStart := call.timestamp
      lockEnd := call.timestamp + MAX_LOCK_DURATION } := by
    have hheld : (w.ve.locks tokenId).amount = lockAmount := congrArg Prod.fst hinfo
    have hauto : (w.ve.locks tokenId).autoMax = true := congrArg (fun i ↦ i.2.2.1) hinfo
    rw [hlocks, ← hheld]
    apply (update_self ..).trans
    simp only [hauto, if_true]
  refine ⟨fun henabled ↦ (hquote henabled).trans hsingle, fun hnone ↦ ?_, fun _ ↦ ?_⟩
  · exact absurd (hall.trans hnone) hsome
  refine ⟨hbig, ?_, ?_, ?_⟩
  · change update w₂.furnace.lastAutoMaxBonusClaim tokenId call.timestamp = _
    rw [hfurnace, hrest]
  · exact hlock
  · intro id hid
    change w₂.ve.locks id = _
    rw [hlocks]
    exact update_of_ne hid _ _

theorem claimAutoMaxBonus_claimed (tokenId : ℕ) :
    Returns (fun r ↦ ∃ w₁, AutoMaxClaimed call tokenId (w.ve.locks tokenId).amount w w₁ r.2 ∧
        ¬ w.furnace.lockingPaused ∧ r.1 = syncFurnaceReserve call w₁)
      (claimAutoMaxBonus port call w tokenId) := by
  unfold claimAutoMaxBonus
  apply Returns.seq
  intro _ henabled
  have henabled : ¬ w.furnace.lockingPaused := revertIf_eq_ok.mp henabled
  generalize hinfo : w.ve.getLockInfo call.timestamp tokenId = info
  obtain ⟨lockAmount, lockEnd, autoMax, listed⟩ := info
  obtain rfl : (w.ve.locks tokenId).amount = lockAmount := congrArg Prod.fst hinfo
  apply Returns.guard
  intro hamount
  apply Returns.guard
  intro hauto
  apply Returns.guard
  intro hlisted
  apply Returns.guard
  intro hexpired
  obtain rfl : autoMax = true := by simpa using hauto
  obtain rfl := Bool.eq_false_of_not_eq_true hlisted
  apply Outcome.bind (claimAutoMaxBonusCore_claimed port call w
    ⟨lockEnd, hinfo, hamount, Nat.lt_of_not_le hexpired⟩)
  rintro ⟨w₁, bonusClaim⟩ hclaimed
  exact ⟨w₁, hclaimed, henabled, rfl⟩

theorem syncFurnaceReserve_lastAutoMaxBonusClaim :
    (syncFurnaceReserve call w).furnace.lastAutoMaxBonusClaim =
      w.furnace.lastAutoMaxBonusClaim := by
  unfold syncFurnaceReserve
  dsimp only
  generalize (if w.claimBalance > w.furnace.stream.liability then
    w.claimBalance - w.furnace.stream.liability else 0) = cap
  split <;> rfl

/-- An extension of `user`, by itself or by a delegate. -/
inductive Extension (user : Address) (tokenId durationSeconds minBonusOut : ℕ) (r : World S × ℕ) :
    Prop
  | extendWithBonus (huser : call.sender = user)
      (h : extendWithBonus port call w tokenId durationSeconds minBonusOut = .ok r)
  | extendWithBonusFor
      (h : extendWithBonusFor port call w user tokenId durationSeconds minBonusOut = .ok r)

variable {port call w} in
theorem Extension.executes {user : Address} {tokenId durationSeconds minBonusOut : ℕ}
    {r : World S × ℕ} (h : Extension port call w user tokenId durationSeconds minBonusOut r) :
    ¬ w.furnace.lockingPaused ∧
      ExtensionExecutes call user tokenId durationSeconds minBonusOut w r.1 r.2 := by
  have hbody := extendBody_executes port call w user tokenId durationSeconds minBonusOut
  cases h with
  | extendWithBonus huser h =>
    subst huser
    obtain ⟨_, henabled, h⟩ := bind_eq_ok_iff.mp h
    exact ⟨revertIf_eq_ok.mp henabled, hbody.of_ok h⟩
  | extendWithBonusFor h =>
    obtain ⟨_, henabled, h⟩ := bind_eq_ok_iff.mp h
    obtain ⟨_, -, h⟩ := bind_eq_ok_iff.mp h
    obtain ⟨_, -, h⟩ := bind_eq_ok_iff.mp h
    obtain ⟨r₁, hr₁, h⟩ := bind_eq_ok_iff.mp h
    obtain rfl := Except.ok.inj h
    obtain ⟨hquoted, hlock, hfloor⟩ := hbody.of_ok hr₁
    exact ⟨revertIf_eq_ok.mp henabled, hquoted, hlock, hfloor⟩

/-- Extensions and AutoMax claims deliver what is quoted in the state before them.  An
extension leaves the lock until the quoted end.  An AutoMax claim that delivers nothing
changes no lock and keeps the window that a later claim is paid for. -/
theorem extension_executes_quote :
    (∀ user tokenId durationSeconds minBonusOut r,
      Extension port call w user tokenId durationSeconds minBonusOut r →
      Quoter.quoteExtendWithBonus call w user tokenId durationSeconds =
          .ok ((w.ve.locks tokenId).amount, r.2, call.timestamp + clampDuration durationSeconds) ∧
        r.1.ve.getLockInfo call.timestamp tokenId = ((w.ve.locks tokenId).amount + r.2,
          call.timestamp + clampDuration durationSeconds, false, false) ∧ minBonusOut ≤ r.2) ∧
    ∀ tokenId r, claimAutoMaxBonus port call w tokenId = .ok r →
      Quoter.quoteAutoMaxBonus call w tokenId = .ok ((w.ve.locks tokenId).amount, r.2) ∧
        (r.2 = 0 → r.1.base = w.base ∧ (w.furnace.lastAutoMaxBonusClaim tokenId ≠ 0 →
          r.1.furnace.lastAutoMaxBonusClaim = w.furnace.lastAutoMaxBonusClaim)) ∧
        (r.2 ≠ 0 → MIN_TOPUP_AMOUNT ≤ r.2 ∧
          r.1.furnace.lastAutoMaxBonusClaim tokenId = call.timestamp ∧
          (r.1.ve.locks tokenId).amount = (w.ve.locks tokenId).amount + r.2 ∧
          ∀ id, id ≠ tokenId → r.1.ve.locks id = w.ve.locks id) := by
  constructor
  · intro user tokenId durationSeconds minBonusOut r h
    obtain ⟨henabled, hquoted, hlock, hfloor⟩ := h.executes
    exact ⟨hquoted henabled, hlock, hfloor⟩
  intro tokenId r h
  obtain ⟨w₁, ⟨hquoted, hkept, hpaid⟩, henabled, hsync⟩ :=
    (claimAutoMaxBonus_claimed port call w tokenId).of_ok h
  have hbase : r.1.base = w₁.base := by
    rw [hsync, (syncFurnaceReserve_same call w₁).2]
  have hlast : r.1.furnace.lastAutoMaxBonusClaim = w₁.furnace.lastAutoMaxBonusClaim := by
    rw [hsync, syncFurnaceReserve_lastAutoMaxBonusClaim]
  have hve : r.1.ve = w₁.ve := congrArg VeClaimNFT.World.ve hbase
  refine ⟨hquoted henabled, fun hzero ↦ ?_, fun hsome ↦ ?_⟩
  · obtain ⟨hsame, hfurnace⟩ := hkept hzero
    refine ⟨hbase.trans hsame, fun hrecorded ↦ ?_⟩
    rw [hlast, hfurnace, if_neg hrecorded]
  · obtain ⟨hmin, hclosed, hlock, hothers⟩ := hpaid hsome
    rw [hlast, hclosed, hve, hlock]
    exact ⟨hmin, update_self .., rfl, hothers⟩

/-- An extension to 90 days; and an AutoMax lock that is touched, and claims after a day. -/
def bonusRun : Except Error Bool := do
  let w ← runCalls (fun c w ↦ exec VeClaimNFT.acceptingPort c.1 w c.2)
    (ladderCalls ++ [(wiredCall 2 7, .enterWithClaim (10 ^ 21) ⟨0, MAX_LOCK_DURATION, true, 1⟩)])
    wiredWorld
  let (_, bonusClaim) ← extendWithBonus VeClaimNFT.acceptingPort (wiredCall 2 7) w 1 7776000 0
  let (w₁, _) ← claimAutoMaxBonus VeClaimNFT.acceptingPort (wiredCall 2 8) w 2
  let (_, claimed) ← claimAutoMaxBonus VeClaimNFT.acceptingPort (wiredCall 90000 8) w₁ 2
  return decide (0 < bonusClaim ∧ claimed ≠ 0)

theorem extension_executes_quote_touched : ∃ (w w' : World Unit) (newEnd bonusClaim claimed : ℕ),
    Quoter.quoteExtendWithBonus (wiredCall 2 7) w 7 1 7776000 =
      .ok ((w.ve.locks 1).amount, bonusClaim, newEnd) ∧ 0 < bonusClaim ∧
    Quoter.quoteAutoMaxBonus (wiredCall 90000 8) w' 2 = .ok ((w'.ve.locks 2).amount, claimed) ∧
    MIN_TOPUP_AMOUNT ≤ claimed := by
  have hok : bonusRun.toOption.any id = true := by decide +kernel
  obtain ⟨_, hrun, rfl⟩ := exists_ok_of_any hok
  obtain ⟨w, -, hrest⟩ := bind_eq_ok_iff.mp hrun
  obtain ⟨⟨w₁, bonusClaim⟩, hextended, hrest⟩ := bind_eq_ok_iff.mp hrest
  obtain ⟨⟨w', first⟩, -, hrest⟩ := bind_eq_ok_iff.mp hrest
  obtain ⟨⟨w'', claimed⟩, hclaimed, hrest⟩ := bind_eq_ok_iff.mp hrest
  obtain ⟨hbonus, hsome⟩ := of_decide_eq_true (Except.ok.inj hrest)
  obtain ⟨hextension, -⟩ := extension_executes_quote VeClaimNFT.acceptingPort (wiredCall 2 7) w
  obtain ⟨-, hautoMax⟩ := extension_executes_quote VeClaimNFT.acceptingPort (wiredCall 90000 8) w'
  obtain ⟨hquote, -, hpaid⟩ := hautoMax _ _ hclaimed
  exact ⟨w, w', _, bonusClaim, claimed,
    (hextension _ _ _ _ _ (.extendWithBonus rfl hextended)).1, hbonus, hquote, (hpaid hsome).1⟩

end ClaimRush.Furnace
