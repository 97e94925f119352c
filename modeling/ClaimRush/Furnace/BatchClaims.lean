import ClaimRush.Furnace.ExtensionQuotes

/-!
# Batches of AutoMax claims

The keeper asks the quoter which locks of a batch may claim, and sends the others home.
A claim touches its own lock only, so an answer given before the batch holds to its
end, and the locks left out would have changed nothing.
-/

open Function

namespace ClaimRush.Furnace

open Constants

variable {S : Type} (port : VeClaimNFT.IShareholderRoyalties S) (call : Call) (w : World S)

namespace Quoter

/-- One lock of `filterAutoMaxBonusEligible`; a lock that was never touched is eligible, and
gets its window opened. -/
def autoMaxBonusEligible (tokenId : ℕ) : Except Error Bool :=
  let (amt, lockEnd, autoMax, listed) := w.ve.getLockInfo call.timestamp tokenId
  if amt = 0 ∨ !autoMax ∨ listed ∨ lockEnd ≤ call.timestamp then .ok false
  else
    let recorded := w.furnace.lastAutoMaxBonusClaim tokenId
    if recorded = 0 then .ok true
    else do
      let lockStart := (w.ve.locks tokenId).lockStart
      let lastClaim := if lockStart > recorded then lockStart else recorded
      let elapsed ← usub call.timestamp lastClaim
      return decide (elapsed ≥ DAY)

/-- `filterAutoMaxBonusEligible`. -/
def filterAutoMaxBonusEligible (tokenIds : List ℕ) : Except Error (List Bool) := do
  whenLockingEnabled w
  tokenIds.mapM (autoMaxBonusEligible call w)

end Quoter

/-- The ids that a filter lets through. -/
def selected (tokenIds : List ℕ) (eligible : List Bool) : List ℕ :=
  ((tokenIds.zip eligible).filter Prod.snd).map Prod.fst

/-! ## One claim -/

/-- Nothing of a lock and of its window changes. -/
structure Untouched (id : ℕ) (w w' : World S) : Prop where
  lock : w'.ve.locks id = w.ve.locks id
  window : w'.furnace.lastAutoMaxBonusClaim id = w.furnace.lastAutoMaxBonusClaim id

theorem Untouched.refl (id : ℕ) (w : World S) : Untouched id w w := ⟨rfl, rfl⟩

theorem Untouched.trans {id : ℕ} {w w' w'' : World S} (h : Untouched id w w')
    (h' : Untouched id w' w'') : Untouched id w w'' :=
  ⟨h'.lock.trans h.lock, h'.window.trans h.window⟩

variable {w} in
theorem Untouched.eligible {id : ℕ} {w' : World S} (h : Untouched id w w') :
    Quoter.autoMaxBonusEligible call w' id = Quoter.autoMaxBonusEligible call w id := by
  unfold Quoter.autoMaxBonusEligible VeClaimNFT.VeState.getLockInfo
  rw [h.lock, h.window]

/-- What a claim leaves of the locks: its own lock gains the bonus. -/
structure Claimed (tokenId bonusClaim : ℕ) (w w' : World S) : Prop where
  amount : (w'.ve.locks tokenId).amount = (w.ve.locks tokenId).amount + bonusClaim
  others : ∀ id, id ≠ tokenId → Untouched id w w'

theorem Claimed.nothing (tokenId : ℕ) (w : World S) : Claimed tokenId 0 w w :=
  ⟨rfl, fun id _ ↦ .refl id w⟩

variable {call w} in
theorem AutoMaxClaimed.claimed {tokenId bonusClaim : ℕ} {w' : World S}
    (h : AutoMaxClaimed call tokenId (w.ve.locks tokenId).amount w w' bonusClaim) :
    Claimed tokenId bonusClaim w w' := by
  by_cases hzero : bonusClaim = 0
  · obtain ⟨hbase, hfurnace⟩ := h.kept hzero
    have hlocks : w'.ve.locks = w.ve.locks := congrArg (fun b ↦ b.ve.locks) hbase
    subst hzero
    refine ⟨by rw [hlocks, Nat.add_zero], fun id hid ↦ ⟨by rw [hlocks], ?_⟩⟩
    rw [hfurnace]
    dsimp only
    split
    · exact update_of_ne hid _ _
    · rfl
  · obtain ⟨-, hwindow, hlock, hothers⟩ := h.paid hzero
    refine ⟨congrArg VeClaimNFT.Lock.amount hlock, fun id hid ↦ ⟨hothers id hid, ?_⟩⟩
    rw [hwindow]
    exact update_of_ne hid _ _

/-- One turn of a batch. -/
theorem claimAutoMaxBonusStep_claimed (previous : Option ℕ) (tokenId totalBonus : ℕ)
    (htotal : totalBonus < uint256Bound) :
    Returns (fun r ↦ r.2 < uint256Bound ∧ ∃ bonusClaim, r.2 = totalBonus + bonusClaim ∧
        Claimed tokenId bonusClaim w r.1)
      (claimAutoMaxBonusStep port call w previous tokenId totalBonus) := by
  unfold claimAutoMaxBonusStep
  generalize hinfo : w.ve.getLockInfo call.timestamp tokenId = info
  obtain ⟨lockAmount, lockEnd, autoMax, listed⟩ := info
  obtain rfl : (w.ve.locks tokenId).amount = lockAmount := congrArg Prod.fst hinfo
  have hskipped : totalBonus < uint256Bound ∧ ∃ bonusClaim, totalBonus = totalBonus + bonusClaim ∧
      Claimed tokenId bonusClaim w w := ⟨htotal, 0, rfl, .nothing tokenId w⟩
  apply Returns.ite
  · exact fun _ ↦ hskipped
  intro _
  apply Returns.ite
  · exact fun _ ↦ hskipped
  intro hclaimable
  have hclaimable : Claimable w.ve call.timestamp tokenId (w.ve.locks tokenId).amount := by
    simp only [not_or] at hclaimable
    obtain ⟨hamount, hauto, hlisted, hopen⟩ := hclaimable
    obtain rfl : autoMax = true := by simpa using hauto
    obtain rfl : listed = false := by simpa using hlisted
    exact ⟨lockEnd, hinfo, hamount, Nat.lt_of_not_le hopen⟩
  apply Outcome.bind (claimAutoMaxBonusCore_claimed port call w hclaimable)
  rintro ⟨w₁, bonusClaim⟩ hclaimed
  apply Returns.seq
  intro total hadded
  obtain ⟨hbound, rfl⟩ := uint256_eq_ok.mp hadded
  exact ⟨hbound, bonusClaim, rfl, hclaimed.claimed⟩

/-- A turn for a lock that is not eligible does nothing. -/
theorem claimAutoMaxBonusStep_ineligible {tokenId totalBonus : ℕ} (previous : Option ℕ)
    (h : Quoter.autoMaxBonusEligible call w tokenId = .ok false)
    (htotal : totalBonus < uint256Bound) :
    claimAutoMaxBonusStep port call w previous tokenId totalBonus = .ok (w, totalBonus) := by
  unfold Quoter.autoMaxBonusEligible at h
  unfold claimAutoMaxBonusStep
  generalize w.ve.getLockInfo call.timestamp tokenId = info at h ⊢
  obtain ⟨lockAmount, lockEnd, autoMax, listed⟩ := info
  dsimp only at h ⊢
  split
  · rfl
  split
  · rfl
  next hopen =>
    rw [if_neg hopen] at h
    split at h
    · cases h
    next hrecorded =>
      obtain ⟨elapsed, helapsed, hday⟩ := bind_eq_ok_iff.mp h
      have hday : elapsed < DAY := by
        have hlate : decide (elapsed ≥ DAY) = false := Except.ok.inj hday
        simpa using hlate
      have hcore : claimAutoMaxBonusCore port call w tokenId lockAmount = .ok (w, 0) := by
        unfold claimAutoMaxBonusCore
        apply (if_neg hrecorded).trans
        exact bind_eq_ok_iff.mpr ⟨elapsed, helapsed, if_pos hday⟩
      rw [hcore]
      exact bind_eq_ok_iff.mpr ⟨(w, 0), rfl, bind_eq_ok_iff.mpr
        ⟨totalBonus, uint256_eq_ok.mpr ⟨htotal, rfl⟩, rfl⟩⟩

/-! ## The loop -/

theorem mapM_eq_ok {ε α β : Type} {f : α → Except ε β} {xs : List α} {ys : List β}
    (h : xs.mapM f = .ok ys) : List.Forall₂ (fun x y ↦ f x = .ok y) xs ys := by
  induction xs generalizing ys with
  | nil =>
    obtain rfl := Except.ok.inj h
    exact .nil
  | cons x xs ih =>
    rw [List.mapM_cons] at h
    obtain ⟨y, hy, h⟩ := bind_eq_ok_iff.mp h
    obtain ⟨ys', hys, h⟩ := bind_eq_ok_iff.mp h
    obtain rfl := Except.ok.inj h
    exact .cons hy (ih hys)

/-- The turn of an id above the last one does not depend on the last one. -/
theorem claimAutoMaxBonusStep_above {tokenId totalBonus : ℕ} {previous previous' : Option ℕ}
    (h : ∀ p ∈ previous, p < tokenId) (h' : ∀ p ∈ previous', p < tokenId) :
    claimAutoMaxBonusStep port call w previous tokenId totalBonus =
      claimAutoMaxBonusStep port call w previous' tokenId totalBonus := by
  have hnone {q : Option ℕ} (hq : ∀ p ∈ q, p < tokenId) : q.any (tokenId ≤ ·) = false := by
    cases q with
    | none => rfl
    | some p => simpa using hq p rfl
  unfold claimAutoMaxBonusStep
  rw [hnone h, hnone h']

theorem selected_cons_false (tokenId : ℕ) (tokenIds : List ℕ) (eligible : List Bool) :
    selected (tokenId :: tokenIds) (false :: eligible) = selected tokenIds eligible := rfl

theorem selected_cons_true (tokenId : ℕ) (tokenIds : List ℕ) (eligible : List Bool) :
    selected (tokenId :: tokenIds) (true :: eligible) =
      tokenId :: selected tokenIds eligible := rfl

/-- The ineligible ids of an increasing batch make no difference. -/
theorem claimAutoMaxBonusLoop_selected {tokenIds : List ℕ} {eligible : List Bool}
    {previous previous' : Option ℕ} {totalBonus : ℕ}
    (helig : List.Forall₂ (fun id e ↦ Quoter.autoMaxBonusEligible call w id = .ok e) tokenIds
      eligible) (hsorted : tokenIds.Pairwise (· < ·))
    (habove : ∀ id ∈ tokenIds, ∀ p ∈ previous, p < id)
    (habove' : ∀ id ∈ tokenIds, ∀ p ∈ previous', p < id) (htotal : totalBonus < uint256Bound) :
    claimAutoMaxBonusLoop port call w previous tokenIds totalBonus =
      claimAutoMaxBonusLoop port call w previous' (selected tokenIds eligible) totalBonus := by
  induction tokenIds generalizing w eligible previous previous' totalBonus with
  | nil =>
    cases helig
    rfl
  | cons tokenId tokenIds ih =>
    obtain ⟨hbelow, hsorted⟩ := List.pairwise_cons.mp hsorted
    obtain ⟨hfirst, habove⟩ := List.forall_mem_cons.mp habove
    obtain ⟨hfirst', habove'⟩ := List.forall_mem_cons.mp habove'
    have hnext : ∀ id ∈ tokenIds, ∀ p ∈ some tokenId, p < id := by
      rintro id hid p ⟨⟩
      exact hbelow id hid
    cases helig with
    | @cons _ e _ eligible hid hrest =>
      cases e with
      | false =>
        rw [selected_cons_false, claimAutoMaxBonusLoop,
          claimAutoMaxBonusStep_ineligible port call w previous hid htotal]
        exact ih w hrest hsorted hnext habove' htotal
      | true =>
        rw [selected_cons_true, claimAutoMaxBonusLoop, claimAutoMaxBonusLoop,
          claimAutoMaxBonusStep_above port call w hfirst hfirst']
        apply bind_congr_ok
        rintro ⟨w₁, total⟩ hstep
        obtain ⟨hbound, bonusClaim, -, hclaimed⟩ :=
          (claimAutoMaxBonusStep_claimed port call w previous' tokenId totalBonus htotal).of_ok
          hstep
        have hkept : List.Forall₂ (fun id e ↦ id ≠ tokenId ∧
            Quoter.autoMaxBonusEligible call w id = .ok e) tokenIds eligible :=
          (List.forall₂_and_left tokenIds eligible).mpr ⟨fun id hid ↦ (hbelow id hid).ne', hrest⟩
        apply ih w₁ (hkept.imp _) hsorted hnext hnext hbound
        rintro id e ⟨hne, he⟩
        exact ((hclaimed.others id hne).eligible call).trans he

/-- A batch adds to its locks what it says, and touches no other lock. -/
theorem claimAutoMaxBonusLoop_claimed {tokenIds : List ℕ} (previous : Option ℕ) {totalBonus : ℕ}
    (hsorted : tokenIds.Pairwise (· < ·)) (htotal : totalBonus < uint256Bound) :
    Returns (fun r ↦ (∀ id, id ∉ tokenIds → Untouched id w r.1) ∧
        (tokenIds.map fun id ↦ (r.1.ve.locks id).amount).sum + totalBonus =
          (tokenIds.map fun id ↦ (w.ve.locks id).amount).sum + r.2)
      (claimAutoMaxBonusLoop port call w previous tokenIds totalBonus) := by
  induction tokenIds generalizing w previous totalBonus with
  | nil => exact ⟨fun id _ ↦ .refl id w, rfl⟩
  | cons tokenId tokenIds ih =>
    obtain ⟨hbelow, hsorted⟩ := List.pairwise_cons.mp hsorted
    apply Outcome.bind (claimAutoMaxBonusStep_claimed port call w previous tokenId
      totalBonus htotal)
    rintro ⟨w₁, total⟩ ⟨hbound, bonusClaim, htotal₁, hclaimed⟩
    apply (ih w₁ (some tokenId) hsorted hbound).weaken
    rintro r ⟨huntouched, hsum⟩
    have hothers : (tokenIds.map fun id ↦ (w₁.ve.locks id).amount) =
        tokenIds.map fun id ↦ (w.ve.locks id).amount := by
      apply List.map_congr_left
      intro id hid
      rw [(hclaimed.others id (hbelow id hid).ne').lock]
    have hown : (r.1.ve.locks tokenId).amount = (w.ve.locks tokenId).amount + bonusClaim := by
      rw [(huntouched tokenId fun hid ↦ (hbelow tokenId hid).ne rfl).lock, hclaimed.amount]
    constructor
    · intro id hid
      obtain ⟨hne, hid⟩ := not_or.mp (mt List.mem_cons.mpr hid)
      exact (hclaimed.others id hne).trans (huntouched id hid)
    · simp only [List.map_cons, List.sum_cons]
      dsimp only at htotal₁
      rw [hothers] at hsum
      omega

/-! ## The batch -/

theorem selected_sublist (tokenIds : List ℕ) (eligible : List Bool) :
    (selected tokenIds eligible).Sublist tokenIds := by
  induction tokenIds generalizing eligible with
  | nil => exact List.nil_sublist _
  | cons tokenId tokenIds ih =>
    rcases eligible with _ | ⟨_ | _, eligible⟩
    · exact List.nil_sublist _
    · rw [selected_cons_false]
      exact (ih eligible).cons tokenId
    · rw [selected_cons_true]
      exact (ih eligible).cons_cons tokenId

/-- A batch below the caps is a loop over all its ids. -/
theorem claimAutoMaxBonusBatch_loop {tokenIds : List ℕ} {maxLocks : ℕ}
    (hlocks : tokenIds.length ≤ maxLocks) (hbatch : tokenIds.length ≤ MAX_AUTOMAX_BONUS_BATCH) :
    claimAutoMaxBonusBatch port call w tokenIds maxLocks = (do
      whenLockingEnabled w.furnace
      let (w, totalBonus) ← claimAutoMaxBonusLoop port call w none tokenIds 0
      return (syncFurnaceReserve call w, totalBonus)) := by
  unfold claimAutoMaxBonusBatch
  dsimp only
  rw [min_eq_left hlocks, min_eq_left hbatch, List.take_length]

/-- An increasing batch claims the same, with the same total and the same errors, when the
ids that the quoter reports as ineligible are left out; it leaves the locks and windows of
those alone, and its total is what its locks have gained. -/
theorem filtered_batch_claims_alike {tokenIds : List ℕ} {maxLocks : ℕ} {eligible : List Bool}
    (hsorted : tokenIds.Pairwise (· < ·)) (hlocks : tokenIds.length ≤ maxLocks)
    (hbatch : tokenIds.length ≤ MAX_AUTOMAX_BONUS_BATCH)
    (helig : Quoter.filterAutoMaxBonusEligible call w tokenIds = .ok eligible) :
    claimAutoMaxBonusBatch port call w tokenIds maxLocks =
        claimAutoMaxBonusBatch port call w (selected tokenIds eligible) maxLocks ∧
      ∀ r, claimAutoMaxBonusBatch port call w tokenIds maxLocks = .ok r →
        (∀ id, id ∉ selected tokenIds eligible → Untouched id w r.1) ∧
        (tokenIds.map fun id ↦ (r.1.ve.locks id).amount).sum =
          (tokenIds.map fun id ↦ (w.ve.locks id).amount).sum + r.2 := by
  obtain ⟨_, -, helig⟩ := bind_eq_ok_iff.mp helig
  have hshort := (selected_sublist tokenIds eligible).length_le
  have hsame : claimAutoMaxBonusBatch port call w tokenIds maxLocks =
      claimAutoMaxBonusBatch port call w (selected tokenIds eligible) maxLocks := by
    rw [claimAutoMaxBonusBatch_loop port call w hlocks hbatch,
      claimAutoMaxBonusBatch_loop port call w (hshort.trans hlocks) (hshort.trans hbatch)]
    apply bind_congr_ok
    intro _ _
    exact congrArg (· >>= _) (claimAutoMaxBonusLoop_selected port call w (mapM_eq_ok helig) hsorted
      (fun _ _ _ h ↦ by cases h) (fun _ _ _ h ↦ by cases h) uint256Bound_pos)
  have hgained {ids : List ℕ} (hids : ids.Pairwise (· < ·)) (hle : ids.length ≤ tokenIds.length) :
      Returns (fun r ↦ (∀ id, id ∉ ids → Untouched id w r.1) ∧
          (ids.map fun id ↦ (r.1.ve.locks id).amount).sum =
            (ids.map fun id ↦ (w.ve.locks id).amount).sum + r.2)
        (claimAutoMaxBonusBatch port call w ids maxLocks) := by
    rw [claimAutoMaxBonusBatch_loop port call w (hle.trans hlocks) (hle.trans hbatch)]
    apply Returns.seq
    intro _ _
    apply Outcome.bind (claimAutoMaxBonusLoop_claimed port call w none hids uint256Bound_pos)
    rintro ⟨w₁, total⟩ ⟨huntouched, hsum⟩
    have hve : (syncFurnaceReserve call w₁).ve = w₁.ve :=
      (congrArg VeClaimNFT.World.ve (syncFurnaceReserve_same call w₁).2 :)
    refine ⟨fun id hid ↦ (huntouched id hid).trans ⟨by rw [hve], ?_⟩, ?_⟩
    · rw [syncFurnaceReserve_lastAutoMaxBonusClaim]
    · dsimp only at hsum ⊢
      rw [hve]
      exact hsum
  refine ⟨hsame, fun r hr ↦ ⟨?_, ((hgained hsorted le_rfl).of_ok hr).2⟩⟩
  exact ((hgained (hsorted.sublist (selected_sublist tokenIds eligible)) hshort).of_ok
    (hsame.symm.trans hr)).1

/-- A batch of a plain lock and of an AutoMax lock a day after its first touch. -/
def batchRun : Except Error Bool := do
  let w ← runCalls (fun c w ↦ exec VeClaimNFT.acceptingPort c.1 w c.2)
    (ladderCalls ++ [(wiredCall 2 7, .enterWithClaim (10 ^ 21) ⟨0, MAX_LOCK_DURATION, true, 1⟩),
      (wiredCall 2 8, .claimAutoMaxBonus 2)]) wiredWorld
  let eligible ← Quoter.filterAutoMaxBonusEligible (wiredCall 90000 8) w [1, 2]
  let (_, total) ← claimAutoMaxBonusBatch VeClaimNFT.acceptingPort (wiredCall 90000 8) w [1, 2] 5
  return decide (eligible = [false, true] ∧ total ≠ 0)

theorem filtered_batch_claims_alike_plain : ∃ (w : World Unit) (r : World Unit × ℕ),
    claimAutoMaxBonusBatch VeClaimNFT.acceptingPort (wiredCall 90000 8) w [1, 2] 5 = .ok r ∧
    claimAutoMaxBonusBatch VeClaimNFT.acceptingPort (wiredCall 90000 8) w [2] 5 = .ok r ∧
    r.2 ≠ 0 ∧ Untouched 1 w r.1 := by
  have hok : batchRun.toOption.any id = true := by decide +kernel
  obtain ⟨_, hrun, rfl⟩ := exists_ok_of_any hok
  obtain ⟨w, -, hrest⟩ := bind_eq_ok_iff.mp hrun
  obtain ⟨eligible, helig, hrest⟩ := bind_eq_ok_iff.mp hrest
  obtain ⟨r, hbatch, hrest⟩ := bind_eq_ok_iff.mp hrest
  obtain ⟨rfl, htotal⟩ := of_decide_eq_true (Except.ok.inj hrest)
  obtain ⟨hsame, hclaimed⟩ := filtered_batch_claims_alike VeClaimNFT.acceptingPort
    (wiredCall 90000 8) w (by decide : [1, 2].Pairwise (· < ·)) (by decide : [1, 2].length ≤ 5)
    (by decide +kernel) helig
  exact ⟨w, r, hbatch, hsame.symm.trans hbatch, htotal, (hclaimed r hbatch).1 1 (by decide)⟩

end ClaimRush.Furnace
