import ClaimRush.ShareholderRoyalties.Owed

/-!
# Pro-rata solvency

The potential of the proof is what the history owes to all locks, together with
the remainders of the users and what the clamp has dropped.  A flush raises it
by less than the indexed amount and one wei more; no other effect raises it.
-/

open Function

namespace ClaimRush.ShareholderRoyalties

open Constants VeClaimNFT RoyaltiesState ClaimRush.Distribution

/-- What the history owes to the lock of each token. -/
def owedTo (ds : List Distribution) (x : VeState × RoyaltiesState) (id : ℕ) : ℕ :=
  owed ds (x.2.userEthPerVePaid (x.1.owners id)) (x.1.locks id).weightAt

/-- The indexed ETH covers what is owed, up to one wei for each flush. -/
def Covered (ds : List Distribution) (x : VeState × RoyaltiesState) : Prop :=
  total (owedTo ds x) + total x.2.userRewardRemainder + x.2.ghost.clampedAccrual * SHAREHOLDER_ACC ≤
    (x.2.indexedEthOwed + ds.length) * SHAREHOLDER_ACC

structure Solvent (now : ℕ) (x : VeState × RoyaltiesState) : Prop where
  enumerated : x.1.Enumerated
  finite : FiniteLocks x.1.locks
  remainders : FiniteEntries x.2.userRewardRemainder
  clamped : x.2.ghost.clampedAccrual ≤ x.2.flushCount
  history : ∃ ds, Indexed now x.2 ds ∧ Marked x.2 ds ∧ Covered ds x

/-- The accruals of all users are computed from the same storage. -/
structure SameAccruals (r r' : RoyaltiesState) : Prop where
  index : SameIndex r r'
  paid : r'.userEthPerVePaid = r.userEthPerVePaid
  paidTimeWeighted : r'.userTimeWeightedEthPerVePaid = r.userTimeWeightedEthPerVePaid
  indexed : r'.indexedEthOwed = r.indexedEthOwed
  remainder : r'.userRewardRemainder = r.userRewardRemainder
  clamped : r'.ghost.clampedAccrual = r.ghost.clampedAccrual

variable {now : ℕ} {s s' : VeState} {r r' : RoyaltiesState} {ds : List Distribution}

theorem RoyaltiesState.SameLedger.sameAccruals (h : SameLedger r r') : SameAccruals r r' :=
  ⟨h.sameIndex, h.paid, h.paidTimeWeighted, h.indexed, h.remainder,
    congrArg Ghost.clampedAccrual h.ghost⟩

theorem finite_owedTo (h : FiniteLocks s.locks) (ds : List Distribution)
    (r : RoyaltiesState) : FiniteEntries (owedTo ds (s, r)) :=
  FiniteEntries.owed ds (fun id ↦ r.userEthPerVePaid (s.owners id)) h.weights

/-! ## Effects that do not index -/

theorem Solvent.same (h : Solvent now (s, r)) (hsame : SameAccruals r r') :
    Solvent now (s, r') := by
  obtain ⟨ds, hindexed, hmarked, hcovered⟩ := h.history
  refine ⟨h.enumerated, h.finite, hsame.remainder ▸ h.remainders, ?_, ds,
    hindexed.congr hsame.index, hmarked.congr hsame.paid hsame.paidTimeWeighted, ?_⟩
  · exact hsame.clamped.le.trans (h.clamped.trans hsame.index.flushCount.ge)
  · unfold Covered owedTo at hcovered ⊢
    simp only [hsame.paid, hsame.remainder, hsame.clamped, hsame.indexed] at hcovered ⊢
    exact hcovered

/-- A lock that is not as before is owed nothing. -/
theorem Solvent.lock (h : Solvent now (s, r)) (hchange : LockChange r.IsSettled s s') :
    Solvent now (s', r) := by
  obtain ⟨ds, hindexed, hmarked, hcovered⟩ := h.history
  have hfinite := hchange.finite h.finite
  refine ⟨hchange.enumerated h.enumerated, hfinite, h.remainders, h.clamped, ds, hindexed, hmarked,
    le_trans (Nat.add_le_add_right (Nat.add_le_add_right ?_ _) _) hcovered⟩
  refine total_mono (finite_owedTo hfinite ds r) (finite_owedTo h.finite ds r) fun id ↦ ?_
  unfold owedTo
  dsimp only
  rcases hchange.each id with ⟨hweight, howner⟩ | hgone | hsettled
  · rw [hweight.weightAt, howner]
  · rw [Lock.weightAt_of_amount_zero hgone, owed_zero]
    exact Nat.zero_le _
  · rw [hsettled, hindexed.index, hindexed.consecutive.owed_settled]
    exact Nat.zero_le _

/-! ## Crystallisation -/

/-- What the locks of one user are owed. -/
def owedToUser (ds : List Distribution) (x : VeState × RoyaltiesState) (user : Address) : ℕ :=
  ((getShareholderLockParams x.1 user).map fun l ↦
    owed ds (x.2.userEthPerVePaid user) l.weightAt).sum

theorem owedToUser_eq (h : s.Enumerated) (ds : List Distribution) (r : RoyaltiesState)
    {user : Address} (huser : user ≠ 0) :
    owedToUser ds (s, r) user = fiberTotal (owedTo ds (s, r)) s.owners user := by
  rw [← Enumerates.sum_eq h (owedTo ds (s, r)) huser]
  unfold owedToUser getShareholderLockParams
  rw [List.map_map]
  refine congrArg List.sum (List.map_congr_left fun id hid ↦ ?_)
  simp only [owedTo, comp_apply, ((Enumerates.mem_iff h user id).mp hid).2]

/-- The tokens of the user are taken out of the sum. -/
theorem total_owedTo_markPaid (h : FiniteLocks s.locks) (henum : s.Enumerated)
    (hindexed : Indexed now r ds) {user : Address} (huser : user ≠ 0)
    (hpaid : r'.userEthPerVePaid = update r.userEthPerVePaid user r.ethPerVe) :
    total (owedTo ds (s, r')) + owedToUser ds (s, r) user = total (owedTo ds (s, r)) := by
  rw [owedToUser_eq henum ds r huser, fiberTotal,
    ← total_add (finite_owedTo h ds r') ((finite_owedTo h ds r).restrict _)]
  refine congrArg total (funext fun id ↦ ?_)
  by_cases howner : s.owners id = user
  · have hsettled : owedTo ds (s, r') id = 0 := by
      simp only [owedTo, hpaid, howner, update_self]
      rw [hindexed.index]
      exact hindexed.consecutive.owed_settled _
    rw [hsettled, if_pos howner, Nat.zero_add]
  · rw [if_neg howner, Nat.add_zero]
    simp only [owedTo, hpaid, update_of_ne howner]

theorem Solvent.crystallise (h : Solvent now (s, r)) {user : Address} (huser : user ≠ 0)
    (hr : r.crystallise s user = .ok r') : Solvent now (s, r') := by
  obtain ⟨ds, hindexed, hmarked, hcovered⟩ := h.history
  obtain ⟨whole, remainder, minEnd, hpending, hcredited, hremainder⟩ :=
    (crystallise_credited r s user).of_ok hr
  have hindexed' : Indexed now (r.markPaid user) ds :=
    hindexed.congr ⟨rfl, rfl, rfl, rfl, rfl, rfl⟩
  obtain ⟨t, hpaid⟩ := hmarked user
  have haccrued : whole * SHAREHOLDER_ACC + remainder ≤
      owedToUser ds (s, r) user + r.userRewardRemainder user :=
    (hindexed'.computePendingAccrual_le hpaid s user _ _).of_ok hpending
  have howed : total (owedTo ds (s, r')) + owedToUser ds (s, r) user = total (owedTo ds (s, r)) :=
    total_owedTo_markPaid h.finite h.enumerated hindexed huser hcredited.paid
  have hremainders : total r'.userRewardRemainder + r.userRewardRemainder user =
      total r.userRewardRemainder + remainder :=
    hremainder ▸ total_update h.remainders user remainder
  have hindexedOwed : r'.indexedEthOwed = r.indexedEthOwed - whole := hcredited.indexed
  have hclamped : r'.ghost.clampedAccrual =
    r.ghost.clampedAccrual + (whole - r.indexedEthOwed) := hcredited.clamped
  have hcount : r'.flushCount = r.flushCount := hcredited.index.flushCount
  have hcovered' : Covered ds (s, r') := by
    unfold Covered at hcovered ⊢
    dsimp only at hcovered ⊢
    rcases Nat.le_total whole r.indexedEthOwed with hle | hle
    · obtain ⟨rest, hrest⟩ := Nat.exists_eq_add_of_le hle
      rw [hclamped, hindexedOwed, hrest, Nat.add_sub_cancel_left,
        Nat.sub_eq_zero_of_le (Nat.le_add_right whole rest), Nat.add_zero]
      rw [hrest] at hcovered
      simp only [Nat.add_mul] at hcovered ⊢
      omega
    · obtain ⟨excess, hexcess⟩ := Nat.exists_eq_add_of_le hle
      rw [hclamped, hindexedOwed, hexcess, Nat.add_sub_cancel_left,
        Nat.sub_eq_zero_of_le (Nat.le_add_right _ excess), Nat.zero_add, Nat.add_mul]
      rw [Nat.add_mul] at hcovered
      rw [hexcess, Nat.add_mul] at haccrued
      omega
  refine ⟨h.enumerated, h.finite, hremainder ▸ h.remainders.update user remainder, ?_, ds,
    hindexed'.congr hcredited.index,
    (hmarked.markPaid hindexed user).congr hcredited.paid hcredited.paidTimeWeighted, hcovered'⟩
  dsimp only
  rcases Nat.le_total whole r.indexedEthOwed with hle | hle
  · rw [hclamped, hcount, Nat.sub_eq_zero_of_le hle]
    exact h.clamped
  · refine Nat.le_of_mul_le_mul_right ?_ SHAREHOLDER_ACC_pos
    unfold Covered at hcovered'
    rw [hindexedOwed, Nat.sub_eq_zero_of_le hle, Nat.zero_add, hindexed.count, ← hcount]
      at hcovered'
    exact (Nat.le_add_left _ _).trans hcovered'

/-! ## Indexing -/

/-- The amount taken out of the pending ETH, and one wei, cover the
distribution. -/
theorem Solvent.index (h : Solvent now (s, r)) (hs : s.Accounted) {bypass : Bool}
    (hr : r.indexPending s now bypass = .ok r') : Solvent now (s, r') := by
  obtain ⟨ds, hindexed, hmarked, hcovered⟩ := h.history
  obtain rfl | ⟨hnow, delta, hdelta, hadvance⟩ := (indexPending_cases r s now bypass).of_ok hr
  · exact h
  · have hadvanced := (advanceIndex_advanced r now _ delta).of_ok hadvance
    have hcovered' : Covered (r.distribution now delta :: ds) (s, r') := by
      have hpotential : total (owedTo (r.distribution now delta :: ds) (s, r)) ≤
          delta * totalWeight s.locks now + total (owedTo ds (s, r)) :=
        total_owed_cons_le (r.distribution now delta) ds
          (fun id ↦ r.userEthPerVePaid (s.owners id)) h.finite.weights
      have hweights : delta * totalWeight s.locks now ≤ delta * s.global.globalBiasScaled :=
        Nat.mul_le_mul_left delta (hnow ▸ hs.totalWeight_le)
      have hrounded := Nat.lt_div_mul_add (a := delta * s.global.globalBiasScaled)
        SHAREHOLDER_ACC_pos
      have hsame : owedTo (r.distribution now delta :: ds) (s, r') =
          owedTo (r.distribution now delta :: ds) (s, r) := by
        funext id
        simp only [owedTo, hadvanced.paid]
      unfold Covered at hcovered ⊢
      simp only [hsame, hadvanced.remainder, hadvanced.ghost, hadvanced.indexed,
        List.length_cons, Nat.add_mul, Nat.one_mul] at hcovered ⊢
      omega
    refine ⟨h.enumerated, h.finite, hadvanced.remainder ▸ h.remainders, ?_, _,
      hindexed.advance hdelta hadvanced,
      (hmarked.cons _).congr hadvanced.paid hadvanced.paidTimeWeighted, hcovered'⟩
    dsimp only
    rw [hadvanced.ghost, hadvanced.flushCount]
    exact h.clamped.trans (Nat.le_succ _)

/-! ## Runs -/

theorem initial_solvent (now : ℕ) (self claimToken owner self' owner' : Address) (balance : ℕ) :
    Solvent now (VeClaimNFT.initial self claimToken owner now, initial self' owner' balance) := by
  refine ⟨⟨fun u id ↦ ?_, fun u i id hid ↦ ?_⟩, finiteEntries_zero, finiteEntries_zero,
    Nat.zero_le _, [], ⟨trivial, rfl, rfl, rfl, by simp, fun c hc ↦ ?_⟩, fun u ↦ ⟨0, .zero _ _⟩, ?_⟩
  · constructor
    · intro hid
      cases hid
    · rintro ⟨hne, hzero⟩
      exact absurd hzero.symm hne
  · cases hid
  · cases hc
  · have howed : owedTo [] (VeClaimNFT.initial self claimToken owner now,
        initial self' owner' balance) = fun _ ↦ 0 := rfl
    unfold Covered
    rw [howed]
    simp [initial]

/-- Every effect keeps the contract solvent. -/
theorem Solvent.effect {x y : VeState × RoyaltiesState} (h : Solvent now x)
    (heffect : Effect now x y) : Solvent now y := by
  cases heffect with
  | lock hchange => exact h.lock hchange
  | keep hsame => exact h.same hsame.sameAccruals
  | crystallise user huser hr => exact h.crystallise huser hr
  | receive reignId value hr =>
      obtain ⟨pending, -, hr⟩ := bind_eq_ok_iff.mp hr
      obtain rfl := Except.ok.inj hr
      refine h.same ⟨⟨rfl, rfl, rfl, rfl, rfl, ?_⟩, rfl, rfl, rfl, rfl, rfl⟩
      exact (sameLedger_emit _ (e := .ShareholderTakeoverAllocation reignId value)
        trivial).flushCount
  | index bypass hs hr => exact h.index hs hr
  | forceEth amount => exact h.same ⟨⟨rfl, rfl, rfl, rfl, rfl, rfl⟩, rfl, rfl, rfl, rfl, rfl⟩
  | payOut user amount _ _ => exact h.same ⟨⟨rfl, rfl, rfl, rfl, rfl, rfl⟩, rfl, rfl, rfl, rfl, rfl⟩
  | sweep dust _ => exact h.same ⟨⟨rfl, rfl, rfl, rfl, rfl, rfl⟩, rfl, rfl, rfl, rfl, rfl⟩

theorem reachable_solvent {c : Config} (hc : system.Reachable c) :
    Solvent c.now c.world.holdings := by
  refine (reachable_induction (I := Solvent) ?_ ?_ (fun _ _ _ ↦ flip Solvent.effect) hc).2
  · rintro now s r ⟨self, claimToken, owner, rfl⟩ ⟨self', owner', balance, rfl⟩
    exact initial_solvent now self claimToken owner self' owner' balance
  · rintro now now' x hle h
    obtain ⟨ds, hindexed, hrest⟩ := h.history
    exact { h with history := ⟨ds, hindexed.mono hle, hrest⟩ }

/-- What a checkpoint of `user` would credit without the clamp; a checkpoint that
reverts credits nothing. -/
def unclampedAccrual (x : VeState × RoyaltiesState) (user : Address) : ℕ :=
  match (x.2.markPaid user).computePendingAccrual x.1 user (x.2.userEthPerVePaid user)
      (x.2.userTimeWeightedEthPerVePaid user) (x.2.userLastRewardTs user)
      (x.2.userRewardRemainder user) with
  | .ok (whole, _, _) => whole
  | .error _ => 0

theorem unclampedAccrual_le {x : VeState × RoyaltiesState} (henum : x.1.Enumerated)
    (hindexed : Indexed now x.2 ds) (hmarked : Marked x.2 ds) (user : Address) :
    SHAREHOLDER_ACC * unclampedAccrual x user ≤
      fiberTotal (owedTo ds x) x.1.owners user + x.2.userRewardRemainder user := by
  obtain ⟨t, hpaid⟩ := hmarked user
  have hindexed' : Indexed now (x.2.markPaid user) ds :=
    hindexed.congr ⟨rfl, rfl, rfl, rfl, rfl, rfl⟩
  have hspec := hindexed'.computePendingAccrual_le hpaid x.1 user (x.2.userLastRewardTs user)
    (x.2.userRewardRemainder user)
  have hfiber : owedToUser ds x user ≤ fiberTotal (owedTo ds x) x.1.owners user := by
    by_cases huser : user = 0
    · have hnone : x.1.ownedTokens user = [] :=
        List.eq_nil_iff_forall_not_mem.mpr fun id hid ↦
          ((Enumerates.mem_iff henum user id).mp hid).1 huser
      simp [owedToUser, getShareholderLockParams, hnone]
    · exact (owedToUser_eq henum ds x.2 huser).le
  unfold unclampedAccrual
  split
  · next whole remainder minEnd hpending =>
      have := hspec.of_ok hpending
      rw [Nat.mul_comm]
      exact (Nat.le_add_right _ _).trans (this.trans (Nat.add_le_add_right hfiber _))
  · exact Nat.zero_le _

/-- The unclamped accruals of all users together exceed the indexed ETH by at
most one wei for each flush, and so does all that the clamp has ever dropped. -/
theorem accruals_covered {c : Config} (hc : system.Reachable c) :
    FiniteEntries (unclampedAccrual c.world.holdings) ∧
    total (unclampedAccrual c.world.holdings) ≤
      c.world.royalties.indexedEthOwed + c.world.royalties.flushCount ∧
    c.world.royalties.ghost.clampedAccrual ≤ c.world.royalties.flushCount ∧
    c.world.royalties.ghost.clampedAccrual + total (unclampedAccrual c.world.holdings) ≤
      c.world.royalties.indexedEthOwed + c.world.royalties.flushCount := by
  have hsolvent := reachable_solvent hc
  obtain ⟨ds, hindexed, hmarked, hcovered⟩ := hsolvent.history
  have howed := finite_owedTo hsolvent.finite ds c.world.royalties
  have hshares := (howed.fibers c.world.ve.owners).add hsolvent.remainders
  have hle := unclampedAccrual_le hsolvent.enumerated hindexed hmarked
  have hfinite : FiniteEntries (unclampedAccrual c.world.holdings) := by
    refine hshares.mono fun user huser ↦ ?_
    have := (hle user).trans huser.le
    exact (Nat.mul_eq_zero.mp (Nat.le_zero.mp this)).resolve_left SHAREHOLDER_ACC_pos.ne'
  have hscaled :
      FiniteEntries fun user ↦ SHAREHOLDER_ACC * unclampedAccrual c.world.holdings user :=
    hfinite.mono fun user huser ↦ by rw [huser, Nat.mul_zero]
  have htotal := total_mono hscaled hshares hle
  rw [total_mul_left hfinite, total_add (howed.fibers _) hsolvent.remainders,
    total_fibers howed] at htotal
  have hall : c.world.royalties.ghost.clampedAccrual + total (unclampedAccrual c.world.holdings) ≤
      c.world.royalties.indexedEthOwed + c.world.royalties.flushCount := by
    refine Nat.le_of_mul_le_mul_right ?_ SHAREHOLDER_ACC_pos
    unfold Covered at hcovered
    rw [hindexed.count] at hcovered
    rw [Nat.add_mul, Nat.mul_comm (total _)]
    exact (Nat.add_comm _ _).le.trans ((Nat.add_le_add_right htotal _).trans hcovered)
  exact ⟨hfinite, (Nat.le_add_left _ _).trans hall, hsolvent.clamped, hall⟩

theorem accruals_covered_bundle :
    ∃ w, run indexedBundle deployed = .ok w ∧ unclampedAccrual w.holdings 7 = 999999999999999000 ∧
      total (unclampedAccrual w.holdings) ≤
        w.royalties.indexedEthOwed + w.royalties.flushCount := by
  have hok : ((run indexedBundle deployed).toOption.any fun w ↦
      unclampedAccrual w.holdings 7 = 999999999999999000) = true := by
    decide +kernel
  cases hrun : run indexedBundle deployed with
  | error e => simp [hrun, Except.toOption] at hok
  | ok w =>
      have hc := reachable_run deployed_reachable hrun (by decide)
      refine ⟨w, rfl, ?_, (accruals_covered hc).2.1⟩
      simpa [hrun, Except.toOption] using hok

end ClaimRush.ShareholderRoyalties
