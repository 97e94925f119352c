import ClaimRush.ShareholderRoyalties.Moments

/-!
# Timing of the checkpoints

Over a whole run the wei credited to a user and the remainder of the user make
up what the flushes allotted to the locks that the user held then, no matter
when the checkpoints were made.
-/

open Function

namespace ClaimRush.ShareholderRoyalties

open Constants VeClaimNFT RoyaltiesState ClaimRush.Distribution

variable {now : ℕ} {s s' : VeState} {r r' : RoyaltiesState} {ds os : List Distribution}
  {user : Address} {m : Moment} {ms : List Moment}

/-- A flush that does not evict continues the chronicle. -/
theorem Complete.advanceIndex (h : Complete r ds) (hindex : r.ethPerVe = index ds)
    (htimeIndex : r.ethPerVeTimeWeighted = timeIndex ds) (rewardTs totalWeight delta : ℕ) :
    Returns (fun r' ↦ r'.overflowRingHead = 0 →
        Complete r' (r.distribution rewardTs delta :: ds))
      (r.advanceIndex rewardTs totalWeight delta) := by
  unfold RoyaltiesState.advanceIndex
  refine Outcome.uint256_bind trivial fun _ ↦ Outcome.uint256_bind trivial fun _ ↦ ?_
  refine Outcome.uint256_bind trivial fun _ ↦ Returns.seq fun r₁ hr₁ ↦ ?_
  refine Returns.seq fun _ _ ↦ Outcome.usub_bind trivial fun _ ↦ ?_
  refine Outcome.uint256_bind trivial fun _ hring ↦ ?_
  have hcomplete : Complete r₁ (r.distribution rewardTs delta :: ds) := by
    refine h.store (d := r.distribution rewardTs delta) ?_ ?_ ?_ ?_ hr₁ hring
    · rfl
    · rfl
    · rfl
    unfold entryAt snapshotAt
    rw [index_cons, timeIndex_cons, ← hindex, ← htimeIndex]
    simp only [distribution, RewardCheckpoint.mk.injEq, true_and]
    omega
  exact ⟨hcomplete.chronicle, hcomplete.full, hcomplete.head⟩

/-- A flush that does not evict is told as well. -/
theorem Told.advance (h : Told now r ds) {totalWeight delta : ℕ} (hdelta : 0 < delta)
    (hr : r.advanceIndex now totalWeight delta = .ok r') (hring : r'.overflowRingHead = 0) :
    Told now r' (r.distribution now delta :: ds) where
  indexed := h.indexed.advance hdelta ((advanceIndex_advanced r now totalWeight delta).of_ok hr)
  times := List.pairwise_cons.mpr ⟨h.indexed.times, h.times⟩
  complete := (h.complete.advanceIndex h.indexed.index h.indexed.timeIndex now totalWeight
    delta).of_ok hr hring

theorem Told.mono {now' : ℕ} (h : Told now r ds) (hle : now ≤ now') : Told now' r ds :=
  { h with indexed := h.indexed.mono hle }

/-! ## The balance of one user -/

/-- What has been credited to the user, the remainder, and what is still owed
make up what the run has allotted. -/
structure Balanced (user : Address) (m : Moment) (ms : List Moment)
    (ds os : List Distribution) : Prop where
  told : Told m.time m.royalties ds
  past : os <:+ ds
  marked : MarkedAt m.royalties user os
  remainder : m.royalties.userRewardRemainder user < SHAREHOLDER_ACC
  balance : SHAREHOLDER_ACC * credited user (m :: ms) + m.royalties.userRewardRemainder user +
    owedToUser ds m.holdings user = entitled user (m :: ms)

/-- The accounts of the user are as before. -/
structure SameAccount (user : Address) (r r' : RoyaltiesState) : Prop where
  index : SameIndex r r'
  paid : r'.userEthPerVePaid user = r.userEthPerVePaid user
  paidTimeWeighted : r'.userTimeWeightedEthPerVePaid user = r.userTimeWeightedEthPerVePaid user
  lastRewardTs : r'.userLastRewardTs user = r.userLastRewardTs user
  remainder : r'.userRewardRemainder user = r.userRewardRemainder user
  stored : r'.claimableEthStored user ≤ r.claimableEthStored user

theorem RoyaltiesState.SameLedger.sameAccount (h : SameLedger r r') (user : Address) :
    SameAccount user r r' :=
  ⟨h.sameIndex, congrFun h.paid user, congrFun h.paidTimeWeighted user,
    congrFun h.lastRewardTs user, congrFun h.remainder user, (congrFun h.stored user).le⟩

theorem SameAccount.trans {r'' : RoyaltiesState} (h : SameAccount user r r')
    (h' : SameAccount user r' r'') : SameAccount user r r'' where
  index := ⟨h'.index.1.trans h.index.1, h'.index.2.trans h.index.2, h'.index.3.trans h.index.3,
    h'.index.4.trans h.index.4, h'.index.5.trans h.index.5, h'.index.6.trans h.index.6⟩
  paid := h'.paid.trans h.paid
  paidTimeWeighted := h'.paidTimeWeighted.trans h.paidTimeWeighted
  lastRewardTs := h'.lastRewardTs.trans h.lastRewardTs
  remainder := h'.remainder.trans h.remainder
  stored := h'.stored.trans h.stored

theorem receivePending_account {reignId value : ℕ} (h : receivePending reignId value r = .ok r')
    (user : Address) : SameAccount user r r' ∧ r'.ghost = r.ghost := by
  obtain ⟨pending, -, h⟩ := bind_eq_ok_iff.mp h
  obtain rfl := Except.ok.inj h
  refine ⟨⟨⟨rfl, rfl, rfl, rfl, rfl, ?_⟩, rfl, rfl, rfl, rfl, le_rfl⟩, rfl⟩
  exact (sameLedger_emit _ (e := .ShareholderTakeoverAllocation reignId value) trivial).flushCount

theorem MarkedAt.congr (h : MarkedAt r user os) (hsame : SameAccount user r r') :
    MarkedAt r' user os :=
  ⟨hsame.paid.trans h.paid, hsame.paidTimeWeighted.trans h.paidTimeWeighted,
    hsame.lastRewardTs.trans h.lastRewardTs⟩

/-- An effect that leaves the user and the locks of the user alone. -/
theorem Balanced.keep {t : ℕ} {y : VeState × RoyaltiesState} (h : Balanced user m ms ds os)
    (htime : m.time ≤ t) (hsame : SameAccount user m.royalties y.2)
    (howed : owedToUser ds y user = owedToUser ds m.holdings user) :
    Balanced user ⟨t, y⟩ (m :: ms) ds os where
  told := (h.told.mono htime).congr hsame.index
  past := h.past
  marked := h.marked.congr hsame
  remainder := hsame.remainder.trans_lt h.remainder
  balance := by
    have hbalance := h.balance
    rw [credited_cons, entitled_cons_of_same hsame.index.ethPerVe,
      Nat.sub_eq_zero_of_le hsame.stored, Nat.zero_add, howed, hsame.remainder]
    exact hbalance

theorem owedToUser_congr (hpaid : r'.userEthPerVePaid user = r.userEthPerVePaid user) :
    owedToUser ds (s, r') user = owedToUser ds (s, r) user := by
  unfold owedToUser
  rw [hpaid]

theorem ownedTokens_zero (h : s.Enumerated) : s.ownedTokens 0 = [] :=
  List.eq_nil_iff_forall_not_mem.mpr fun id hid ↦ ((Enumerates.mem_iff h 0 id).mp hid).1 rfl

/-- A change of the locks that settles the user, or leaves the locks of the user
alone, does not change what they are owed. -/
theorem owedToUser_lock (hsolvent : Solvent now (s, r)) (hindexed : Indexed now r ds)
    (hchange : LockChange r.IsSettled s s')
    (hkept : s.furnace = user → ∀ id, s.owners id = user → r.IsSettled user ∨
      (s.locks id).SameWeight (s'.locks id) ∧ s'.owners id = user) :
    owedToUser ds (s', r) user = owedToUser ds (s, r) user := by
  have henum : s.Enumerated := hsolvent.enumerated
  have henum' := hchange.enumerated henum
  by_cases hzero : user = 0
  · subst hzero
    simp [owedToUser, getShareholderLockParams, ownedTokens_zero henum, ownedTokens_zero henum']
  rw [owedToUser_eq henum ds r hzero, owedToUser_eq henum' ds r hzero]
  refine congrArg total (funext fun id ↦ ?_)
  by_cases hsettled : r.IsSettled user
  · have hnone (x : VeState) (hx : x.owners id = user) : owedTo ds (x, r) id = 0 := by
      simp only [owedTo, hx, hsettled.trans hindexed.index]
      exact hindexed.consecutive.owed_settled _
    split_ifs with hnew hold hold
    · rw [hnone s' hnew, hnone s hold]
    · exact hnone s' hnew
    · exact (hnone s hold).symm
    · rfl
  by_cases hsame : (s.locks id).SameWeight (s'.locks id) ∧ s'.owners id = s.owners id
  · simp only [owedTo, hsame.1.weightAt, hsame.2]
  have hnew (howner : s'.owners id = user) : owedTo ds (s', r) id = 0 := by
    rcases hchange.each id with h | hgone | h
    · exact absurd h hsame
    · simp only [owedTo, Lock.weightAt_of_amount_zero hgone, owed_zero]
    · exact absurd (howner ▸ h) hsettled
  have hold (howner : s.owners id = user) : owedTo ds (s, r) id = 0 := by
    rcases hchange.left id with h | hempty | h | hfurnace
    · exact absurd h hsame
    · simp only [owedTo, Lock.weightAt_of_amount_zero hempty, owed_zero]
    · exact absurd (howner ▸ h) hsettled
    · obtain h | ⟨hweight, howner'⟩ := hkept (hfurnace.symm.trans howner) id howner
      · exact absurd h hsettled
      · exact absurd ⟨hweight, howner'.trans howner.symm⟩ hsame
  split_ifs with h h' h'
  · rw [hnew h, hold h']
  · exact hnew h
  · exact (hold h').symm
  · rfl

theorem owedToUser_settled (h : Consecutive ds) (hpaid : r.userEthPerVePaid user = index ds) :
    owedToUser ds (s, r) user = 0 := by
  refine List.sum_eq_zero fun x hx ↦ ?_
  obtain ⟨l, -, rfl⟩ := List.mem_map.mp hx
  rw [hpaid]
  exact h.owed_settled _

/-- One more distribution is owed to the locks of the user by their weights. -/
theorem owedToUser_cons {d : Distribution} (hpaid : r.userEthPerVePaid user ≤ d.start) :
    owedToUser (d :: ds) (s, r) user =
      d.delta * userWeight s user d.time + owedToUser ds (s, r) user := by
  unfold owedToUser userWeight
  induction getShareholderLockParams s user with
  | nil => rfl
  | cons l ls ih =>
      simp only [List.map_cons, List.sum_cons] at ih ⊢
      rw [ih, owed_cons, if_pos hpaid, Lock.royaltyWeight_eq]
      ring

theorem index_le_of_suffix (h : os <:+ ds) : index os ≤ index ds := by
  obtain ⟨rs, rfl⟩ := h
  rw [index_append]
  exact Nat.le_add_left _ _

namespace Balanced

variable {time t : ℕ}

/-- A checkpoint of the user turns what is owed into credit and remainder. -/
theorem crystallise (h : Balanced user ⟨time, (s, r)⟩ ms ds os) (htime : time ≤ t)
    (hr : r.crystallise s user = .ok r') (hclamp : r'.ghost.clampedAccrual = 0) :
    Balanced user ⟨t, (s, r')⟩ (⟨time, (s, r)⟩ :: ms) ds ds := by
  obtain ⟨whole, remainder, minEnd, hpending, hcredited, hremainder⟩ :=
    (crystallise_credited r s user).of_ok hr
  have htold : Told time (r.markPaid user) ds := h.told.congr ⟨rfl, rfl, rfl, rfl, rfl, rfl⟩
  have hmarked := h.told.markedAt user
  rw [h.marked.paid, h.marked.paidTimeWeighted, h.marked.lastRewardTs] at hpending
  obtain ⟨haccrued, hsmall⟩ :=
    (htold.computePendingAccrual_eq h.past s user h.remainder).of_ok hpending
  have hpaid : r'.userEthPerVePaid user = index ds :=
    (congrFun hcredited.paid user).trans hmarked.paid
  have hstored : r'.claimableEthStored user = r.claimableEthStored user + whole := by
    have hclamped : r'.ghost.clampedAccrual = _ := hcredited.clamped
    have hfits : min whole (r.markPaid user).indexedEthOwed = whole := min_eq_left (by omega)
    rw [hcredited.stored, update_self, hfits]
    rfl
  have howed : owedToUser ds (s, r) user =
      ((getShareholderLockParams s user).map fun l ↦ owed ds (index os) l.weightAt).sum := by
    unfold owedToUser
    rw [h.marked.paid]
  refine ⟨(htold.congr hcredited.index).mono htime, List.suffix_rfl, ⟨hpaid, ?_, ?_⟩, ?_, ?_⟩
  · exact (congrFun hcredited.paidTimeWeighted user).trans hmarked.paidTimeWeighted
  · exact (congrFun hcredited.lastRewardTs user).trans hmarked.lastRewardTs
  · exact (congrFun hremainder user).trans_lt (by rwa [update_self])
  · have hbalance : _ + r.userRewardRemainder user + owedToUser ds (s, r) user = _ := h.balance
    rw [howed] at hbalance
    change whole * _ + remainder = _ + r.userRewardRemainder user at haccrued
    rw [credited_cons, entitled_cons_of_same hcredited.index.ethPerVe,
      owedToUser_settled h.told.indexed.consecutive hpaid, hremainder, update_self, hstored,
      Nat.add_sub_cancel_left, Nat.mul_add, Nat.mul_comm _ whole]
    omega

/-- A flush allots to the user what it makes the history owe. -/
theorem flush (h : Balanced user ⟨time, (s, r)⟩ ms ds os) (htime : time ≤ t)
    {totalWeight delta : ℕ} (hdelta : 0 < delta)
    (hr : r.advanceIndex t totalWeight delta = .ok r') (hring : r'.overflowRingHead = 0) :
    Balanced user ⟨t, (s, r')⟩ (⟨time, (s, r)⟩ :: ms) (r.distribution t delta :: ds) os := by
  have hadvanced := (advanceIndex_advanced r t totalWeight delta).of_ok hr
  have hpaid : r'.userEthPerVePaid user = r.userEthPerVePaid user := congrFun hadvanced.paid user
  have hmarked : MarkedAt r' user os :=
    ⟨hpaid.trans h.marked.paid,
      (congrFun hadvanced.paidTimeWeighted user).trans h.marked.paidTimeWeighted,
      (congrFun hadvanced.lastRewardTs user).trans h.marked.lastRewardTs⟩
  refine ⟨(h.told.mono htime).advance hdelta hr hring, h.past.trans (List.suffix_cons _ _), hmarked,
    (congrFun hadvanced.remainder user).trans_lt h.remainder, ?_⟩
  have hstart : r'.userEthPerVePaid user ≤ (r.distribution t delta).start := by
    change _ ≤ r.ethPerVe
    rw [hmarked.paid, h.told.indexed.index]
    exact index_le_of_suffix h.past
  have hbalance : _ + r.userRewardRemainder user + owedToUser ds (s, r) user = _ := h.balance
  rw [credited_cons, entitled_cons_of_flush hdelta hadvanced.ethPerVe, owedToUser_cons hstart,
    owedToUser_congr hpaid, hadvanced.remainder, hadvanced.stored, Nat.sub_self, Nat.zero_add]
  change _ + _ + (delta * userWeight s user t + _) = delta * userWeight s user t + _
  rw [← hbalance]
  omega

/-- Every effect keeps the balance. -/
theorem effect {y : VeState × RoyaltiesState} (h : Balanced user m ms ds os)
    (hsolvent : Solvent m.time m.holdings) (htime : m.time ≤ t) (heffect : Effect t m.holdings y)
    (hregular : Regular user (⟨t, y⟩ :: m :: ms)) :
    ∃ ds' os', Balanced user ⟨t, y⟩ (m :: ms) ds' os' := by
  obtain ⟨time, s, r⟩ := m
  have hrefl : SameAccount user r r := (SameLedger.refl r).sameAccount user
  cases heffect with
  | lock hchange =>
      refine ⟨ds, os, h.keep htime hrefl ?_⟩
      refine owedToUser_lock hsolvent h.told.indexed hchange ?_
      exact hregular.furnace _ List.mem_cons_self
  | keep hsame =>
      have hsame := hsame.sameAccount user
      exact ⟨ds, os, h.keep htime hsame (owedToUser_congr hsame.paid)⟩
  | @crystallise _ _ r' u hu hr =>
      by_cases huser : u = user
      · subst huser
        exact ⟨ds, ds, h.crystallise htime hr (hregular.unclamped _ List.mem_cons_self)⟩
      · obtain ⟨whole, remainder, minEnd, -, hcredited, hremainder⟩ :=
          (crystallise_credited r s u).of_ok hr
        have hsame : SameAccount user r r' := by
          have hindex := hcredited.index
          refine ⟨⟨hindex.1, hindex.2, hindex.3, hindex.4, hindex.5, hindex.6⟩, ?_, ?_, ?_, ?_, ?_⟩
          · rw [hcredited.paid]
            exact update_of_ne (Ne.symm huser) _ _
          · rw [hcredited.paidTimeWeighted]
            exact update_of_ne (Ne.symm huser) _ _
          · rw [hcredited.lastRewardTs]
            exact update_of_ne (Ne.symm huser) _ _
          · rw [hremainder, update_of_ne (Ne.symm huser)]
          · rw [hcredited.stored, update_of_ne (Ne.symm huser)]
            exact le_rfl
        exact ⟨ds, os, h.keep htime hsame (owedToUser_congr hsame.paid)⟩
  | receive reignId value hr =>
      have hsame := (receivePending_account hr user).1
      exact ⟨ds, os, h.keep htime hsame (owedToUser_congr hsame.paid)⟩
  | index bypass hs hr =>
      obtain rfl | ⟨-, delta, hdelta, hadvance⟩ := (indexPending_cases r s t bypass).of_ok hr
      · exact ⟨ds, os, h.keep htime hrefl rfl⟩
      · exact ⟨_, os, h.flush htime hdelta hadvance (hregular.unevicted _ List.mem_cons_self)⟩
  | forceEth amount =>
      exact ⟨ds, os, h.keep htime ⟨⟨rfl, rfl, rfl, rfl, rfl, rfl⟩, rfl, rfl, rfl, rfl, le_rfl⟩ rfl⟩
  | payOut u amount hstored hbalance =>
      have hle : (r.payOut u amount).claimableEthStored user ≤ r.claimableEthStored user := by
        unfold RoyaltiesState.payOut
        dsimp only
        by_cases huser : user = u
        · rw [huser, update_self]
          exact Nat.zero_le _
        · rw [update_of_ne huser]
      exact ⟨ds, os, h.keep htime ⟨⟨rfl, rfl, rfl, rfl, rfl, rfl⟩, rfl, rfl, rfl, rfl, hle⟩ rfl⟩
  | sweep dust hdust =>
      exact ⟨ds, os, h.keep htime ⟨⟨rfl, rfl, rfl, rfl, rfl, rfl⟩, rfl, rfl, rfl, rfl, le_rfl⟩ rfl⟩

end Balanced

theorem initial_balanced {c : Config} (hc : system.init c) (user : Address) :
    Balanced user ⟨c.now, c.world.holdings⟩ [] [] [] := by
  obtain ⟨deployment, -, ⟨self, claimToken, owner, hve⟩, self', owner', balance, hroyalties⟩ := hc
  have hheld : c.world.holdings = (VeClaimNFT.initial self claimToken owner deployment.timestamp,
      initial self' owner' balance) := Prod.ext hve hroyalties
  rw [hheld]
  refine ⟨⟨⟨trivial, rfl, rfl, rfl, by simp, fun c hc ↦ by cases hc⟩, List.Pairwise.nil,
    ⟨.nil, fun h ↦ absurd rfl h, rfl⟩⟩, List.suffix_rfl, ⟨rfl, rfl, rfl⟩, SHAREHOLDER_ACC_pos, rfl⟩

/-- In a regular run the accounts of each user stay balanced. -/
theorem Run.balanced {c : Config} (h : Run c ms) (hregular : Regular user ms) :
    ∃ m rest ds os, ms = m :: rest ∧ m.holdings = c.world.holdings ∧
      Balanced user m rest ds os := by
  have hrun := h.induction (I := fun m rest ↦ Solvent m.time m.holdings ∧
    (Regular user (m :: rest) → ∃ ds os, Balanced user m rest ds os)) ?_ ?_
  · obtain ⟨m, rest, rfl, hholdings, -, -, hbalanced⟩ := hrun
    obtain ⟨ds, os, hbalanced⟩ := hbalanced hregular
    exact ⟨m, rest, ds, os, rfl, hholdings, hbalanced⟩
  · intro c hc
    exact ⟨reachable_solvent (.init hc), fun _ ↦ ⟨[], [], initial_balanced hc user⟩⟩
  · rintro m ms t y ⟨hsolvent, hbalanced⟩ htime heffect
    have hlater : Solvent t m.holdings := by
      obtain ⟨ds, hindexed, hrest⟩ := hsolvent.history
      exact { hsolvent with history := ⟨ds, hindexed.mono htime, hrest⟩ }
    refine ⟨hlater.effect heffect, fun hregular ↦ ?_⟩
    obtain ⟨ds, os, hbalanced⟩ := hbalanced hregular.tail
    exact hbalanced.effect hsolvent htime heffect hregular

/-- What a run has credited to a settled user and the remainder make up exactly
what the flushes have allotted to the locks of the user, so two runs that allot
the same credit the same. -/
theorem accrual_timing {c : Config} (h : Run c ms) (hregular : Regular user ms)
    (hsettled : c.world.royalties.IsSettled user) :
    SHAREHOLDER_ACC * credited user ms + c.world.royalties.userRewardRemainder user =
        entitled user ms ∧
      ∀ {c' : Config} {ms' : List Moment}, Run c' ms' → Regular user ms' →
        c'.world.royalties.IsSettled user → flushes user ms' = flushes user ms →
        credited user ms' = credited user ms := by
  have hexact {c : Config} {ms : List Moment} (h : Run c ms) (hregular : Regular user ms)
      (hsettled : c.world.royalties.IsSettled user) :
      SHAREHOLDER_ACC * credited user ms + c.world.royalties.userRewardRemainder user =
        entitled user ms ∧ c.world.royalties.userRewardRemainder user < SHAREHOLDER_ACC := by
    obtain ⟨m, rest, ds, os, rfl, hholdings, hbalanced⟩ := h.balanced hregular
    have hroyalties : m.royalties = c.world.royalties := congrArg Prod.snd hholdings
    have hbalance := hbalanced.balance
    have hpaid : m.royalties.userEthPerVePaid user = index ds := by
      rw [hroyalties, ← hbalanced.told.indexed.index, hroyalties]
      exact hsettled
    rw [owedToUser_settled (s := m.ve) (r := m.royalties) hbalanced.told.indexed.consecutive hpaid]
      at hbalance
    rw [← hroyalties]
    exact ⟨hbalance, hbalanced.remainder⟩
  obtain ⟨heq, hlt⟩ := hexact h hregular hsettled
  refine ⟨heq, fun h' hregular' hsettled' hsame ↦ ?_⟩
  obtain ⟨heq', hlt'⟩ := hexact h' hregular' hsettled'
  have hentitled := congrArg (fun fs ↦ (fs.map fun f : ℕ × ℕ ↦ f.1 * f.2).sum) hsame
  change entitled user _ = entitled user ms at hentitled
  rw [← heq, ← heq'] at hentitled
  have hdiv := congrArg (· / SHAREHOLDER_ACC) hentitled
  simpa [Nat.mul_add_div SHAREHOLDER_ACC_pos, Nat.div_eq_of_lt hlt, Nat.div_eq_of_lt hlt']
    using hdiv

/-! ## A lock that the Furnace holds

The Furnace burns its locks after a checkpoint that may fail.  The allotment of a
lock burned after a failed checkpoint is lost.
-/

theorem Run.reachable {c : Config} (h : Run c ms) : system.Reachable c := by
  induction h with
  | deploy h => exact .init h
  | op _ call op hnow hexec _ ih => exact ih.step (.op call op hnow hexec)

theorem Run.sound {c : Config} (h : Run c ms) : Sound c.world c.now :=
  (reachable_induction (I := fun _ _ ↦ True) (fun _ _ _ _ _ ↦ trivial)
    (fun _ _ _ _ _ ↦ trivial) (fun _ _ _ _ _ ↦ trivial) h.reachable).1

theorem Trace.append {t : ℕ} {x y z : VeState × RoyaltiesState} {ms ms' : List Moment}
    (h : Trace t x ms y) (h' : Trace t y ms' z) : Trace t x (ms' ++ ms) z := by
  induction h' with
  | refl => exact h
  | tail _ heffect ih => exact ih.tail heffect

/-- A trace all of whose moments satisfy `Q`. -/
def Quiet (Q : RoyaltiesState → Prop) (t : ℕ) (x y : VeState × RoyaltiesState) : Prop :=
  ∃ ms, Trace t x ms y ∧ (∀ m ∈ ms, Q m.royalties) ∧ Q y.2

theorem Quiet.keep {Q : RoyaltiesState → Prop} {t : ℕ} (h : SameLedger r r') (hr' : Q r') :
    Quiet Q t (s, r) (s, r') :=
  ⟨_, .tail .refl (.keep h), by simpa using hr', hr'⟩

/-- Lock operations are quiet where checkpoints and pins are. -/
theorem quietRules {Q : RoyaltiesState → Prop} (call : Call)
    (hpin : ∀ s r user, Q r → Q (r.updateUserObservedMin s user))
    (hcheckpoint : ∀ s r user r', Q r → user ≠ 0 → checkpointUser call s r user = .ok r' →
      SameLedger r r' ∧ Q r') :
    HoldingRules (royaltiesPort call) IsSettled fun x y ↦ Q x.2 → Quiet Q call.timestamp x y where
  refl _ hx := ⟨[], .refl, by simp, hx⟩
  trans hxy hyz hx := by
    obtain ⟨ms, htrace, hms, hy⟩ := hxy hx
    obtain ⟨ms', htrace', hms', hz⟩ := hyz hy
    refine ⟨ms' ++ ms, htrace.append htrace', fun m hm ↦ ?_, hz⟩
    exact (List.mem_append.mp hm).elim (hms' m) (hms m)
  lock h hx := ⟨_, .tail .refl (.lock h), by simpa using hx, hx⟩
  checkpointUser := by
    intro sr t s user r r' huser hr'
    obtain ⟨-, hsettled, hkeep⟩ := (holdingRules call).checkpointUser huser hr'
    refine ⟨fun hx ↦ ?_, hsettled, hkeep⟩
    have hok : checkpointUser call s r user = .ok r' := by
      cases hrun : checkpointUser call s r user with
      | ok a => simpa [royaltiesPort, hrun, Except.toOption] using hr'
      | error e => simp [royaltiesPort, hrun, Except.toOption] at hr'
    obtain ⟨hsame, hQ⟩ := hcheckpoint s r user r' hx huser hok
    exact .keep hsame hQ
  pinUserObservedMin := by
    intro sr t s user r r' hr' hx
    obtain rfl := Option.some.inj hr'
    unfold pinUserObservedMin
    split_ifs
    · exact ⟨[], .refl, by simp, hx⟩
    · exact .keep (sameLedger_pin r s user) (hpin s r user hx)

/-- Before the first flush a checkpoint only pins. -/
theorem checkpointUser_unindexed {call : Call} {r₀ : RoyaltiesState} (hr : SameLedger r₀ r)
    (hsettled : r₀.IsSettled user) (hok : checkpointUser call s r user = .ok r') :
    SameLedger r r' := by
  have hpaid : r.ethPerVe = r.userEthPerVePaid user := by
    rw [hr.ethPerVe, hr.paid]
    exact hsettled.symm
  unfold checkpointUser at hok
  split_ifs at hok with huser
  · obtain rfl := Except.ok.inj hok
    exact .refl r
  · obtain ⟨-, -, hok⟩ := bind_eq_ok_iff.mp hok
    obtain rfl := Except.ok.inj hok
    unfold RoyaltiesState.pinFirstObservation
    dsimp only
    split_ifs
    · exact sameLedger_pin r s user
    · exact .refl r

/-- Wiring and lock operations, with which a bundle is set up. -/
def IsSetup : Op → Prop
  | .unguarded (.lock _) => True
  | .unguarded (.setWiring _ _ _ _) => True
  | _ => False

theorem setup_quiet {call : Call} {w w' : Worlds} {op : Op} {r₀ : RoyaltiesState}
    (hsettled : ∀ u, r₀.IsSettled u) (hpending : r₀.pendingShareholderETH = 0)
    (hop : IsSetup op) (hw : Sound w call.timestamp) (hquiet : SameLedger r₀ w.royalties)
    (hexec : exec call w op = .ok w') :
    Quiet (SameLedger r₀) call.timestamp w.holdings w'.holdings := by
  cases op with
  | unguarded op =>
      cases op with
      | lock op =>
          have hrules := quietRules (Q := SameLedger r₀) call
            (fun s r user hr ↦ hr.trans (sameLedger_pin r s user))
            fun s r user r' hr _ hok ↦
              have hsame := checkpointUser_unindexed hr (hsettled user) hok
              ⟨hsame, hr.trans hsame⟩
          exact (exec_rule hrules call hw op).of_ok hexec hquiet
      | setWiring mineCore mineMarket furnace gasLoops =>
          have hnone : flushBeforeRewiring call w gasLoops = .ok w := by
            have hzero : w.royalties.pendingShareholderETH = 0 := hquiet.pending.trans hpending
            unfold flushBeforeRewiring flushPending
            simp [hzero]
          have hspec : Returns (fun w' ↦ Quiet (SameLedger r₀) call.timestamp w.holdings
              w'.holdings) (setWiring call w mineCore mineMarket furnace gasLoops) := by
            unfold setWiring
            refine Returns.seq fun _ _ ↦ Returns.guard fun _ ↦ Returns.guard fun _ ↦ ?_
            refine Returns.guard fun _ ↦ Returns.guard fun _ ↦ Returns.seq fun w₁ hw₁ ↦ ?_
            obtain rfl := Except.ok.inj (hnone.symm.trans hw₁)
            refine Returns.guard fun _ ↦ Returns.guard fun _ ↦ ?_
            have hkeep {r : RoyaltiesState} (hsame : SameLedger w.royalties r) :
                Quiet (SameLedger r₀) call.timestamp (w.ve, w.royalties) (w.ve, r) :=
              .keep hsame (hquiet.trans hsame)
            exact hkeep ((sameLedger_config w.royalties).emit trivial)
          exact hspec.of_ok hexec
      | _ => exact absurd hop id
  | _ => exact absurd hop id

/-- A bundle that is being set up stays quiet. -/
theorem Run.setup {r₀ : RoyaltiesState} (hsettled : ∀ u, r₀.IsSettled u)
    (hpending : r₀.pendingShareholderETH = 0) {calls : List (Call × Op)} {w w' : Worlds}
    (h : Run ⟨now, w⟩ ms) (hquiet : ∀ m ∈ ms, SameLedger r₀ m.royalties)
    (hw : SameLedger r₀ w.royalties) (hcalls : ∀ c ∈ calls, IsSetup c.2)
    (hsorted : (now :: calls.map fun c ↦ c.1.timestamp).IsChain (· ≤ ·))
    (hrun : run calls w = .ok w') :
    ∃ ms', Run ⟨(calls.map fun c ↦ c.1.timestamp).getLastD now, w'⟩ ms' ∧
      (∀ m ∈ ms', SameLedger r₀ m.royalties) ∧ SameLedger r₀ w'.royalties := by
  induction calls generalizing now w ms with
  | nil =>
      obtain rfl := Except.ok.inj hrun
      exact ⟨ms, h, hquiet, hw⟩
  | cons c calls ih =>
      obtain ⟨call, op⟩ := c
      obtain ⟨w₁, hexec, hrest⟩ := bind_eq_ok_iff.mp hrun
      obtain ⟨hle, hsorted⟩ := List.isChain_cons_cons.mp hsorted
      have hsound : Sound w call.timestamp := ⟨h.sound.accounted, h.sound.le_now.trans hle⟩
      obtain ⟨ms', htrace, hms', hw₁⟩ := setup_quiet hsettled hpending
        (hcalls _ List.mem_cons_self) hsound hw hexec
      rw [List.map_cons, List.getLastD_cons]
      refine ih (h.op call op hle hexec htrace) (fun m hm ↦ ?_) hw₁
        (fun c hc ↦ hcalls c (List.mem_cons_of_mem _ hc)) hsorted hrest
      exact (List.mem_append.mp hm).elim (hms' m) (hquiet m)

/-- Moments of one ledger credit and allot nothing. -/
theorem quiet_moves {r₀ : RoyaltiesState} (h : ∀ m ∈ ms, SameLedger r₀ m.royalties) :
    credited user ms = 0 ∧ flushes user ms = [] := by
  have hpair (p : Moment × Moment) (hp : p ∈ moves ms) :
      SameLedger r₀ p.1.royalties ∧ SameLedger r₀ p.2.royalties :=
    ⟨h _ (List.of_mem_zip hp).1, h _ (List.mem_of_mem_tail (List.of_mem_zip hp).2)⟩
  constructor
  · refine List.sum_eq_zero fun x hx ↦ ?_
    obtain ⟨p, hp, rfl⟩ := List.mem_map.mp hx
    rw [(hpair p hp).1.stored, (hpair p hp).2.stored, Nat.sub_self]
  · unfold flushes
    rw [List.filter_eq_nil_iff.mpr fun p hp ↦ ?_, List.map_nil]
    rw [(hpair p hp).1.ethPerVe, (hpair p hp).2.ethPerVe]
    simp

/-- A takeover that indexes is three effects: the receipt, the checkpoint of the
lock contract and the flush. -/
theorem onTakeover_trace {call : Call} {w w' : Worlds} {reignId value gasLoops : ℕ}
    (hw : Sound w call.timestamp) (hvalue : value ≠ 0)
    (hexec : onTakeover call w reignId value gasLoops = .ok w') :
    ∃ r₁, receivePending reignId value w.royalties = .ok r₁ ∧ SameTable w.ve w'.ve ∧
      Trace call.timestamp w.holdings [⟨call.timestamp, w'.holdings⟩,
        ⟨call.timestamp, (w'.ve, r₁)⟩, ⟨call.timestamp, (w.ve, r₁)⟩] w'.holdings := by
  unfold onTakeover at hexec
  obtain ⟨-, -, hexec⟩ := bind_eq_ok_iff.mp hexec
  rw [if_neg hvalue] at hexec
  obtain ⟨-, -, hexec⟩ := bind_eq_ok_iff.mp hexec
  obtain ⟨r₁, hr₁, hexec⟩ := bind_eq_ok_iff.mp hexec
  have hpending : r₁.pendingShareholderETH ≠ 0 := by
    obtain ⟨pending, hpending, hr₁⟩ := bind_eq_ok_iff.mp hr₁
    obtain rfl := Except.ok.inj hr₁
    obtain ⟨-, rfl⟩ := uint256_eq_ok.mp hpending
    simp only [RoyaltiesState.emit]
    omega
  unfold flushPending at hexec
  rw [if_neg hpending] at hexec
  obtain ⟨ve, hve, hexec⟩ := bind_eq_ok_iff.mp hexec
  obtain ⟨r, hr, hexec⟩ := bind_eq_ok_iff.mp hexec
  obtain rfl := Except.ok.inj hexec
  obtain ⟨htable, hacc, -⟩ := (checkpointLoops_spec hw.accounted hw.le_now _).of_ok hve
  refine ⟨r₁, hr₁, htable, ?_⟩
  exact .tail (.tail (.tail .refl (.receive reignId value hr₁)) (.lock htable.change))
    (.index true hacc hr)

theorem exec_transact {call : Call} {w : Worlds} {op : Op}
    (h : (exec call w op).toOption.isSome = true) : exec call w op = .ok (transact call w op) := by
  unfold transact
  cases hexec : exec call w op with
  | ok w' => rfl
  | error e => simp [hexec, Except.toOption] at h

/-- The Furnace locks for itself. -/
def furnaceLocked : List (Call × Op) :=
  (lockedBundle 0 0 false).dropLast ++
    [(wiredCall 100 3, .unguarded (.lock (.createLockFor 3 (1500 * 10 ^ 18) 31536000 true)))]

/-- A call after the move to the MineCore at 8, of which only the royalties
contract has not been told. -/
def migratedCall (delay sender : ℕ) : Call :=
  { wiredCall delay sender with
    codeLength := fun a ↦ if a ≤ 8 then 1 else 0
    staticcallAddress := fun target selector ↦
      match target, selector with
      | 2, .mineCore => 8 | 3, .mineCore => 8
      | 8, .ve => 1 | 8, .claim => 2 | 8, .furnace => 3 | 8, .royalties => 5
      | _, _ => (wiredCall delay sender).staticcallAddress target selector }

def lockedWorld : Worlds := (run furnaceLocked deployed).toOption.getD deployed

/-- A takeover is indexed to the lock of the Furnace. -/
def indexedWorld : Worlds := transact (wiredCall 200 4) lockedWorld (.onTakeover 1 (10 ^ 18) 10)

/-- The Furnace burns the lock; the checkpoint fails. -/
def burnedWorld : Worlds :=
  transact (migratedCall 300 3) indexedWorld (.unguarded (.lock (.furnaceBurnAndWithdraw 1 3)))

/-- Index and accounts of the Furnace, with its weight at `ts`. -/
def furnaceAccounts (w : Worlds) (ts : ℕ) : ℕ × ℕ × ℕ × ℕ × ℕ × ℕ × ℕ :=
  (w.royalties.ethPerVe, w.royalties.userEthPerVePaid 3, w.royalties.claimableEthStored 3,
    w.royalties.userRewardRemainder 3, w.royalties.ghost.clampedAccrual,
    w.royalties.overflowRingHead, userWeight w.ve 3 ts)

theorem lockedWorld_run : ∃ ms, Run ⟨101, lockedWorld⟩ ms ∧
    (∀ m ∈ ms, SameLedger deployed.royalties m.royalties) ∧
    SameLedger deployed.royalties lockedWorld.royalties := by
  have hdeployed : Run ⟨1, deployed⟩ [⟨1, deployed.holdings⟩] :=
    .deploy ⟨wiredCall 0 9, rfl, ⟨1, 2, 9, rfl⟩, 5, 9, 0, rfl⟩
  have hsome : (run furnaceLocked deployed).toOption.isSome = true := by
    decide +kernel
  have hrun : run furnaceLocked deployed = .ok lockedWorld := by
    unfold lockedWorld
    cases hrun : run furnaceLocked deployed with
    | ok w => rfl
    | error e => simp [hrun, Except.toOption] at hsome
  have hsettled (u : Address) : deployed.royalties.IsSettled u := rfl
  refine hdeployed.setup hsettled rfl ?_ (.refl _) ?_ ?_ hrun
  · rintro m hm
    obtain rfl := List.mem_singleton.mp hm
    exact .refl _
  · simp [furnaceLocked, lockedBundle, IsSetup]
  · decide

/-- A takeover in a bundle that has just been set up allots to the Furnace by its
weight. -/
theorem Run.firstFlush {r₀ : RoyaltiesState} {w w' : Worlds} {call : Call}
    {reignId value gasLoops delta weight : ℕ} (h : Run ⟨now, w⟩ ms)
    (hquiet : ∀ m ∈ ms, SameLedger r₀ m.royalties) (hw : SameLedger r₀ w.royalties)
    (hsettled : r₀.IsSettled 3) (hzero : r₀.ethPerVe = 0) (hnone : r₀.claimableEthStored 3 = 0)
    (hclamp : r₀.ghost.clampedAccrual = 0) (hring : r₀.overflowRingHead = 0)
    (hle : now ≤ call.timestamp) (hvalue : value ≠ 0) (hdelta : 0 < delta)
    (hexec : exec call w (.onTakeover reignId value gasLoops) = .ok w')
    (haccounts : furnaceAccounts w' call.timestamp = (delta, 0, 0, 0, 0, 0, weight)) :
    ∃ m ms', Run ⟨call.timestamp, w'⟩ (m :: ms') ∧ m.holdings = w'.holdings ∧
      credited 3 (m :: ms') = 0 ∧ entitled 3 (m :: ms') = delta * weight ∧
      (∀ m' ∈ m :: ms', m'.royalties.ghost.clampedAccrual = 0 ∧ m'.royalties.overflowRingHead = 0) ∧
      ∀ p ∈ moves (m :: ms'), p.2.royalties.IsSettled 3 := by
  have hsound : Sound w call.timestamp := ⟨h.sound.accounted, h.sound.le_now.trans hle⟩
  obtain ⟨r₁, hr₁, htable, htrace⟩ := onTakeover_trace hsound hvalue hexec
  obtain ⟨m, rest, rfl, hm, -, -⟩ := h.induction (I := fun _ _ ↦ True) (fun _ _ ↦ trivial)
    fun _ _ _ _ _ _ _ ↦ trivial
  obtain ⟨hsame, hghost⟩ := receivePending_account hr₁ 3
  have haccount : SameAccount 3 r₀ r₁ := (hw.sameAccount 3).trans hsame
  replace hghost : r₁.ghost.clampedAccrual = 0 := by rw [hghost, hw.ghost, hclamp]
  simp only [furnaceAccounts, Prod.mk.injEq] at haccounts
  obtain ⟨hindex, hpaid, hstored, -, hclamp', hring', hweight⟩ := haccounts
  have hzero₁ : r₁.ethPerVe = 0 := haccount.index.ethPerVe.trans hzero
  have hnone₁ : r₁.claimableEthStored 3 = 0 := Nat.le_zero.mp (hnone ▸ haccount.stored)
  have hring₁ : r₁.overflowRingHead = 0 := haccount.index.overflowRingHead.trans hring
  have hkept (r : RoyaltiesState) (hr : SameLedger r₀ r) : r.IsSettled 3 := by
    unfold IsSettled
    rw [hr.paid, hr.ethPerVe]
    exact hsettled
  have hm' : SameLedger r₀ m.royalties := hquiet m List.mem_cons_self
  obtain ⟨hcredited, hflushes⟩ : credited 3 (m :: rest) = 0 ∧ flushes 3 (m :: rest) = [] :=
    quiet_moves hquiet
  refine ⟨_, _, h.op _ _ hle hexec htrace, rfl, ?_, ?_, ?_, ?_⟩
  · change credited 3 (_ :: _ :: _ :: m :: rest) = 0
    rw [credited_cons, credited_cons, credited_cons, hcredited]
    change w'.royalties.claimableEthStored 3 - _ + (_ - _ + (r₁.claimableEthStored 3 - _ + 0)) = 0
    rw [hstored, hnone₁]
    simp
  · have hmzero : m.royalties.ethPerVe = 0 := hm'.ethPerVe.trans hzero
    change entitled 3 (_ :: _ :: _ :: m :: rest) = _
    rw [entitled_cons_of_flush hdelta ?_, entitled_cons_of_same ?_,
      entitled_cons_of_same (hzero₁.trans hmzero.symm)]
    · unfold entitled
      rw [hflushes]
      exact congrArg (delta * ·) hweight
    · rfl
    · change w'.royalties.ethPerVe = r₁.ethPerVe + _
      rw [hindex, hzero₁, Nat.zero_add]
  · rintro m' hmem
    change m' ∈ _ :: _ :: _ :: m :: rest at hmem
    rw [List.mem_cons, List.mem_cons, List.mem_cons] at hmem
    rcases hmem with rfl | rfl | rfl | hmem
    · exact ⟨hclamp', hring'⟩
    · exact ⟨hghost, hring₁⟩
    · exact ⟨hghost, hring₁⟩
    · have hsame := hquiet m' hmem
      exact ⟨(congrArg Ghost.clampedAccrual hsame.ghost).trans hclamp,
        hsame.overflowRingHead.trans hring⟩
  · have hsettled₁ : r₁.IsSettled 3 :=
      haccount.paid.trans (hsettled.trans haccount.index.ethPerVe.symm)
    rintro p hp
    change p ∈ moves (_ :: _ :: _ :: m :: rest) at hp
    rw [moves_cons, moves_cons, moves_cons, List.mem_cons, List.mem_cons, List.mem_cons] at hp
    rcases hp with rfl | rfl | rfl | hp
    · exact hsettled₁
    · exact hsettled₁
    · exact hkept _ hm'
    · exact hkept _ (hquiet _ (List.mem_of_mem_tail (List.of_mem_zip hp).2))

/-- The allotment of the first flush in the bundle where the Furnace holds a lock. -/
theorem indexedWorld_run : ∃ m ms, Run ⟨201, indexedWorld⟩ (m :: ms) ∧
    m.holdings = indexedWorld.holdings ∧ credited 3 (m :: ms) = 0 ∧
    entitled 3 (m :: ms) = 666666666666666 * (1500 * 10 ^ 36) ∧
    (∀ m' ∈ m :: ms, m'.royalties.ghost.clampedAccrual = 0 ∧ m'.royalties.overflowRingHead = 0) ∧
    ∀ p ∈ moves (m :: ms), p.2.royalties.IsSettled 3 := by
  obtain ⟨ms, hrun, hquiet, hlocked⟩ := lockedWorld_run
  have hexec : exec (wiredCall 200 4) lockedWorld (.onTakeover 1 (10 ^ 18) 10) = .ok indexedWorld :=
    exec_transact (by decide +kernel)
  have haccounts : furnaceAccounts indexedWorld (wiredCall 200 4).timestamp =
      (666666666666666, 0, 0, 0, 0, 0, 1500 * 10 ^ 36) := by
    decide +kernel
  exact hrun.firstFlush hquiet hlocked rfl rfl rfl rfl rfl (by decide) (by decide) (by decide)
    hexec haccounts

/-- A checkpoint of a user who is behind the index is one effect. -/
theorem checkpoint_trace {call : Call} {w w' : Worlds} (huser : user ≠ 0)
    (hbehind : ¬ w.royalties.IsSettled user)
    (hexec : exec call w (.unguarded (.checkpointUser user)) = .ok w') :
    w'.ve = w.ve ∧
      Trace call.timestamp w.holdings [⟨call.timestamp, w'.holdings⟩] w'.holdings := by
  obtain ⟨r, hr, hexec⟩ := bind_eq_ok_iff.mp hexec
  obtain rfl := Except.ok.inj hexec
  unfold checkpointUser at hr
  rw [if_neg huser] at hr
  obtain ⟨-, -, hr⟩ := bind_eq_ok_iff.mp hr
  rw [if_neg fun heq ↦ hbehind heq.symm] at hr
  exact ⟨rfl, .tail .refl (.crystallise user huser hr)⟩

/-- A checkpoint in time credits the allotment of the Furnace's lock. -/
theorem accrual_timing_furnace : ∃ c ms, Run c ms ∧ credited 3 ms = 999999999999999000 ∧
    SHAREHOLDER_ACC * credited 3 ms + c.world.royalties.userRewardRemainder 3 =
      entitled 3 ms := by
  obtain ⟨m, ms, hrun, hm, hcredited, -, hregular, hsettled⟩ := indexedWorld_run
  have hroyalties : m.royalties = indexedWorld.royalties := congrArg Prod.snd hm
  have hve : m.ve = indexedWorld.ve := congrArg Prod.fst hm
  have hbehind : ¬ indexedWorld.royalties.IsSettled 3 := by
    unfold IsSettled
    decide +kernel
  have hexec : exec (wiredCall 400 8) indexedWorld (.unguarded (.checkpointUser 3)) =
      .ok (transact (wiredCall 400 8) indexedWorld (.unguarded (.checkpointUser 3))) :=
    exec_transact (by decide +kernel)
  have haccounts : furnaceAccounts
      (transact (wiredCall 400 8) indexedWorld (.unguarded (.checkpointUser 3))) 0 =
      (666666666666666, 666666666666666, 999999999999999000, 0, 0, 0, 1500 * 10 ^ 36) := by
    decide +kernel
  have hbefore : indexedWorld.royalties.claimableEthStored 3 = 0 := by
    decide +kernel
  obtain ⟨hsame, htrace⟩ := checkpoint_trace (by decide) hbehind hexec
  generalize transact (wiredCall 400 8) indexedWorld (.unguarded (.checkpointUser 3)) = w at *
  simp only [furnaceAccounts, Prod.mk.injEq] at haccounts
  obtain ⟨hindex, hpaid, hstored, -, hclamp, hring, -⟩ := haccounts
  have hchecked : Run ⟨401, w⟩ (⟨401, w.holdings⟩ :: m :: ms) :=
    hrun.op _ _ (by decide) hexec htrace
  have hfurnace : Regular 3 (⟨401, w.holdings⟩ :: m :: ms) := by
    refine ⟨?_, ?_, ?_⟩
    · exact List.forall_mem_cons.mpr ⟨hclamp, fun m' hm' ↦ (hregular m' hm').1⟩
    · exact List.forall_mem_cons.mpr ⟨hring, fun m' hm' ↦ (hregular m' hm').2⟩
    · rintro p hp - id howner
      rw [moves_cons] at hp
      rcases List.mem_cons.mp hp with rfl | hp
      · refine Or.inr ?_
        have hkept : w.ve = m.ve := hsame.trans hve.symm
        change (m.ve.locks id).SameWeight (w.ve.locks id) ∧ w.ve.owners id = 3
        rw [hkept]
        exact ⟨⟨rfl, rfl, rfl⟩, howner⟩
      · exact Or.inl (hsettled p hp)
  refine ⟨_, _, hchecked, ?_, (accrual_timing hchecked hfurnace (hpaid.trans hindex.symm)).1⟩
  rw [credited_cons, hcredited, hroyalties, hbefore]
  exact congrArg (· - 0 + 0) hstored

/-- Wired to the Furnace at 3 and the old MineCore, outside a batch. -/
def OldBundle (r : RoyaltiesState) : Prop :=
  r.furnace = 3 ∧ r.mineCore = 4 ∧ r.batchWiringVerified = false

/-- While MineCore has moved on, checkpoints fail in the old bundle. -/
theorem checkpointUser_migrated {delay sender : ℕ} (hold : OldBundle r) (huser : user ≠ 0) :
    checkpointUser (migratedCall delay sender) s r user ≠ .ok r' := by
  obtain ⟨hfurnace, hcore, hbatch⟩ := hold
  have hmoved : (migratedCall delay sender).staticcallAddress 3 .mineCore ≠ 4 :=
    (by decide : 8 ≠ 4)
  have hwired : isReciprocallyWiredFurnace (migratedCall delay sender) s r r.furnace = false := by
    unfold isReciprocallyWiredFurnace
    dsimp only
    split_ifs
    · rfl
    · rfl
    · simp [hfurnace, hcore, hmoved]
  intro hok
  unfold checkpointUser requireWiringOutsideBatch requireCanonicalBaronRuntimeBundle at hok
  rw [if_neg huser, hbatch, hwired] at hok
  cases hok

/-- A lock operation while checkpoints fail leaves the ledger alone. -/
theorem Run.migrated {w w' : Worlds} {delay sender : ℕ} {op : VeClaimNFT.Op}
    (h : Run ⟨now, w⟩ ms) (hle : now ≤ (migratedCall delay sender).timestamp)
    (hold : OldBundle w.royalties)
    (hexec : exec (migratedCall delay sender) w (.unguarded (.lock op)) = .ok w') :
    ∃ ms', Run ⟨(migratedCall delay sender).timestamp, w'⟩ (ms' ++ ms) ∧
      (∀ m ∈ ms', SameLedger w.royalties m.royalties) ∧ SameLedger w.royalties w'.royalties := by
  have hrules := quietRules (Q := fun r ↦ SameLedger w.royalties r ∧ OldBundle r)
    (migratedCall delay sender) ?_ ?_
  · have hsound : Sound w (migratedCall delay sender).timestamp :=
      ⟨h.sound.accounted, h.sound.le_now.trans hle⟩
    obtain ⟨ms', htrace, hquiet, hsame, -⟩ :=
      (exec_rule hrules (migratedCall delay sender) hsound op).of_ok hexec ⟨.refl _, hold⟩
    exact ⟨ms', h.op _ _ hle hexec htrace, fun m hm ↦ (hquiet m hm).1, hsame⟩
  · rintro s r user ⟨hsame, hold⟩
    refine ⟨hsame.trans (sameLedger_pin r s user), ?_⟩
    unfold updateUserObservedMin
    dsimp only
    split_ifs <;> exact hold
  · rintro s r user r' ⟨-, hold⟩ huser hok
    exact absurd hok (checkpointUser_migrated hold huser)

/-- Moments of one ledger after others credit and allot nothing more. -/
theorem quiet_append {r₀ : RoyaltiesState} {ms' : List Moment} (hm : SameLedger r₀ m.royalties)
    (h : ∀ m' ∈ ms', SameLedger r₀ m'.royalties) :
    credited user (ms' ++ m :: ms) = credited user (m :: ms) ∧
      entitled user (ms' ++ m :: ms) = entitled user (m :: ms) ∧
      ∃ m' rest, ms' ++ m :: ms = m' :: rest ∧ SameLedger r₀ m'.royalties := by
  induction ms' with
  | nil => exact ⟨rfl, rfl, m, ms, rfl, hm⟩
  | cons m' ms' ih =>
      obtain ⟨hcredited, hentitled, m'', rest, heq, hm''⟩ :=
        ih fun x hx ↦ h x (List.mem_cons_of_mem m' hx)
      have hm' := h m' List.mem_cons_self
      rw [heq] at hcredited hentitled
      refine ⟨?_, ?_, m', m'' :: rest, by rw [List.cons_append, heq], hm'⟩
      · rw [List.cons_append, heq, credited_cons, hcredited, hm'.stored, hm''.stored, Nat.sub_self,
          Nat.zero_add]
      · rw [List.cons_append, heq, entitled_cons_of_same (hm'.ethPerVe.trans hm''.ethPerVe.symm),
          hentitled]

/-- A lock of the Furnace that is burned after a failed checkpoint takes its
allotment with it. -/
theorem burned_allotment_lost : ¬ ∀ (c : Config) (ms : List Moment) (user : Address), Run c ms →
    (∀ m ∈ ms, m.royalties.ghost.clampedAccrual = 0) →
    (∀ m ∈ ms, m.royalties.overflowRingHead = 0) → c.world.royalties.IsSettled user →
    SHAREHOLDER_ACC * credited user ms + c.world.royalties.userRewardRemainder user =
      entitled user ms := by
  intro hclaim
  obtain ⟨m, ms, hrun, hm, hcredited, hentitled, hregular, -⟩ := indexedWorld_run
  have hburn : exec (migratedCall 300 3) indexedWorld
      (.unguarded (.lock (.furnaceBurnAndWithdraw 1 3))) = .ok burnedWorld :=
    exec_transact (by decide +kernel)
  have hcheckpoint : exec (wiredCall 400 8) burnedWorld (.unguarded (.checkpointUser 3)) =
      .ok (transact (wiredCall 400 8) burnedWorld (.unguarded (.checkpointUser 3))) :=
    exec_transact (by decide +kernel)
  have hbehind : ¬ burnedWorld.royalties.IsSettled 3 := by
    unfold IsSettled
    decide +kernel
  have haccounts : furnaceAccounts
      (transact (wiredCall 400 8) burnedWorld (.unguarded (.checkpointUser 3))) 0 =
      (666666666666666, 666666666666666, 0, 0, 0, 0, 0) := by
    decide +kernel
  have hold : OldBundle indexedWorld.royalties := by
    unfold OldBundle
    decide +kernel
  have hindexed : indexedWorld.royalties.ethPerVe = 666666666666666 := by
    decide +kernel
  obtain ⟨ms', hburned, hquiet, hsame⟩ := hrun.migrated (by decide) hold hburn
  obtain ⟨-, htrace⟩ := checkpoint_trace (by decide) hbehind hcheckpoint
  generalize transact (wiredCall 400 8) burnedWorld (.unguarded (.checkpointUser 3)) = w at *
  generalize burnedWorld = w₁ at *
  generalize indexedWorld = w₀ at *
  have hroyalties : m.royalties = w₀.royalties := congrArg Prod.snd hm
  have hquiet₀ : SameLedger w₀.royalties m.royalties := hroyalties ▸ .refl m.royalties
  obtain ⟨hcredited', hentitled', m', rest, heq, hm'⟩ :=
    (quiet_append hquiet₀ hquiet : credited 3 (ms' ++ m :: ms) = _ ∧ _)
  simp only [furnaceAccounts, Prod.mk.injEq] at haccounts
  obtain ⟨hindex, hpaid, hstored, hremainder, hclamp, hring, -⟩ := haccounts
  have hearlier (x : Moment) (hx : x ∈ ms' ++ m :: ms) :
      x.royalties.ghost.clampedAccrual = 0 ∧ x.royalties.overflowRingHead = 0 := by
    have hstart := hregular m List.mem_cons_self
    rw [hroyalties] at hstart
    rcases List.mem_append.mp hx with hx | hx
    · rw [(hquiet x hx).ghost, (hquiet x hx).overflowRingHead]
      exact hstart
    · exact hregular x hx
  have hlast : Run ⟨401, w⟩ (⟨401, w.holdings⟩ :: (ms' ++ m :: ms)) :=
    hburned.op (wiredCall 400 8) _ (show 301 ≤ 401 by decide) hcheckpoint htrace
  have hlost := hclaim _ _ 3 hlast
    (List.forall_mem_cons.mpr ⟨hclamp, fun x hx ↦ (hearlier x hx).1⟩)
    (List.forall_mem_cons.mpr ⟨hring, fun x hx ↦ (hearlier x hx).2⟩) (hpaid.trans hindex.symm)
  have hnothing : credited 3 (⟨401, w.holdings⟩ :: (ms' ++ m :: ms)) = 0 := by
    rw [heq, credited_cons, ← heq, hcredited', hcredited]
    change w.royalties.claimableEthStored 3 - _ + 0 = 0
    rw [hstored, Nat.zero_sub]
  have hallotted : entitled 3 (⟨401, w.holdings⟩ :: (ms' ++ m :: ms)) =
      666666666666666 * (1500 * 10 ^ 36) := by
    have hsame' := hindex.trans (hm'.ethPerVe.trans hindexed).symm
    rw [heq, entitled_cons_of_same hsame', ← heq, hentitled', hentitled]
  rw [hnothing, hallotted, hremainder] at hlost
  exact absurd hlost (by decide)

end ClaimRush.ShareholderRoyalties
