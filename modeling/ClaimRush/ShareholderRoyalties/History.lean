import ClaimRush.ShareholderRoyalties.Effects
import ClaimRush.Lib.RewardIndex
import Mathlib.Data.List.GetD

/-!
# The history behind the index

The index, the stored reward checkpoints and the paid markers of the users are
all values of one history of distributions, one for each flush.
-/

open Function

namespace ClaimRush.ShareholderRoyalties

open Constants VeClaimNFT RoyaltiesState ClaimRush.Distribution

/-- Stored reward checkpoints of both arrays. -/
def RoyaltiesState.entries (r : RoyaltiesState) : List RewardCheckpoint :=
  r.rewardCheckpoints ++ r.overflowCheckpoints

/-- The checkpoint records the indices at its timestamp. -/
def Records (ds : List Distribution) (c : RewardCheckpoint) : Prop :=
  Snapshot ds c.timestamp c.cumulativeEthPerVe c.cumulativeTimeWeightedEthPerVe

/-- The index is explained by the history `ds`, at time `now`. -/
structure Indexed (now : ℕ) (r : RoyaltiesState) (ds : List Distribution) : Prop where
  consecutive : Consecutive ds
  count : ds.length = r.flushCount
  index : r.ethPerVe = index ds
  timeIndex : r.ethPerVeTimeWeighted = timeIndex ds
  times : ∀ d ∈ ds, d.time ≤ now
  entries : ∀ c ∈ r.entries, Records ds c

/-- The paid markers are past values of the index. -/
def Marked (r : RoyaltiesState) (ds : List Distribution) : Prop :=
  ∀ u, ∃ t, Snapshot ds t (r.userEthPerVePaid u) (r.userTimeWeightedEthPerVePaid u)

variable {now : ℕ} {r r' : RoyaltiesState} {ds : List Distribution}

theorem Indexed.congr (h : Indexed now r ds) (hsame : SameIndex r r') : Indexed now r' ds where
  consecutive := h.consecutive
  count := h.count.trans hsame.flushCount.symm
  index := hsame.ethPerVe.trans h.index
  timeIndex := hsame.timeWeighted.trans h.timeIndex
  times := h.times
  entries c hc := by
    unfold RoyaltiesState.entries at hc
    rw [hsame.rewardCheckpoints, hsame.overflowCheckpoints] at hc
    exact h.entries c hc

theorem Indexed.mono {now' : ℕ} (h : Indexed now r ds) (hle : now ≤ now') : Indexed now' r ds :=
  { h with times := fun d hd ↦ (h.times d hd).trans hle }

theorem Indexed.current (h : Indexed now r ds) :
    Snapshot ds now r.ethPerVe r.ethPerVeTimeWeighted := by
  rw [h.index, h.timeIndex]
  exact .current h.times

theorem Marked.congr (h : Marked r ds) (hpaid : r'.userEthPerVePaid = r.userEthPerVePaid)
    (htime : r'.userTimeWeightedEthPerVePaid = r.userTimeWeightedEthPerVePaid) : Marked r' ds := by
  intro u
  rw [hpaid, htime]
  exact h u

/-- A marker that moves to the current index. -/
theorem Marked.markPaid (h : Marked r ds) (hindexed : Indexed now r ds) (user : Address) :
    Marked (r.markPaid user) ds := by
  intro u
  by_cases hu : u = user
  · subst hu
    exact ⟨now, by simpa [RoyaltiesState.markPaid] using hindexed.current⟩
  · simpa [RoyaltiesState.markPaid, hu] using h u

/-! ## Lookups -/

theorem Records.getD {l : List RewardCheckpoint} (h : ∀ c ∈ l, Records ds c) (i : ℕ) :
    Records ds (l.getD i {}) := by
  rcases lt_or_ge i l.length with hi | hi
  · rw [List.getD_eq_getElem _ _ hi]
    exact h _ (List.getElem_mem hi)
  · rw [List.getD_eq_default _ _ hi]
    exact .zero ds _

theorem Indexed.main (h : Indexed now r ds) : ∀ c ∈ r.rewardCheckpoints, Records ds c :=
  fun c hc ↦ h.entries c (List.mem_append_left _ hc)

theorem Indexed.overflow (h : Indexed now r ds) : ∀ c ∈ r.overflowCheckpoints, Records ds c :=
  fun c hc ↦ h.entries c (List.mem_append_right _ hc)

theorem Indexed.mainPrefixBefore (h : Indexed now r ds) {ts : ℕ} (hts : 0 < ts) :
    Records ds (r.mainPrefixBefore ts) ∧ (r.mainPrefixBefore ts).timestamp < ts := by
  unfold RoyaltiesState.mainPrefixBefore
  dsimp only
  split_ifs with hlen hlast hlo
  · exact ⟨.zero ds _, hts⟩
  · exact ⟨.getD h.main _, hlast⟩
  · exact ⟨.zero ds _, hts⟩
  · have hprobe := (lowerBound_sound (fun mid ↦ decide
      ((r.rewardCheckpoints.getD mid {}).timestamp < ts)) r.rewardCheckpoints.length 0
      r.rewardCheckpoints.length (Nat.zero_le _)).2.2.resolve_left hlo
    exact ⟨.getD h.main _, of_decide_eq_true hprobe⟩

theorem Indexed.overflowPrefixBefore (h : Indexed now r ds) (ts : ℕ) {c : RewardCheckpoint}
    (hc : r.overflowPrefixBefore ts = some c) : Records ds c ∧ c.timestamp < ts := by
  unfold RoyaltiesState.overflowPrefixBefore at hc
  dsimp only at hc
  split_ifs at hc with hlen hlast hlo
  · obtain rfl := Option.some.inj hc
    exact ⟨.getD h.overflow _, hlast⟩
  · obtain rfl := Option.some.inj hc
    have hprobe := (lowerBound_sound (fun mid ↦ decide ((r.overflowCheckpoints.getD
      ((mid + r.overflowRingHead) % r.overflowCheckpoints.length) {}).timestamp < ts))
      r.overflowCheckpoints.length 0 r.overflowCheckpoints.length
      (Nat.zero_le _)).2.2.resolve_left hlo
    exact ⟨.getD h.overflow _, of_decide_eq_true hprobe⟩

/-- The lookup returns indices from before `ts`. -/
theorem Indexed.prefixBefore (h : Indexed now r ds) {ts : ℕ} (hts : 0 < ts) :
    ∃ t, t < ts ∧ Snapshot ds t (r.getRewardPrefixBefore ts).1 (r.getRewardPrefixBefore ts).2 := by
  unfold RoyaltiesState.getRewardPrefixBefore
  cases hoverflow : r.overflowPrefixBefore ts with
  | none => exact ⟨_, (h.mainPrefixBefore hts).2, (h.mainPrefixBefore hts).1⟩
  | some c =>
      exact ⟨_, (h.overflowPrefixBefore ts hoverflow).2,
        (h.overflowPrefixBefore ts hoverflow).1⟩

/-! ## One more distribution -/

/-- The history after a flush at `rewardTs`. -/
def RoyaltiesState.distribution (r : RoyaltiesState) (rewardTs delta : ℕ) : Distribution where
  start := r.ethPerVe
  delta := delta
  time := rewardTs

/-- What a flush that advances the index by `delta` does to the accounting. -/
structure Advanced (rewardTs totalWeight delta : ℕ) (r r' : RoyaltiesState) : Prop where
  ethPerVe : r'.ethPerVe = r.ethPerVe + delta
  timeWeighted : r'.ethPerVeTimeWeighted = r.ethPerVeTimeWeighted + delta * rewardTs
  flushCount : r'.flushCount = r.flushCount + 1
  paid : r'.userEthPerVePaid = r.userEthPerVePaid
  paidTimeWeighted : r'.userTimeWeightedEthPerVePaid = r.userTimeWeightedEthPerVePaid
  lastRewardTs : r'.userLastRewardTs = r.userLastRewardTs
  remainder : r'.userRewardRemainder = r.userRewardRemainder
  stored : r'.claimableEthStored = r.claimableEthStored
  ghost : r'.ghost = r.ghost
  main : ∀ x ∈ r'.rewardCheckpoints, x ∈ r.rewardCheckpoints ∨ x = r'.snapshotAt rewardTs
  overflow : ∀ x ∈ r'.overflowCheckpoints,
    x ∈ r.overflowCheckpoints ∨ x = r'.snapshotAt rewardTs
  indexed : r'.indexedEthOwed = r.indexedEthOwed + delta * totalWeight / SHAREHOLDER_ACC

theorem advanceIndex_advanced (r : RoyaltiesState) (rewardTs totalWeight delta : ℕ) :
    Returns (Advanced rewardTs totalWeight delta r)
      (r.advanceIndex rewardTs totalWeight delta) := by
  unfold RoyaltiesState.advanceIndex
  refine Outcome.uint256_bind trivial fun _ ↦ Outcome.uint256_bind trivial fun _ ↦ ?_
  refine Outcome.uint256_bind trivial fun _ ↦ ?_
  refine Outcome.bind (storeRewardCheckpoint_stored _ _) fun r₁ hr₁ ↦ ?_
  refine Returns.seq fun distributed hdistributed ↦ Outcome.usub_bind trivial fun _ ↦ ?_
  refine Outcome.uint256_bind trivial fun _ ↦ ?_
  obtain ⟨-, -, rfl⟩ := mulDiv_eq_ok.mp hdistributed
  have hsnapshot : r₁.snapshotAt rewardTs = _ :=
    congrArg₂ (RewardCheckpoint.mk rewardTs) hr₁.ethPerVe hr₁.timeWeighted
  refine ⟨hr₁.ethPerVe, hr₁.timeWeighted, ?_, hr₁.paid, hr₁.paidTimeWeighted, hr₁.lastRewardTs,
    hr₁.remainder, hr₁.stored, hr₁.ghost,
    fun x hx ↦ (hr₁.main x hx).imp_right fun h ↦ h.trans hsnapshot.symm,
    fun x hx ↦ (hr₁.overflow x hx).imp_right fun h ↦ h.trans hsnapshot.symm, ?_⟩
  · simpa [flushCount, RoyaltiesState.emit] using hr₁.flushCount
  · exact congrArg (· + _) hr₁.indexed

/-- A flush leaves the storage alone, or advances the index at the block time. -/
theorem indexPending_cases (r : RoyaltiesState) (s : VeState) (nowTs : ℕ) (bypass : Bool) :
    Returns (fun r' ↦ r' = r ∨ s.global.globalLastTs = nowTs ∧ ∃ delta, 0 < delta ∧
        r.advanceIndex nowTs s.global.globalBiasScaled delta = .ok r')
      (r.indexPending s nowTs bypass) := by
  unfold RoyaltiesState.indexPending
  dsimp only
  split_ifs with hstale
  · exact Or.inl rfl
  · exact Or.inl rfl
  · exact Or.inl rfl
  · exact Returns.guard fun _ ↦ Or.inl rfl
  · refine Returns.guard fun _ ↦ Returns.seq fun delta _ ↦ ?_
    generalize (if delta > uint256Bound - 1 - r.ethPerVe then _ else delta) = capped
    split_ifs with hzero
    · exact Or.inl rfl
    · have hnow := not_not.mp hstale
      rw [hnow]
      refine Returns.iff_forall.mpr fun r' hr' ↦ ?_
      exact Or.inr ⟨rfl, capped, Nat.pos_of_ne_zero hzero, hr'⟩

/-- A flush adds one distribution to the history. -/
theorem Indexed.advance {totalWeight delta : ℕ} (h : Indexed now r ds) (hdelta : 0 < delta)
    (hadvanced : Advanced now totalWeight delta r r') :
    Indexed now r' (r.distribution now delta :: ds) := by
  have htimes : ∀ d ∈ r.distribution now delta :: ds, d.time ≤ now :=
    List.forall_mem_cons.mpr ⟨le_rfl, h.times⟩
  have hindex : r'.ethPerVe = Distribution.index (r.distribution now delta :: ds) := by
    rw [hadvanced.ethPerVe, index_cons, ← h.index, Nat.add_comm]
    rfl
  have htimeIndex : r'.ethPerVeTimeWeighted =
      Distribution.timeIndex (r.distribution now delta :: ds) := by
    rw [hadvanced.timeWeighted, timeIndex_cons, ← h.timeIndex, Nat.add_comm]
    rfl
  have hsnapshot : Records (r.distribution now delta :: ds) (r'.snapshotAt now) := by
    unfold Records
    change Snapshot _ now r'.ethPerVe r'.ethPerVeTimeWeighted
    rw [hindex, htimeIndex]
    exact .current htimes
  refine ⟨⟨h.index, hdelta, h.consecutive⟩, ?_, hindex, htimeIndex, htimes, fun c hc ↦ ?_⟩
  · rw [List.length_cons, h.count, hadvanced.flushCount]
  · rcases List.mem_append.mp hc with hc | hc
    · rcases hadvanced.main c hc with hold | rfl
      · exact Snapshot.cons (h.main c hold) _
      · exact hsnapshot
    · rcases hadvanced.overflow c hc with hold | rfl
      · exact Snapshot.cons (h.overflow c hold) _
      · exact hsnapshot

theorem Marked.cons (h : Marked r ds) (d : Distribution) : Marked r (d :: ds) := by
  intro u
  obtain ⟨t, ht⟩ := h u
  exact ⟨t, ht.cons d⟩

end ClaimRush.ShareholderRoyalties
