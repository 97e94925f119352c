import ClaimRush.ShareholderRoyalties.Owed
import ClaimRush.ShareholderRoyalties.Lookup

/-!
# The stored reward checkpoints as a chronicle

As long as nothing has been evicted, the two arrays together list every block in
which the index moved, with the indices after its last distribution.  The
lookup then returns exactly the distributions made before a time.
-/

open Function

namespace ClaimRush.ShareholderRoyalties

open Constants VeClaimNFT RoyaltiesState ClaimRush.Distribution

/-- The entry for the distributions `ds`, in a block at `t`. -/
def entryAt (ds : List Distribution) (t : ℕ) : RewardCheckpoint where
  timestamp := t
  cumulativeEthPerVe := index ds
  cumulativeTimeWeightedEthPerVe := timeIndex ds

/-- Entries of a history, newest first.  A distribution in the block of the
newest entry overwrites it or, when that entry is frozen, follows it. -/
inductive Chronicle : List Distribution → List RewardCheckpoint → Prop
  | nil : Chronicle [] []
  | push {ds : List Distribution} {cs : List RewardCheckpoint} (h : Chronicle ds cs)
      (d : Distribution) : Chronicle (d :: ds) (entryAt (d :: ds) d.time :: cs)
  | overwrite {ds : List Distribution} {c : RewardCheckpoint} {cs : List RewardCheckpoint}
      (h : Chronicle ds (c :: cs)) (d : Distribution) (htime : c.timestamp = d.time) :
      Chronicle (d :: ds) (entryAt (d :: ds) d.time :: cs)

variable {ds : List Distribution} {cs : List RewardCheckpoint}

namespace Chronicle

/-- The newest entry older than `ts` records the distributions before `ts`. -/
theorem find (h : Chronicle ds cs) (ts : ℕ) :
    let c := (cs.find? fun c ↦ c.timestamp < ts).getD {}
    c.cumulativeEthPerVe = index (before ds ts) ∧
      c.cumulativeTimeWeightedEthPerVe = timeIndex (before ds ts) := by
  induction h with
  | nil => exact ⟨rfl, rfl⟩
  | push h d ih =>
      by_cases hlt : d.time < ts
      · rw [before_cons_of_lt hlt, List.find?_cons_of_pos (by simpa [entryAt] using hlt)]
        exact ⟨rfl, rfl⟩
      · rw [before_cons_of_le (not_lt.mp hlt),
          List.find?_cons_of_neg (by simpa [entryAt] using not_lt.mp hlt)]
        exact ih
  | overwrite h d htime ih =>
      by_cases hlt : d.time < ts
      · rw [before_cons_of_lt hlt, List.find?_cons_of_pos (by simpa [entryAt] using hlt)]
        exact ⟨rfl, rfl⟩
      · have hle := not_lt.mp hlt
        rw [List.find?_cons_of_neg (by simpa [htime] using hle)] at ih
        rw [before_cons_of_le hle, List.find?_cons_of_neg (by simpa [entryAt] using hle)]
        exact ih

/-- The newest entry was made by the last distribution. -/
theorem head (h : Chronicle ds cs) :
    (cs.head?.map RewardCheckpoint.timestamp).getD 0 = lastTime ds := by
  cases h <;> rfl

/-- The entries are in the order of their times, none later than the last
distribution. -/
theorem sorted (h : Chronicle ds cs) (htimes : Chronological ds) :
    (cs.Pairwise fun c c' ↦ c'.timestamp ≤ c.timestamp) ∧ ∀ c ∈ cs, c.timestamp ≤ lastTime ds := by
  have hlast {d : Distribution} {ds : List Distribution} (hd : Chronological (d :: ds)) :
      lastTime ds ≤ d.time := by
    cases ds with
    | nil => exact Nat.zero_le _
    | cons e ds => exact (List.pairwise_cons.mp hd).1 e List.mem_cons_self
  induction h with
  | nil => exact ⟨List.Pairwise.nil, by simp⟩
  | push h d ih =>
      obtain ⟨hpairs, hle⟩ := ih (List.pairwise_cons.mp htimes).2
      have hlater (c : RewardCheckpoint) (hc : c ∈ _) : c.timestamp ≤ d.time :=
        (hle c hc).trans (hlast htimes)
      exact ⟨List.pairwise_cons.mpr ⟨hlater, hpairs⟩, List.forall_mem_cons.mpr ⟨le_rfl, hlater⟩⟩
  | overwrite h d htime ih =>
      obtain ⟨hpairs, hle⟩ := ih (List.pairwise_cons.mp htimes).2
      have hlater (c : RewardCheckpoint) (hc : c ∈ _) : c.timestamp ≤ d.time :=
        (hle c (List.mem_cons_of_mem _ hc)).trans (hlast htimes)
      exact ⟨List.pairwise_cons.mpr ⟨hlater, (List.pairwise_cons.mp hpairs).2⟩,
        List.forall_mem_cons.mpr ⟨le_rfl, hlater⟩⟩

end Chronicle

/-- Nothing has been evicted: the arrays hold the chronicle of `ds`, and entries
overflow only when the main array is full. -/
structure Complete (r : RoyaltiesState) (ds : List Distribution) : Prop where
  chronicle : Chronicle ds r.entries.reverse
  full : r.overflowCheckpoints ≠ [] → MAX_REWARD_CHECKPOINTS ≤ r.rewardCheckpoints.length
  head : r.overflowRingHead = 0

variable {r r' : RoyaltiesState}

theorem Complete.congr (h : Complete r ds) (hsame : SameIndex r r') : Complete r' ds := by
  obtain ⟨hchronicle, hfull, hhead⟩ := h
  refine ⟨?_, ?_, hsame.overflowRingHead.trans hhead⟩
  · unfold RoyaltiesState.entries at hchronicle ⊢
    rw [hsame.rewardCheckpoints, hsame.overflowCheckpoints]
    exact hchronicle
  · rw [hsame.rewardCheckpoints, hsame.overflowCheckpoints]
    exact hfull

/-! ## Storing -/

/-- Overwriting the newest entry of a list that ends in one. -/
theorem reverse_append_set (main : List RewardCheckpoint) {l : List RewardCheckpoint}
    (hl : l ≠ []) (x : RewardCheckpoint) :
    ∃ c cs, (main ++ l).reverse = c :: cs ∧ c = l.getD (l.length - 1) {} ∧
      (main ++ l.set (l.length - 1) x).reverse = x :: cs := by
  obtain ⟨init, last, rfl⟩ : ∃ init last, l = init ++ [last] :=
    ⟨l.dropLast, l.getLast hl, (List.dropLast_append_getLast hl).symm⟩
  refine ⟨last, (main ++ init).reverse, by simp, ?_, ?_⟩
  · simp
  · have hlen : (init ++ [last]).length - 1 = init.length := by simp
    rw [hlen, List.set_append_right _ _ le_rfl, Nat.sub_self]
    simp

/-- A store that does not evict continues the chronicle. -/
theorem Complete.store (h : Complete r ds) {d : Distribution} {r₁ : RoyaltiesState}
    (hmain : r₁.rewardCheckpoints = r.rewardCheckpoints)
    (hoverflow : r₁.overflowCheckpoints = r.overflowCheckpoints)
    (hring : r₁.overflowRingHead = r.overflowRingHead)
    (hentry : r₁.snapshotAt d.time = entryAt (d :: ds) d.time)
    (hr : r₁.storeRewardCheckpoint d.time = .ok r') (hhead : r'.overflowRingHead = 0) :
    Complete r' (d :: ds) := by
  obtain ⟨hchronicle, hfull, hzero⟩ := h
  unfold RoyaltiesState.entries at hchronicle
  have hzero₁ : r₁.overflowRingHead = 0 := hring.trans hzero
  rw [← hmain, ← hoverflow] at hchronicle hfull
  have hpush {l : List RewardCheckpoint} (hl : Chronicle ds l) :
      Chronicle (d :: ds) (r₁.snapshotAt d.time :: l) := hentry ▸ hl.push d
  unfold RoyaltiesState.storeRewardCheckpoint at hr
  dsimp only at hr
  split_ifs at hr with hcap hsame
  · unfold RoyaltiesState.storeOverflowCheckpoint at hr
    dsimp only at hr
    split_ifs at hr with hsame hroom hfirst hevict
    · obtain rfl := Except.ok.inj hr
      obtain ⟨hne, htime⟩ := hsame
      obtain ⟨c, cs, hcs, hc, hset⟩ := reverse_append_set
        r₁.rewardCheckpoints hne (r₁.snapshotAt d.time)
      have hlast : r₁.overflowLastWrittenIndex = r₁.overflowCheckpoints.length - 1 :=
        if_pos hzero₁
      refine ⟨?_, fun _ ↦ hcap, hhead⟩
      unfold RoyaltiesState.entries
      dsimp only
      rw [hlast, hset, hentry]
      refine .overwrite (hcs ▸ hchronicle) d ?_
      rw [hc, ← hlast]
      exact htime
    · obtain rfl := Except.ok.inj hr
      refine ⟨?_, fun _ ↦ hcap, hhead⟩
      simpa [RoyaltiesState.entries, RoyaltiesState.emit, snapshotAt] using hpush hchronicle
    · obtain rfl := Except.ok.inj hr
      refine ⟨?_, fun _ ↦ hcap, hhead⟩
      simpa [RoyaltiesState.entries] using hpush hchronicle
    · obtain rfl := Except.ok.inj hr
      have htwo : 1 < MAX_OVERFLOW_CHECKPOINTS := by
        simp [MAX_OVERFLOW_CHECKPOINTS]
      have hone : (r₁.overflowRingHead + 1) % r₁.overflowCheckpoints.length = 0 := hhead
      rw [hzero₁, Nat.mod_eq_of_lt (by omega)] at hone
      omega
  · obtain rfl := Except.ok.inj hr
    have hnone : r₁.overflowCheckpoints = [] := by
      by_contra hne
      have := hfull hne
      omega
    obtain ⟨hne, htime⟩ := hsame
    obtain ⟨c, cs, hcs, hc, hset⟩ := reverse_append_set [] hne (r₁.snapshotAt d.time)
    rw [hnone, List.append_nil] at hchronicle
    refine ⟨?_, fun hne ↦ absurd hnone hne, hhead⟩
    unfold RoyaltiesState.entries
    dsimp only
    rw [hnone, List.append_nil, ← List.nil_append (List.set _ _ _), hset, hentry]
    refine .overwrite (hcs ▸ hchronicle) d ?_
    rw [hc]
    exact htime
  · obtain rfl := Except.ok.inj hr
    have hnone : r₁.overflowCheckpoints = [] := by
      by_contra hne
      have := hfull hne
      omega
    refine ⟨?_, fun hne ↦ absurd hnone hne, hhead⟩
    rw [hnone, List.append_nil] at hchronicle
    simpa [RoyaltiesState.entries, hnone] using hpush hchronicle

/-! ## Lookups -/

theorem RoyaltiesState.overflowLast_eq (hhead : r.overflowRingHead = 0) :
    r.overflowLast = r.overflowCheckpoints.getD (r.overflowCheckpoints.length - 1) {} := by
  rw [RoyaltiesState.overflowLast, RoyaltiesState.overflowLastWrittenIndex, if_pos hhead]

/-- The lookup returns the indices of the distributions made before `ts`. -/
theorem Complete.lookup (h : Complete r ds) (htimes : Chronological ds) (ts : ℕ) :
    r.getRewardPrefixBefore ts = (index (before ds ts), timeIndex (before ds ts)) := by
  have hretained : r.retained = r.entries := by
    rw [retained, ring_of_head_zero h.head, RoyaltiesState.entries]
  have hordered : Ordered r.retained :=
    hretained ▸ List.pairwise_reverse.mp (h.chronicle.sorted htimes).1
  have hinside : r.HeadInside := fun hne ↦ h.head ▸ List.length_pos_of_ne_nil hne
  obtain ⟨hindex, htimeIndex⟩ := h.chronicle.find ts
  rw [getRewardPrefixBefore_eq hinside hordered, ← hindex, ← htimeIndex, hretained]
  rfl

/-- The newest entry was stored by the last distribution. -/
theorem Complete.latest (h : Complete r ds) : r.latestRewardTimestamp = lastTime ds := by
  rw [← h.chronicle.head]
  unfold RoyaltiesState.latestRewardTimestamp RoyaltiesState.entries
  rw [overflowLast_eq h.head, List.reverse_append]
  split_ifs with hoverflow hmain
  · rw [reverse_eq_getD_cons hoverflow]
    rfl
  · rw [List.length_eq_zero_iff.mp (not_not.mp hoverflow), reverse_eq_getD_cons hmain]
    rfl
  · rw [List.length_eq_zero_iff.mp (not_not.mp hoverflow),
      List.length_eq_zero_iff.mp (not_not.mp hmain)]
    rfl

end ClaimRush.ShareholderRoyalties
