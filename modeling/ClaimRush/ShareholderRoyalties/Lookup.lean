import ClaimRush.ShareholderRoyalties.Checkpoints
import ClaimRush.Lib.RingLog

/-!
# Lookups in the reward checkpoints

The retained entries in logical order are the main array and then the overflow
ring, read from its head.  On entries in the order of their times the two binary
searches find what a scan from the newest entry finds.
-/

namespace ClaimRush.ShareholderRoyalties

open Constants RoyaltiesState

/-- The entries of an array, oldest first, are in the order of their times. -/
def Ordered (l : List RewardCheckpoint) : Prop :=
  l.Pairwise fun c c' ↦ c.timestamp ≤ c'.timestamp

theorem Ordered.passes {l : List RewardCheckpoint} (h : Ordered l) (ts : ℕ) :
    l.Pairwise fun c c' ↦ decide (c'.timestamp < ts) = true → decide (c.timestamp < ts) = true :=
  h.imp fun hle hlt ↦ by
    simp only [decide_eq_true_eq] at hlt ⊢
    omega

theorem reverse_eq_getD_cons {l : List RewardCheckpoint} (hl : l.length ≠ 0) :
    l.reverse = l.getD (l.length - 1) {} :: l.dropLast.reverse := by
  have hne : l ≠ [] := List.length_pos_iff.mp (Nat.pos_of_ne_zero hl)
  rw [List.getD_eq_getElem _ _ (by omega), ← List.getLast_eq_getElem hne]
  conv_lhs => rw [← List.dropLast_append_getLast hne]
  rw [List.reverse_append, List.reverse_singleton, List.singleton_append]

namespace RoyaltiesState

variable (r : RoyaltiesState)

/-- The overflow entries, oldest first. -/
def ring : List RewardCheckpoint := r.overflowCheckpoints.rotate r.overflowRingHead

/-- The retained entries in logical order. -/
def retained : List RewardCheckpoint := r.rewardCheckpoints ++ r.ring

/-- The head lies inside the ring. -/
def HeadInside : Prop :=
  r.overflowCheckpoints ≠ [] → r.overflowRingHead < r.overflowCheckpoints.length

variable {r}

theorem ring_of_head_zero (h : r.overflowRingHead = 0) : r.ring = r.overflowCheckpoints := by
  rw [ring, h, List.rotate_zero]

theorem ring_eq_nil : r.ring = [] ↔ r.overflowCheckpoints = [] := List.rotate_eq_nil_iff

theorem length_ring : r.ring.length = r.overflowCheckpoints.length := List.length_rotate _ _

/-- The last written slot holds the newest overflow entry. -/
theorem ring_eq_append_last (hhead : r.HeadInside) (hne : r.overflowCheckpoints ≠ []) :
    r.ring = r.ring.dropLast ++ [r.overflowLast] := by
  have hlast : r.overflowLast = r.overflowCheckpoints.get
      ⟨lastSlot r.overflowRingHead r.overflowCheckpoints.length, lastSlot_lt (hhead hne)⟩ :=
    List.getD_eq_getElem _ _ (lastSlot_lt (hhead hne))
  rw [hlast]
  exact rotate_eq_append_last (hhead hne)

/-- The slot at the head holds the oldest overflow entry. -/
theorem ring_eq_head_cons (hhead : r.HeadInside) (hne : r.overflowCheckpoints ≠ []) :
    r.ring = r.overflowHead :: r.ring.tail := by
  have heq : r.overflowHead = r.overflowCheckpoints.get ⟨r.overflowRingHead, hhead hne⟩ :=
    List.getD_eq_getElem _ _ (hhead hne)
  rw [heq]
  exact rotate_eq_head_cons (hhead hne)

theorem overflowPrefixBefore_eq (hhead : r.HeadInside) (hordered : Ordered r.ring) (ts : ℕ) :
    r.overflowPrefixBefore ts = lastBefore RewardCheckpoint.timestamp r.ring ts := by
  have hprobe (i : ℕ) (hi : i < r.ring.length) :
      decide ((r.overflowCheckpoints.getD
        ((i + r.overflowRingHead) % r.overflowCheckpoints.length) {}).timestamp < ts) =
          decide (r.ring[i].timestamp < ts) := by
    have hlen : (i + r.overflowRingHead) % r.overflowCheckpoints.length <
        r.overflowCheckpoints.length :=
      Nat.mod_lt _ (length_ring (r := r) ▸ Nat.zero_lt_of_lt hi)
    rw [List.getD_eq_getElem _ _ hlen]
    simp only [ring, List.getElem_rotate]
  have hsearch := find?_reverse_eq_lowerBound
    (p := fun i ↦ decide ((r.overflowCheckpoints.getD
      ((i + r.overflowRingHead) % r.overflowCheckpoints.length) {}).timestamp < ts))
    hprobe (hordered.passes ts)
  have hbound := (lowerBound_sound (fun i ↦ decide ((r.overflowCheckpoints.getD
      ((i + r.overflowRingHead) % r.overflowCheckpoints.length) {}).timestamp < ts))
      r.overflowCheckpoints.length 0 r.overflowCheckpoints.length (Nat.zero_le _)).2.1
  rw [length_ring] at hsearch
  unfold lastBefore RoyaltiesState.overflowPrefixBefore
  dsimp only
  split_ifs with hlen hbefore hlo
  · rw [ring_eq_nil.mpr (List.length_eq_zero_iff.mp hlen)]
    rfl
  · have hne : r.overflowCheckpoints ≠ [] := fun h ↦ hlen (h ▸ rfl)
    rw [ring_eq_append_last hhead hne, List.reverse_concat,
      List.find?_cons_of_pos (by simpa only [decide_eq_true_eq])]
  · have hlast := Nat.mod_lt (lowerBound (fun i ↦ decide ((r.overflowCheckpoints.getD
      ((i + r.overflowRingHead) % r.overflowCheckpoints.length) {}).timestamp < ts))
      r.overflowCheckpoints.length 0 r.overflowCheckpoints.length - 1 + r.overflowRingHead)
      (Nat.pos_of_ne_zero hlen)
    rw [hsearch, if_neg hlo, List.getD_eq_getElem _ _ hlast]
    unfold ring
    rw [List.getElem?_rotate (by omega), List.getElem?_eq_getElem hlast]
  · rw [hsearch, if_pos (not_not.mp hlo)]

theorem mainPrefixBefore_eq (hordered : Ordered r.rewardCheckpoints) (ts : ℕ) :
    r.mainPrefixBefore ts =
      (lastBefore RewardCheckpoint.timestamp r.rewardCheckpoints ts).getD {} := by
  have hprobe (i : ℕ) (hi : i < r.rewardCheckpoints.length) :
      decide ((r.rewardCheckpoints.getD i {}).timestamp < ts) =
        decide (r.rewardCheckpoints[i].timestamp < ts) := by
    rw [List.getD_eq_getElem _ _ hi]
  have hsearch := find?_reverse_eq_lowerBound
    (p := fun i ↦ decide ((r.rewardCheckpoints.getD i {}).timestamp < ts)) hprobe
    (hordered.passes ts)
  have hbound := (lowerBound_sound (fun i ↦ decide ((r.rewardCheckpoints.getD i {}).timestamp < ts))
      r.rewardCheckpoints.length 0 r.rewardCheckpoints.length (Nat.zero_le _)).2.1
  unfold lastBefore RoyaltiesState.mainPrefixBefore
  dsimp only
  split_ifs with hlen hbefore hlo
  · rw [List.length_eq_zero_iff.mp hlen]
    rfl
  · unfold RoyaltiesState.mainLast at hbefore ⊢
    rw [reverse_eq_getD_cons hlen, List.find?_cons_of_pos (by simpa only [decide_eq_true_eq])]
    rfl
  · rw [hsearch, if_pos hlo]
    rfl
  · rw [hsearch, if_neg hlo, List.getElem?_eq_getElem (by omega),
      List.getD_eq_getElem _ _ (by omega)]
    rfl

/-- The pair of indices that a lookup returns for an entry, zero without one. -/
def pairOf (c : Option RewardCheckpoint) : ℕ × ℕ :=
  ((c.getD {}).cumulativeEthPerVe, (c.getD {}).cumulativeTimeWeightedEthPerVe)

/-- The two searches together find what a scan of the retained entries finds. -/
theorem getRewardPrefixBefore_eq (hhead : r.HeadInside) (hordered : Ordered r.retained) (ts : ℕ) :
    r.getRewardPrefixBefore ts =
      pairOf (lastBefore RewardCheckpoint.timestamp r.retained ts) := by
  obtain ⟨hmain, hring, -⟩ := List.pairwise_append.mp hordered
  unfold RoyaltiesState.getRewardPrefixBefore retained
  rw [overflowPrefixBefore_eq hhead hring, mainPrefixBefore_eq hmain, lastBefore_append]
  cases lastBefore RewardCheckpoint.timestamp r.ring ts <;> rfl

end RoyaltiesState

end ClaimRush.ShareholderRoyalties
