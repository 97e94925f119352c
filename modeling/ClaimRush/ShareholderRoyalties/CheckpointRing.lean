import ClaimRush.ShareholderRoyalties.Lookup

/-!
# Storing reward checkpoints

The store with the two array sizes as parameters: what one entry changes, and
that an admitted entry is stored.
-/

namespace ClaimRush.ShareholderRoyalties

open Constants RoyaltiesState

/-- The sizes of the main array and of the overflow array. -/
structure Capacities where
  main : ℕ
  overflow : ℕ
  main_pos : 0 < main
  overflow_pos : 0 < overflow

theorem MAX_REWARD_CHECKPOINTS_pos : 0 < MAX_REWARD_CHECKPOINTS := by
  simp [MAX_REWARD_CHECKPOINTS]

theorem MAX_OVERFLOW_CHECKPOINTS_pos : 0 < MAX_OVERFLOW_CHECKPOINTS := by
  simp [MAX_OVERFLOW_CHECKPOINTS]

/-- The sizes that the contract is compiled with. -/
def deployedSizes : Capacities where
  main := MAX_REWARD_CHECKPOINTS
  overflow := MAX_OVERFLOW_CHECKPOINTS
  main_pos := MAX_REWARD_CHECKPOINTS_pos
  overflow_pos := MAX_OVERFLOW_CHECKPOINTS_pos

namespace RoyaltiesState

variable (cap : Capacities) (r : RoyaltiesState)

/-- `_canStoreRewardCheckpoint` for arrays of the sizes `cap`. -/
def canStoreWithin (rewardTs : ℕ) : Bool :=
  if r.rewardCheckpoints.length < cap.main then true
  else if r.overflowCheckpoints.length = 0 then true
  else if r.overflowLast.timestamp = rewardTs then true
  else if r.overflowCheckpoints.length < cap.overflow then true
  else if r.overflowHead.timestamp ≥ r.oldestObservedNonAutoMaxLockEnd then false
  else r.overflowHead.timestamp + MAX_LOCK_DURATION < rewardTs

/-- `_storeOverflowCheckpoint` for arrays of the sizes `cap`. -/
def storeOverflowWithin (rewardTs : ℕ) : Except Error RoyaltiesState :=
  let entries := r.overflowCheckpoints
  if entries ≠ [] ∧ r.overflowLast.timestamp = rewardTs then
    .ok { r with
      overflowCheckpoints := entries.set r.overflowLastWrittenIndex (r.snapshotAt rewardTs) }
  else if entries.length < cap.overflow then
    let r := if entries = [] then r.emit (.RewardCheckpointCapReached r.rewardCheckpoints.length)
      else r
    .ok { r with overflowCheckpoints := entries ++ [r.snapshotAt rewardTs] }
  else
    let r := r.emit (.OverflowCheckpointCapReached entries.length)
    let head := r.overflowRingHead
    if r.overflowHead.timestamp + MAX_LOCK_DURATION < rewardTs ∧
        r.overflowHead.timestamp < r.oldestObservedNonAutoMaxLockEnd then
      .ok { r with
        overflowCheckpoints := entries.set head (r.snapshotAt rewardTs)
        overflowRingHead := (head + 1) % entries.length }
    else .error .InvariantViolation

/-- `_storeRewardCheckpoint` for arrays of the sizes `cap`. -/
def storeWithin (rewardTs : ℕ) : Except Error RoyaltiesState :=
  let entries := r.rewardCheckpoints
  if entries.length ≥ cap.main then r.storeOverflowWithin cap rewardTs
  else if entries ≠ [] ∧ r.mainLast.timestamp = rewardTs then
    .ok { r with rewardCheckpoints := entries.set (entries.length - 1) (r.snapshotAt rewardTs) }
  else .ok { r with rewardCheckpoints := entries ++ [r.snapshotAt rewardTs] }

/-- The store at `rewardTs` overwrites the oldest overflow entry. -/
def evicts (rewardTs : ℕ) : Prop :=
  cap.main ≤ r.rewardCheckpoints.length ∧ cap.overflow ≤ r.overflowCheckpoints.length ∧
    r.overflowLast.timestamp ≠ rewardTs
  deriving Decidable

variable {cap} {r}

theorem canStoreRewardCheckpoint_eq (rewardTs : ℕ) :
    r.canStoreRewardCheckpoint rewardTs = r.canStoreWithin deployedSizes rewardTs := rfl

theorem storeRewardCheckpoint_eq (rewardTs : ℕ) :
    r.storeRewardCheckpoint rewardTs = r.storeWithin deployedSizes rewardTs := rfl

/-- An admitted entry is stored. -/
theorem storeWithin_isOk {rewardTs : ℕ} (h : r.canStoreWithin cap rewardTs = true) :
    ∃ r', r.storeWithin cap rewardTs = .ok r' := by
  unfold canStoreWithin at h
  unfold storeWithin
  dsimp only
  split_ifs with hfull hsame
  · unfold storeOverflowWithin
    dsimp only
    split_ifs with hlast hroom hfirst hevict
    · exact ⟨_, rfl⟩
    · exact ⟨_, rfl⟩
    · exact ⟨_, rfl⟩
    · exact ⟨_, rfl⟩
    · have hne : r.overflowCheckpoints ≠ [] := by
        intro hnil
        have := cap.overflow_pos
        simp only [hnil, List.length_nil] at hroom
        omega
      rw [if_neg (by omega), if_neg (by simpa using hne), if_neg fun htime ↦ hlast ⟨hne, htime⟩,
        if_neg hroom] at h
      split_ifs at h with hfloor
      exact absurd ⟨of_decide_eq_true h, not_le.mp hfloor⟩ hevict
  · exact ⟨_, rfl⟩
  · exact ⟨_, rfl⟩

/-! ## The shape of the arrays -/

variable (cap r)

/-- The overflow array is used only behind a full main array, and it turns into
a ring only when it is full itself. -/
structure RingShape : Prop where
  inside : r.HeadInside
  unwrapped : r.overflowCheckpoints.length < cap.overflow → r.overflowRingHead = 0
  behind : r.overflowCheckpoints ≠ [] → cap.main ≤ r.rewardCheckpoints.length

/-- The entry `c` goes behind the newest one, or replaces it. -/
def Pushes (c : RewardCheckpoint) (r r' : RoyaltiesState) : Prop :=
  (r.ring = [] ∧ r'.ring = [] ∧
    r'.rewardCheckpoints = pushEntry (·.timestamp) r.rewardCheckpoints c) ∨
    (r'.rewardCheckpoints = r.rewardCheckpoints ∧ r'.ring = pushEntry (·.timestamp) r.ring c)

/-- The entry `c` takes the place of the oldest overflow entry. -/
def Replaces (c : RewardCheckpoint) (r r' : RoyaltiesState) : Prop :=
  r.overflowCheckpoints ≠ [] ∧ r'.rewardCheckpoints = r.rewardCheckpoints ∧
    r'.ring = r.ring.tail ++ [c]

/-- What a store leaves besides the arrays. -/
structure OutsideArrays (r r' : RoyaltiesState) : Prop where
  ethPerVe : r'.ethPerVe = r.ethPerVe
  timeWeighted : r'.ethPerVeTimeWeighted = r.ethPerVeTimeWeighted
  watermark : r'.oldestObservedNonAutoMaxLockEnd = r.oldestObservedNonAutoMaxLockEnd

variable {cap r} {r' : RoyaltiesState}

theorem RingShape.of_same (h : RingShape cap r)
    (hmain : r'.rewardCheckpoints = r.rewardCheckpoints)
    (hoverflow : r'.overflowCheckpoints = r.overflowCheckpoints)
    (hhead : r'.overflowRingHead = r.overflowRingHead) : RingShape cap r' := by
  obtain ⟨hinside, hunwrapped, hbehind⟩ := h
  refine ⟨?_, ?_, ?_⟩
  · unfold HeadInside
    rw [hoverflow, hhead]
    exact hinside
  · rw [hoverflow, hhead]
    exact hunwrapped
  · rw [hoverflow, hmain]
    exact hbehind

theorem getLast?_ring (h : r.HeadInside) (hne : r.overflowCheckpoints ≠ []) :
    r.ring.getLast? = some r.overflowLast := by
  rw [ring_eq_append_last h hne, List.getLast?_concat]

theorem getLast?_main (hne : r.rewardCheckpoints ≠ []) :
    r.rewardCheckpoints.getLast? = some r.mainLast := by
  have hlt : r.rewardCheckpoints.length - 1 < r.rewardCheckpoints.length :=
    Nat.sub_lt (List.length_pos_of_ne_nil hne) Nat.one_pos
  rw [List.getLast?_eq_getElem?, List.getElem?_eq_getElem hlt, mainLast,
    List.getD_eq_getElem _ _ hlt]

/-- One overflow entry. -/
theorem storeOverflowWithin_spec (h : RingShape cap r) {rewardTs : ℕ}
    (hfull : cap.main ≤ r.rewardCheckpoints.length)
    (hr : r.storeOverflowWithin cap rewardTs = .ok r') :
    RingShape cap r' ∧ OutsideArrays r r' ∧
      if r.evicts cap rewardTs then Replaces (r.snapshotAt rewardTs) r r'
      else Pushes (r.snapshotAt rewardTs) r r' := by
  obtain ⟨hinside, hunwrapped, hbehind⟩ := h
  have hpos := cap.overflow_pos
  unfold storeOverflowWithin at hr
  dsimp only at hr
  split_ifs at hr with hlast hroom hfirst hevict
  · obtain rfl := Except.ok.inj hr
    obtain ⟨hne, htime⟩ := hlast
    refine ⟨⟨?_, ?_, fun _ ↦ hfull⟩, ⟨rfl, rfl, rfl⟩, ?_⟩
    · intro _
      simpa using hinside hne
    · simpa using hunwrapped
    · rw [if_neg fun hev ↦ hev.2.2 htime]
      refine .inr ⟨rfl, ?_⟩
      have hsame : r.ring.getLast?.map (·.timestamp) =
          some (r.snapshotAt rewardTs).timestamp := by
        rw [getLast?_ring hinside hne, Option.map_some, htime]
        rfl
      unfold pushEntry
      rw [if_pos hsame]
      exact rotate_set_last (hinside hne) _
  · obtain rfl := Except.ok.inj hr
    have hnone : ¬ r.evicts cap rewardTs := fun hev ↦ absurd hev.2.1 (by omega)
    refine ⟨⟨fun _ ↦ ?_, fun _ ↦ ?_, fun _ ↦ hfull⟩, ⟨rfl, rfl, rfl⟩, ?_⟩
    · have hzero : r.overflowRingHead = 0 := hunwrapped hroom
      simp [RoyaltiesState.emit, hfirst, hzero]
    · exact hunwrapped hroom
    · rw [if_neg hnone]
      refine .inr ⟨rfl, ?_⟩
      have hring : r.ring = [] := ring_eq_nil.mpr hfirst
      have hzero : r.overflowRingHead = 0 := hunwrapped hroom
      rw [hring]
      simp [ring, RoyaltiesState.emit, hfirst, hzero, pushEntry, snapshotAt]
  · obtain rfl := Except.ok.inj hr
    have hnone : ¬ r.evicts cap rewardTs := fun hev ↦ absurd hev.2.1 (by omega)
    have hzero : r.overflowRingHead = 0 := hunwrapped hroom
    refine ⟨⟨fun _ ↦ ?_, fun _ ↦ hzero, fun _ ↦ hfull⟩, ⟨rfl, rfl, rfl⟩, ?_⟩
    · simp [hzero]
    · rw [if_neg hnone]
      refine .inr ⟨rfl, ?_⟩
      have hnew : ∀ a ∈ r.ring.getLast?, a.timestamp ≠ (r.snapshotAt rewardTs).timestamp := by
        rw [getLast?_ring hinside hfirst]
        intro a ha htime
        obtain rfl := Option.mem_some.mp ha
        exact hlast ⟨hfirst, htime⟩
      rw [pushEntry_eq_concat hnew, ring_of_head_zero (r := r) hzero]
      exact ring_of_head_zero hzero
  · obtain rfl := Except.ok.inj hr
    have hne : r.overflowCheckpoints ≠ [] := by
      intro hnil
      simp only [hnil, List.length_nil] at hroom
      omega
    have hlen := List.length_pos_of_ne_nil hne
    have hev : r.evicts cap rewardTs := ⟨hfull, not_lt.mp hroom, fun htime ↦ hlast ⟨hne, htime⟩⟩
    refine ⟨⟨fun _ ↦ ?_, fun hlt ↦ ?_, fun _ ↦ hfull⟩, ⟨rfl, rfl, rfl⟩, ?_⟩
    · simpa [RoyaltiesState.emit] using Nat.mod_lt _ hlen
    · simp only [List.length_set] at hlt
      omega
    · rw [if_pos hev]
      exact ⟨hne, rfl, rotate_set_head (hinside hne) _⟩

/-- One entry: which list it changes, and how. -/
theorem storeWithin_spec (h : RingShape cap r) {rewardTs : ℕ}
    (hr : r.storeWithin cap rewardTs = .ok r') :
    RingShape cap r' ∧ OutsideArrays r r' ∧
      if r.evicts cap rewardTs then Replaces (r.snapshotAt rewardTs) r r'
      else Pushes (r.snapshotAt rewardTs) r r' := by
  unfold storeWithin at hr
  dsimp only at hr
  split_ifs at hr with hfull hlast
  · exact storeOverflowWithin_spec h hfull hr
  all_goals
    obtain rfl := Except.ok.inj hr
    have hnil : r.overflowCheckpoints = [] := by
      by_contra hne
      have := h.behind hne
      omega
    have hring : r.ring = [] := ring_eq_nil.mpr hnil
    have hnone : ¬ r.evicts cap rewardTs := fun hev ↦ absurd hev.1 (by omega)
    refine ⟨⟨h.inside, h.unwrapped, fun hne ↦ absurd hnil hne⟩, ⟨rfl, rfl, rfl⟩, ?_⟩
    rw [if_neg hnone]
    refine .inl ⟨hring, hring, ?_⟩
  · obtain ⟨hne, htime⟩ := hlast
    have hsame : r.rewardCheckpoints.getLast?.map (·.timestamp) =
        some (r.snapshotAt rewardTs).timestamp := by
      rw [getLast?_main hne, Option.map_some, htime]
      rfl
    have hlt : 0 < r.rewardCheckpoints.length := List.length_pos_of_ne_nil hne
    unfold pushEntry
    rw [if_pos hsame]
    -- A ring whose head is at zero is the list itself.
    simpa [lastSlot] using rotate_set_last hlt (r.snapshotAt rewardTs)
  · rw [pushEntry_eq_concat]
    intro a ha htime
    have hne : r.rewardCheckpoints ≠ [] := List.ne_nil_of_mem (List.mem_of_getLast? ha)
    rw [getLast?_main hne] at ha
    obtain rfl := Option.mem_some.mp ha
    exact hlast ⟨hne, htime⟩

/-- In lookups an entry that is pushed is the newest one. -/
theorem Pushes.lastBefore_eq {c : RewardCheckpoint} (h : Pushes c r r') (xs : List RewardCheckpoint)
    (t : ℕ) (hxs : r.ring = [] → xs = []) :
    lastBefore RewardCheckpoint.timestamp (r'.rewardCheckpoints ++ (xs ++ r'.ring)) t =
      if c.timestamp < t then some c
      else lastBefore RewardCheckpoint.timestamp (r.rewardCheckpoints ++ (xs ++ r.ring)) t := by
  rcases h with ⟨hring, hring', hmain⟩ | ⟨hmain, hring⟩
  · rw [hring, hring', hmain, hxs hring, List.append_nil, List.append_nil, List.append_nil]
    exact lastBefore_pushEntry
  · rw [hmain, hring, ← List.append_assoc, ← List.append_assoc]
    exact lastBefore_append_pushEntry

end RoyaltiesState

end ClaimRush.ShareholderRoyalties
