import ClaimRush.ShareholderRoyalties.CheckpointRing
import ClaimRush.ShareholderRoyalties.Flush

/-!
# Runs of the checkpoint store

Entries stored at times that never decrease stay in order, so every lookup
agrees with a linear scan of what is retained.
-/

namespace ClaimRush.ShareholderRoyalties

open Constants RoyaltiesState

namespace RoyaltiesState

/-- The retained entries are in order, and no two overflow entries share a time. -/
structure InOrder (r : RoyaltiesState) : Prop where
  retained : Ordered r.retained
  strict : r.ring.Pairwise fun c c' ↦ c.timestamp < c'.timestamp

variable {cap : Capacities} {r r' : RoyaltiesState} {c : RewardCheckpoint}

theorem Pushes.mem (h : Pushes c r r') {x : RewardCheckpoint} (hx : x ∈ r'.retained) :
    x ∈ r.retained ∨ x = c := by
  unfold RoyaltiesState.retained at hx ⊢
  rcases h with ⟨hring, hring', hmain⟩ | ⟨hmain, hring⟩
  · rw [hring', hmain, List.append_nil] at hx
    rw [hring, List.append_nil]
    exact mem_pushEntry hx
  · rw [hmain, hring] at hx
    rcases List.mem_append.mp hx with hx | hx
    · exact .inl (List.mem_append_left _ hx)
    · exact (mem_pushEntry hx).imp_left (List.mem_append_right _)

theorem Replaces.mem (h : Replaces c r r') {x : RewardCheckpoint} (hx : x ∈ r'.retained) :
    x ∈ r.retained ∨ x = c := by
  obtain ⟨-, hmain, hring⟩ := h
  unfold RoyaltiesState.retained at hx ⊢
  rw [hmain, hring, ← List.append_assoc] at hx
  rcases List.mem_append.mp hx with hx | hx
  · rcases List.mem_append.mp hx with hx | hx
    · exact .inl (List.mem_append_left _ hx)
    · exact .inl (List.mem_append_right _ (List.mem_of_mem_tail hx))
  · exact .inr (List.mem_singleton.mp hx)

theorem InOrder.pushes (h : InOrder r) (hpush : Pushes c r r')
    (hle : ∀ x ∈ r.retained, x.timestamp ≤ c.timestamp) : InOrder r' := by
  obtain ⟨hretained, hstrict⟩ := h
  unfold RoyaltiesState.retained at hretained hle
  rcases hpush with ⟨hring, hring', hmain⟩ | ⟨hmain, hring⟩
  · rw [hring, List.append_nil] at hretained hle
    refine ⟨?_, hring' ▸ List.Pairwise.nil⟩
    unfold RoyaltiesState.retained
    rw [hring', hmain, List.append_nil]
    exact pairwise_le_pushEntry hretained hle
  · obtain ⟨hmainOrdered, hringOrdered, hcross⟩ := List.pairwise_append.mp hretained
    have hringLe (x : RewardCheckpoint) (hx : x ∈ r.ring) : x.timestamp ≤ c.timestamp :=
      hle x (List.mem_append_right _ hx)
    refine ⟨?_, hring ▸ pairwise_lt_pushEntry hstrict hringLe⟩
    unfold RoyaltiesState.retained
    rw [hmain, hring]
    refine List.pairwise_append.mpr ⟨hmainOrdered, pairwise_le_pushEntry hringOrdered hringLe, ?_⟩
    intro x hx y hy
    rcases mem_pushEntry hy with hy | rfl
    · exact hcross x hx y hy
    · exact hle x (List.mem_append_left _ hx)

/-- An eviction makes room for an entry that is newer than the whole ring. -/
theorem InOrder.replaces (h : InOrder r) (hreplace : Replaces c r r') (hinside : r.HeadInside)
    (hlast : r.overflowLast.timestamp ≠ c.timestamp)
    (hle : ∀ x ∈ r.retained, x.timestamp ≤ c.timestamp) : InOrder r' := by
  obtain ⟨hretained, hstrict⟩ := h
  obtain ⟨hne, hmain, hring⟩ := hreplace
  unfold RoyaltiesState.retained at hretained hle
  obtain ⟨hmainOrdered, hringOrdered, hcross⟩ := List.pairwise_append.mp hretained
  have hnewer (x : RewardCheckpoint) (hx : x ∈ r.ring) : x.timestamp < c.timestamp := by
    have hend := hle r.overflowLast (List.mem_append_right _ (by
      rw [ring_eq_append_last hinside hne]
      simp))
    rw [ring_eq_append_last hinside hne] at hx hstrict
    rcases List.mem_append.mp hx with hx | hx
    · have := (List.pairwise_append.mp hstrict).2.2 x hx _ List.mem_cons_self
      omega
    · rw [List.mem_singleton.mp hx]
      omega
  refine ⟨?_, ?_⟩
  · unfold RoyaltiesState.retained
    rw [hmain, hring]
    refine List.pairwise_append.mpr ⟨hmainOrdered, ?_, ?_⟩
    · refine List.pairwise_append.mpr
        ⟨hringOrdered.sublist (List.tail_sublist _), List.pairwise_singleton _ _, ?_⟩
      intro x hx y hy
      rw [List.mem_singleton.mp hy]
      exact (hnewer x (List.mem_of_mem_tail hx)).le
    · intro x hx y hy
      rcases List.mem_append.mp hy with hy | hy
      · exact hcross x hx y (List.mem_of_mem_tail hy)
      · rw [List.mem_singleton.mp hy]
        exact hle x (List.mem_append_left _ hx)
  · rw [hring]
    refine List.pairwise_append.mpr
      ⟨hstrict.sublist (List.tail_sublist _), List.pairwise_singleton _ _, ?_⟩
    intro x hx y hy
    rw [List.mem_singleton.mp hy]
    exact hnewer x (List.mem_of_mem_tail hx)

/-- A store at a time not before the retained ones keeps the order. -/
theorem InOrder.store (h : InOrder r) (hshape : RingShape cap r) {rewardTs : ℕ}
    (hle : ∀ x ∈ r.retained, x.timestamp ≤ rewardTs) (hr : r.storeWithin cap rewardTs = .ok r') :
    InOrder r' ∧ ∀ x ∈ r'.retained, x ∈ r.retained ∨ x = r.snapshotAt rewardTs := by
  obtain ⟨-, -, heffect⟩ := storeWithin_spec hshape hr
  split_ifs at heffect with hevicts
  · exact ⟨h.replaces heffect hshape.inside hevicts.2.2 hle, fun x hx ↦ heffect.mem hx⟩
  · exact ⟨h.pushes heffect hle, fun x hx ↦ heffect.mem hx⟩

/-- The two arrays and the head of the ring. -/
structure SameArrays (r r' : RoyaltiesState) : Prop where
  main : r'.rewardCheckpoints = r.rewardCheckpoints
  overflow : r'.overflowCheckpoints = r.overflowCheckpoints
  head : r'.overflowRingHead = r.overflowRingHead

theorem SameArrays.ring (h : SameArrays r r') : r'.ring = r.ring := by
  unfold RoyaltiesState.ring
  rw [h.overflow, h.head]

theorem SameArrays.retained (h : SameArrays r r') : r'.retained = r.retained := by
  unfold RoyaltiesState.retained
  rw [h.main, h.ring]

theorem RingShape.same (h : RingShape cap r) (hsame : SameArrays r r') : RingShape cap r' :=
  h.of_same hsame.main hsame.overflow hsame.head

theorem InOrder.same (h : InOrder r) (hsame : SameArrays r r') : InOrder r' :=
  ⟨hsame.retained ▸ h.retained, hsame.ring ▸ h.strict⟩

/-- Nothing has been stored yet. -/
structure Blank (r : RoyaltiesState) : Prop where
  main : r.rewardCheckpoints = []
  overflow : r.overflowCheckpoints = []
  head : r.overflowRingHead = 0

theorem Blank.ring (h : Blank r) : r.ring = [] := ring_eq_nil.mpr h.overflow

theorem Blank.retained (h : Blank r) : r.retained = [] := by
  unfold RoyaltiesState.retained
  rw [h.main, h.ring, List.append_nil]

theorem Blank.shape (h : Blank r) : RingShape cap r :=
  ⟨fun hne ↦ absurd h.overflow hne, fun _ ↦ h.head, fun hne ↦ absurd h.overflow hne⟩

theorem Blank.inOrder (h : Blank r) : InOrder r where
  retained := by
    rw [h.retained]
    exact List.Pairwise.nil
  strict := by
    rw [h.ring]
    exact List.Pairwise.nil

end RoyaltiesState

/-- States after entries were stored at the given times, in an order in which
they never decrease.  Between two stores anything but the arrays may change. -/
inductive StoredRun (cap : Capacities) : List ℕ → RoyaltiesState → Prop
  | start {r : RoyaltiesState} (h : Blank r) : StoredRun cap [] r
  | store {times : List ℕ} {r r₁ r' : RoyaltiesState} {rewardTs : ℕ} (h : StoredRun cap times r)
      (hsame : SameArrays r r₁) (htimes : ∀ t ∈ times, t ≤ rewardTs)
      (hr : r₁.storeWithin cap rewardTs = .ok r') : StoredRun cap (times ++ [rewardTs]) r'

theorem StoredRun.spec {cap : Capacities} {times : List ℕ} {r : RoyaltiesState}
    (h : StoredRun cap times r) :
    RingShape cap r ∧ InOrder r ∧ ∀ x ∈ r.retained, x.timestamp ∈ times := by
  induction h with
  | start h =>
      refine ⟨h.shape, h.inOrder, fun x hx ↦ ?_⟩
      rw [h.retained] at hx
      cases hx
  | @store times r r₁ r' rewardTs h hsame htimes hr ih =>
      obtain ⟨hshape, horder, hmem⟩ := ih
      have hshape₁ := hshape.same hsame
      have hle (x : RewardCheckpoint) (hx : x ∈ r₁.retained) : x.timestamp ≤ rewardTs :=
        htimes _ (hmem x (hsame.retained ▸ hx))
      obtain ⟨horder', hmem'⟩ := (horder.same hsame).store hshape₁ hle hr
      refine ⟨(storeWithin_spec hshape₁ hr).1, horder', fun x hx ↦ ?_⟩
      rcases hmem' x hx with hold | rfl
      · exact List.mem_append_left _ (hmem x (hsame.retained ▸ hold))
      · exact List.mem_append_right _ List.mem_cons_self

/-! ## Flushes -/

open VeClaimNFT

/-- A flush whose entry is not admitted leaves the accounting alone. -/
theorem indexPending_of_not_canStore {r : RoyaltiesState} {s : VeState}
    (h : r.canStoreRewardCheckpoint s.global.globalLastTs = false) (nowTs : ℕ) (bypass : Bool) :
    Returns (· = r) (r.indexPending s nowTs bypass) := by
  unfold indexPending
  dsimp only
  refine Returns.ite (fun _ ↦ rfl) fun _ ↦ Returns.ite (fun _ ↦ rfl) fun _ ↦ ?_
  refine Returns.ite (fun _ ↦ rfl) fun _ ↦ Returns.guard fun _ ↦ ?_
  rw [h]
  exact rfl

/-- The store keeps its entries in order, a lookup finds what a linear scan
finds, and an entry is stored whenever it is admitted; without admission the
flush changes no index and no balance of the accounting. -/
theorem checkpoint_store_and_lookup {times : List ℕ} {r : RoyaltiesState}
    (h : StoredRun deployedSizes times r) :
    Ordered r.retained ∧ r.ring.Pairwise (fun c c' ↦ c.timestamp < c'.timestamp) ∧
      (∀ ts, r.getRewardPrefixBefore ts =
        pairOf (lastBefore RewardCheckpoint.timestamp r.retained ts)) ∧
      (∀ rewardTs, r.canStoreRewardCheckpoint rewardTs = true →
        ∃ r', r.storeRewardCheckpoint rewardTs = .ok r') ∧
      ∀ (call : Call) (w w' : Worlds) (bypass : Bool) (gasLoops : ℕ), w.royalties = r →
        flushPending call w bypass gasLoops = .ok w' →
        r.canStoreRewardCheckpoint w'.ve.global.globalLastTs = false →
        w'.royalties.ethPerVe = r.ethPerVe ∧
          w'.royalties.ethPerVeTimeWeighted = r.ethPerVeTimeWeighted ∧
          w'.royalties.indexedEthOwed = r.indexedEthOwed ∧
          w'.royalties.pendingShareholderETH = r.pendingShareholderETH := by
  obtain ⟨hshape, horder, -⟩ := h.spec
  refine ⟨horder.retained, horder.strict,
    fun ts ↦ getRewardPrefixBefore_eq hshape.inside horder.retained ts,
    fun rewardTs hadmitted ↦ ?_, ?_⟩
  · exact storeWithin_isOk (canStoreRewardCheckpoint_eq (r := r) rewardTs ▸ hadmitted)
  · rintro call w w' bypass gasLoops rfl hflush hdenied
    have hsame : w'.royalties = w.royalties := by
      unfold flushPending at hflush
      split_ifs at hflush with hpending
      · obtain rfl := Except.ok.inj hflush
        rfl
      · obtain ⟨s, -, hflush⟩ := bind_eq_ok_iff.mp hflush
        obtain ⟨royalties, hindex, hflush⟩ := bind_eq_ok_iff.mp hflush
        obtain rfl := Except.ok.inj hflush
        exact (indexPending_of_not_canStore hdenied call.timestamp bypass).of_ok hindex
    rw [hsame]
    exact ⟨rfl, rfl, rfl, rfl⟩

/-! ## A full main array -/

section Filled

variable {cap : Capacities} {r : RoyaltiesState} {rewardTs : ℕ}

/-- An entry behind a main array with room. -/
theorem storeWithin_main (hroom : r.rewardCheckpoints.length < cap.main)
    (hnew : ∀ x ∈ r.rewardCheckpoints, x.timestamp < rewardTs) :
    r.storeWithin cap rewardTs =
      .ok { r with rewardCheckpoints := r.rewardCheckpoints ++ [r.snapshotAt rewardTs] } := by
  have hlast : ¬ (r.rewardCheckpoints ≠ [] ∧ r.mainLast.timestamp = rewardTs) := by
    rintro ⟨hne, htime⟩
    exact (hnew _ (List.mem_of_getLast? (getLast?_main hne))).ne htime
  unfold storeWithin
  dsimp only
  rw [if_neg (not_le.mpr hroom), if_neg hlast]

/-- An entry behind a full main array, before the overflow array turns into a ring. -/
theorem storeWithin_behind (hfull : cap.main ≤ r.rewardCheckpoints.length)
    (hroom : r.overflowCheckpoints.length < cap.overflow) (hhead : r.overflowRingHead = 0) :
    ∃ r', r.storeWithin cap rewardTs = .ok r' ∧ r'.rewardCheckpoints = r.rewardCheckpoints ∧
      r'.overflowRingHead = 0 ∧ r'.overflowCheckpoints =
        pushEntry (·.timestamp) r.overflowCheckpoints (r.snapshotAt rewardTs) := by
  have hindex : r.overflowLastWrittenIndex = r.overflowCheckpoints.length - 1 := if_pos hhead
  have hring : r.ring = r.overflowCheckpoints := ring_of_head_zero hhead
  have hinside : r.HeadInside := fun hne ↦ by simpa [hhead] using List.length_pos_of_ne_nil hne
  unfold storeWithin storeOverflowWithin
  dsimp only
  rw [if_pos hfull]
  split_ifs with hlast hfirst
  · obtain ⟨hne, htime⟩ := hlast
    refine ⟨_, rfl, rfl, hhead, ?_⟩
    have hsame : r.overflowCheckpoints.getLast?.map (·.timestamp) =
        some (r.snapshotAt rewardTs).timestamp := by
      rw [← hring, getLast?_ring hinside hne, Option.map_some, htime]
      rfl
    unfold pushEntry
    rw [if_pos hsame, hindex]
    simpa [lastSlot] using rotate_set_last (List.length_pos_of_ne_nil hne) (r.snapshotAt rewardTs)
  all_goals
    refine ⟨_, rfl, rfl, hhead, (pushEntry_eq_concat fun x hx htime ↦ hlast ?_).symm⟩
    have hne := List.ne_nil_of_mem (List.mem_of_getLast? hx)
    rw [← hring, getLast?_ring hinside hne] at hx
    obtain rfl := Option.mem_some.mp hx
    exact ⟨hne, htime⟩

end Filled

/-- The main array after `n` stores, the index one larger at each. -/
def filled (n : ℕ) : RoyaltiesState :=
  { ShareholderRoyalties.initial 1 2 0 with
    ethPerVe := n, rewardCheckpoints := (List.range n).map fun t ↦ ⟨t, t, 0⟩ }

theorem filled_run {n : ℕ} (hn : n ≤ deployedSizes.main) :
    ∃ r, StoredRun deployedSizes (List.range n) r ∧ SameArrays r (filled n) := by
  induction n with
  | zero => exact ⟨filled 0, .start ⟨rfl, rfl, rfl⟩, rfl, rfl, rfl⟩
  | succ n ih =>
      obtain ⟨r, hrun, hsame⟩ := ih (Nat.le_of_succ_le hn)
      have hstore := @storeWithin_main deployedSizes (filled n) n
        (by simpa [filled] using hn) (by simp [filled])
      rw [List.range_succ]
      refine ⟨_, hrun.store hsame (fun t ht ↦ (List.mem_range.mp ht).le) hstore, ?_, rfl, rfl⟩
      simp [filled, snapshotAt, List.range_succ, ShareholderRoyalties.initial]

/-- Two overflow entries behind a full main array; the newer one is stored twice. -/
theorem checkpoint_store_and_lookup_overflow : ∃ times r,
    StoredRun deployedSizes times r ∧ r.rewardCheckpoints.length = deployedSizes.main ∧
      times.drop deployedSizes.main =
        [deployedSizes.main, deployedSizes.main + 1, deployedSizes.main + 1] ∧
      r.ring.map RewardCheckpoint.timestamp = [deployedSizes.main, deployedSizes.main + 1] ∧
      Ordered r.retained ∧
      ∀ ts, r.getRewardPrefixBefore ts =
        pairOf (lastBefore RewardCheckpoint.timestamp r.retained ts) := by
  obtain ⟨r₀, hrun₀, hsame₀⟩ := filled_run (le_refl deployedSizes.main)
  have hroom : 2 < deployedSizes.overflow := by simp [deployedSizes, MAX_OVERFLOW_CHECKPOINTS]
  generalize hm : deployedSizes.main = m at *
  have hfull : (filled m).rewardCheckpoints.length = m := by simp [filled]
  obtain ⟨r₁, hr₁, hmain₁, hhead₁, hring₁⟩ := @storeWithin_behind deployedSizes (filled m) m
    (by rw [hfull, hm]) (Nat.zero_lt_of_lt hroom) rfl
  replace hring₁ : r₁.overflowCheckpoints = [(filled m).snapshotAt m] := hring₁
  obtain ⟨r₂, hr₂, hmain₂, hhead₂, hring₂⟩ := @storeWithin_behind deployedSizes r₁ (m + 1)
    (by rw [hmain₁, hfull, hm]) (by rw [hring₁]; exact Nat.lt_of_succ_lt hroom) hhead₁
  replace hring₂ : r₂.overflowCheckpoints =
      [(filled m).snapshotAt m, r₁.snapshotAt (m + 1)] := by
    simp [hring₂, hring₁, pushEntry, snapshotAt]
  -- The index grows before the newest entry is replaced.
  have hgrown : SameArrays r₂ { r₂ with ethPerVe := r₂.ethPerVe + 1 } := ⟨rfl, rfl, rfl⟩
  obtain ⟨r₃, hr₃, hmain₃, hhead₃, hring₃⟩ := @storeWithin_behind deployedSizes
    { r₂ with ethPerVe := r₂.ethPerVe + 1 } (m + 1)
    (by rw [hmain₂, hmain₁, hfull, hm]) (by rw [hring₂]; exact hroom) hhead₂
  replace hring₃ : r₃.ring.map RewardCheckpoint.timestamp = [m, m + 1] := by
    rw [ring_of_head_zero hhead₃, hring₃]
    simp [hring₂, pushEntry, snapshotAt]
  have hrun := ((hrun₀.store hsame₀ (fun t ht ↦ (List.mem_range.mp ht).le) hr₁).store
    ⟨rfl, rfl, rfl⟩ (by simp; omega) hr₂).store hgrown (by simp; omega) hr₃
  obtain ⟨hordered, -, hlookup, -⟩ := checkpoint_store_and_lookup hrun
  exact ⟨_, r₃, hrun, by rw [hmain₃, hmain₂, hmain₁, hfull], by simp, hring₃, hordered, hlookup⟩

end ClaimRush.ShareholderRoyalties
