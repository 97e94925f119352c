import ClaimRush.ShareholderRoyalties.CheckpointRuns

/-!
# Eviction from the overflow ring

A ledger keeps, beside the storage, every entry ever flushed and every entry
that was evicted.  Lookups from the watermark on agree with the full history
exactly while nothing was evicted or the oldest overflow entry is older than the
watermark.  The admission compares the entry that goes, not the one that becomes
the oldest, so a flush can break the agreement.
-/

namespace ClaimRush.ShareholderRoyalties

open Constants RoyaltiesState

/-- A flush that advances the index by `delta` at `rewardTs`, or a move of the
watermark. -/
inductive RingStep
  | flush (rewardTs delta : ℕ)
  | watermark (value : ℕ)
  deriving DecidableEq, Repr

/-- The storage with the full history of flushes and the evicted entries. -/
structure FlushLedger where
  royalties : RoyaltiesState
  history : List RewardCheckpoint := []
  evicted : List RewardCheckpoint := []

namespace RoyaltiesState

variable (r : RoyaltiesState)

/-- The indices after a distribution of `delta` at `rewardTs`. -/
def advanced (rewardTs delta : ℕ) : RoyaltiesState :=
  { r with
    ethPerVe := r.ethPerVe + delta
    ethPerVeTimeWeighted := r.ethPerVeTimeWeighted + delta * rewardTs }

/-- Time of the oldest overflow entry once the head has been overwritten by an
entry at `rewardTs`. -/
def oldestAfter (rewardTs : ℕ) : ℕ := (r.ring.tail.map (·.timestamp)).headD rewardTs

/-- The arrays after the flush of the contract are those of the store with the
advanced indices. -/
theorem advanceIndex_sameArrays {r r' : RoyaltiesState} {rewardTs totalWeight delta : ℕ}
    (h : r.advanceIndex rewardTs totalWeight delta = .ok r') :
    ∃ stored, (r.advanced rewardTs delta).storeWithin deployedSizes rewardTs = .ok stored ∧
      SameArrays stored r' := by
  unfold advanceIndex at h
  obtain ⟨ethPerVe, hindex, h⟩ := bind_eq_ok_iff.mp h
  obtain ⟨product, hproduct, h⟩ := bind_eq_ok_iff.mp h
  obtain ⟨weighted, hweighted, h⟩ := bind_eq_ok_iff.mp h
  obtain ⟨stored, hstored, h⟩ := bind_eq_ok_iff.mp h
  obtain ⟨distributed, -, h⟩ := bind_eq_ok_iff.mp h
  obtain ⟨pending, -, h⟩ := bind_eq_ok_iff.mp h
  obtain ⟨owed, -, h⟩ := bind_eq_ok_iff.mp h
  obtain rfl := Except.ok.inj h
  obtain ⟨-, rfl⟩ := uint256_eq_ok.mp hindex
  obtain ⟨-, rfl⟩ := uint256_eq_ok.mp hproduct
  obtain ⟨-, rfl⟩ := uint256_eq_ok.mp hweighted
  exact ⟨stored, hstored, ⟨rfl, rfl, rfl⟩⟩

end RoyaltiesState

namespace FlushLedger

variable (cap : Capacities) (l : FlushLedger)

/-- One step.  A flush without an increment or without admission stores nothing. -/
def exec : RingStep → FlushLedger
  | .watermark value =>
      { l with royalties := { l.royalties with oldestObservedNonAutoMaxLockEnd := value } }
  | .flush rewardTs delta =>
      if delta = 0 ∨ l.royalties.canStoreWithin cap rewardTs = false then l
      else
        match (l.royalties.advanced rewardTs delta).storeWithin cap rewardTs with
        | .ok r =>
            { royalties := r
              history := l.history ++ [(l.royalties.advanced rewardTs delta).snapshotAt rewardTs]
              evicted :=
                if l.royalties.evicts cap rewardTs then l.evicted ++ [l.royalties.overflowHead]
                else l.evicted }
        | .error _ => l

/-- What would be retained had nothing been evicted. -/
def unpruned : List RewardCheckpoint :=
  l.royalties.rewardCheckpoints ++ (l.evicted ++ l.royalties.ring)

/-- From the watermark on, lookups find the last flush of the full history. -/
def Resolves : Prop :=
  ∀ lockEnd, l.royalties.oldestObservedNonAutoMaxLockEnd ≤ lockEnd →
    l.royalties.getRewardPrefixBefore lockEnd =
      pairOf (lastBefore RewardCheckpoint.timestamp l.history lockEnd)

/-- Nothing was evicted, or the oldest overflow entry is older than the watermark. -/
def Covered : Prop :=
  l.evicted = [] ∨
    l.royalties.overflowHead.timestamp < l.royalties.oldestObservedNonAutoMaxLockEnd

/-- The flush is not earlier than the flushes before it. -/
def Timely : RingStep → Prop
  | .watermark _ => True
  | .flush rewardTs _ => ∀ c ∈ l.history, c.timestamp ≤ rewardTs

/-- A flush that evicts leaves an oldest entry that is older than the watermark,
and after an eviction the watermark stays above the oldest entry. -/
def Keeps : RingStep → Prop
  | .watermark value => l.evicted = [] ∨ l.royalties.overflowHead.timestamp < value
  | .flush rewardTs delta =>
      delta ≠ 0 → l.royalties.canStoreWithin cap rewardTs = true →
        l.royalties.evicts cap rewardTs →
          l.royalties.oldestAfter rewardTs < l.royalties.oldestObservedNonAutoMaxLockEnd

/-- The ledgers that a run goes through. -/
def trail : FlushLedger → List RingStep → List FlushLedger
  | l, [] => [l]
  | l, step :: steps => l :: trail (l.exec cap step) steps

/-- Every flush of the run is timely. -/
def AllTimely : FlushLedger → List RingStep → Prop
  | _, [] => True
  | l, step :: steps => l.Timely step ∧ AllTimely (l.exec cap step) steps

/-- Every step of the run keeps the oldest entry below the watermark. -/
def AllKeep : FlushLedger → List RingStep → Prop
  | _, [] => True
  | l, step :: steps => l.Keeps cap step ∧ AllKeep (l.exec cap step) steps

/-! ## The invariant -/

/-- The ledger accounts for every entry: the main array, the evicted entries and
the ring are together in order, their indices rise, and a lookup in them finds
what a lookup in the history finds. -/
structure Accounts : Prop where
  shape : RingShape cap l.royalties
  inOrder : InOrder l.royalties
  order : Ordered l.unpruned
  strict : (l.evicted ++ l.royalties.ring).Pairwise fun c c' ↦ c.timestamp < c'.timestamp
  rising : l.unpruned.Pairwise fun c c' ↦ c.cumulativeEthPerVe < c'.cumulativeEthPerVe
  bounded : ∀ c ∈ l.unpruned, 0 < c.cumulativeEthPerVe ∧
    c.cumulativeEthPerVe ≤ l.royalties.ethPerVe
  recorded : ∀ c ∈ l.unpruned, c ∈ l.history
  lookup : ∀ t, lastBefore RewardCheckpoint.timestamp l.history t =
    lastBefore RewardCheckpoint.timestamp l.unpruned t
  nonempty : l.evicted ≠ [] → l.royalties.overflowCheckpoints ≠ []

variable {cap} {l} {c : RewardCheckpoint}

theorem Accounts.of_blank (h : Blank l.royalties) (hhistory : l.history = [])
    (hevicted : l.evicted = []) : l.Accounts cap := by
  have hunpruned : l.unpruned = [] := by
    rw [unpruned, h.main, hevicted, h.ring, List.append_nil, List.append_nil]
  refine ⟨h.shape, h.inOrder, ?_, ?_, ?_, ?_, ?_, ?_, fun hne ↦ absurd hevicted hne⟩
  · exact hunpruned ▸ List.Pairwise.nil
  · rw [hevicted, h.ring]
    exact List.Pairwise.nil
  · exact hunpruned ▸ List.Pairwise.nil
  · simp [hunpruned]
  · simp [hunpruned]
  · intro t
    rw [hhistory, hunpruned]

theorem Accounts.evicted_eq_nil (h : l.Accounts cap) (hring : l.royalties.ring = []) :
    l.evicted = [] := by
  by_contra hne
  exact h.nonempty hne (ring_eq_nil.mp hring)

/-- `l'` has taken the entry `c` behind all entries of `l`, or in place of the
newest one. -/
structure Takes (c : RewardCheckpoint) (l l' : FlushLedger) : Prop where
  sublist : l'.unpruned.Sublist (l.unpruned ++ [c])
  lookup : ∀ t, lastBefore RewardCheckpoint.timestamp l'.unpruned t =
    if c.timestamp < t then some c else lastBefore RewardCheckpoint.timestamp l.unpruned t
  strict : (l'.evicted ++ l'.royalties.ring).Pairwise fun c c' ↦ c.timestamp < c'.timestamp

theorem Accounts.takes_push (h : l.Accounts cap) {l' : FlushLedger}
    (hpush : Pushes c l.royalties l'.royalties) (hevicted : l'.evicted = l.evicted)
    (hle : ∀ x ∈ l.unpruned, x.timestamp ≤ c.timestamp) : Takes c l l' := by
  unfold unpruned at hle
  refine ⟨?_, fun t ↦ ?_, ?_⟩
  · unfold unpruned
    rw [hevicted]
    rcases hpush with ⟨hring, hring', hmain⟩ | ⟨hmain, hring⟩
    · rw [hring, hring', hmain, h.evicted_eq_nil hring, List.append_nil, List.append_nil,
        List.append_nil]
      exact pushEntry_sublist _ _
    · rw [hmain, hring, ← List.append_assoc, ← List.append_assoc, List.append_assoc _ _ [c]]
      exact (List.Sublist.refl _).append (pushEntry_sublist _ _)
  · unfold unpruned
    rw [hevicted]
    exact hpush.lastBefore_eq l.evicted t h.evicted_eq_nil
  · rw [hevicted]
    rcases hpush with ⟨hring, hring', -⟩ | ⟨-, hring⟩
    · rw [hring', h.evicted_eq_nil hring]
      exact List.Pairwise.nil
    · rw [hring]
      by_cases hnil : l.royalties.ring = []
      · rw [hnil, h.evicted_eq_nil hnil]
        exact List.pairwise_singleton _ _
      · rw [← pushEntry_append l.evicted hnil]
        exact pairwise_lt_pushEntry h.strict fun x hx ↦ hle x (List.mem_append_right _ hx)

/-- The newest overflow entry is the newest of all. -/
theorem Accounts.lt_of_evicts (h : l.Accounts cap) {rewardTs : ℕ}
    (hevicts : l.royalties.evicts cap rewardTs) (hne : l.royalties.overflowCheckpoints ≠ [])
    (hle : ∀ x ∈ l.unpruned, x.timestamp ≤ rewardTs) :
    ∀ x ∈ l.evicted ++ l.royalties.ring, x.timestamp < rewardTs := by
  have hring := ring_eq_append_last h.shape.inside hne
  have hmem : l.royalties.overflowLast ∈ l.royalties.ring := by
    rw [hring]
    simp
  have hend : l.royalties.overflowLast.timestamp < rewardTs :=
    (hle _ (List.mem_append_right _ (List.mem_append_right _ hmem))).lt_of_ne hevicts.2.2
  have hstrict := h.strict
  rw [hring, ← List.append_assoc] at hstrict
  intro x hx
  rw [hring, ← List.append_assoc] at hx
  rcases List.mem_append.mp hx with hx | hx
  · exact ((List.pairwise_append.mp hstrict).2.2 x hx _ List.mem_cons_self).trans hend
  · rw [List.mem_singleton.mp hx]
    exact hend

theorem Accounts.takes_replace (h : l.Accounts cap) {l' : FlushLedger}
    (hreplace : Replaces c l.royalties l'.royalties)
    (hevicted : l'.evicted = l.evicted ++ [l.royalties.overflowHead])
    (hlt : ∀ x ∈ l.evicted ++ l.royalties.ring, x.timestamp < c.timestamp) : Takes c l l' := by
  obtain ⟨hne, hmain, hring⟩ := hreplace
  have hjoined : l'.evicted ++ l'.royalties.ring = l.evicted ++ l.royalties.ring ++ [c] := by
    rw [hevicted, hring, ring_eq_head_cons h.shape.inside hne]
    simp
  have hunpruned : l'.unpruned = l.unpruned ++ [c] := by
    unfold unpruned
    rw [hmain, hjoined]
    simp only [List.append_assoc]
  refine ⟨hunpruned ▸ List.Sublist.refl _, fun t ↦ ?_, ?_⟩
  · rw [hunpruned]
    exact lastBefore_concat
  · rw [hjoined]
    refine List.pairwise_append.mpr ⟨h.strict, List.pairwise_singleton _ _, fun x hx y hy ↦ ?_⟩
    rw [List.mem_singleton.mp hy]
    exact hlt x hx

/-- A stored entry keeps the account: it is newer than all entries and its index
is larger. -/
theorem Accounts.take (h : l.Accounts cap) {l' : FlushLedger} (htakes : Takes c l l')
    (hshape : RingShape cap l'.royalties) (horder : InOrder l'.royalties)
    (hhistory : l'.history = l.history ++ [c])
    (hne : l'.evicted ≠ [] → l'.royalties.overflowCheckpoints ≠ [])
    (hle : ∀ x ∈ l.unpruned, x.timestamp ≤ c.timestamp)
    (hindex : c.cumulativeEthPerVe = l'.royalties.ethPerVe)
    (hrises : l.royalties.ethPerVe < c.cumulativeEthPerVe) : l'.Accounts cap := by
  have hmem (x : RewardCheckpoint) (hx : x ∈ l'.unpruned) : x ∈ l.unpruned ∨ x = c := by
    simpa using htakes.sublist.subset hx
  refine ⟨hshape, horder, ?_, htakes.strict, ?_, fun x hx ↦ ?_, fun x hx ↦ ?_, fun t ↦ ?_, hne⟩
  · refine List.Pairwise.sublist htakes.sublist
      (List.pairwise_append.mpr ⟨h.order, List.pairwise_singleton _ _, fun x hx y hy ↦ ?_⟩)
    rw [List.mem_singleton.mp hy]
    exact hle x hx
  · refine List.Pairwise.sublist htakes.sublist
      (List.pairwise_append.mpr ⟨h.rising, List.pairwise_singleton _ _, fun x hx y hy ↦ ?_⟩)
    rw [List.mem_singleton.mp hy]
    exact (h.bounded x hx).2.trans_lt hrises
  · rcases hmem x hx with hold | rfl
    · obtain ⟨hpos, hbound⟩ := h.bounded x hold
      exact ⟨hpos, hbound.trans (hrises.le.trans hindex.le)⟩
    · exact ⟨Nat.zero_lt_of_lt hrises, hindex.le⟩
  · rw [hhistory]
    rcases hmem x hx with hold | rfl
    · exact List.mem_append_left _ (h.recorded x hold)
    · exact List.mem_append_right _ List.mem_cons_self
  · rw [hhistory, lastBefore_concat, htakes.lookup, h.lookup]

theorem Accounts.watermark (h : l.Accounts cap) (value : ℕ) :
    (l.exec cap (.watermark value)).Accounts cap :=
  ⟨h.shape.same ⟨rfl, rfl, rfl⟩, h.inOrder.same ⟨rfl, rfl, rfl⟩, h.order, h.strict, h.rising,
    h.bounded, h.recorded, h.lookup, h.nonempty⟩

/-- A flush either stores nothing and changes nothing, or stores its entry. -/
theorem exec_flush_cases (cap : Capacities) (l : FlushLedger) (rewardTs delta : ℕ) :
    ((delta = 0 ∨ l.royalties.canStoreWithin cap rewardTs = false) ∧
        l.exec cap (.flush rewardTs delta) = l) ∨
      delta ≠ 0 ∧ l.royalties.canStoreWithin cap rewardTs = true ∧ ∃ r,
        (l.royalties.advanced rewardTs delta).storeWithin cap rewardTs = .ok r ∧
        l.exec cap (.flush rewardTs delta) =
          { royalties := r
            history := l.history ++ [(l.royalties.advanced rewardTs delta).snapshotAt rewardTs]
            evicted :=
              if l.royalties.evicts cap rewardTs then l.evicted ++ [l.royalties.overflowHead]
              else l.evicted } := by
  by_cases hskip : delta = 0 ∨ l.royalties.canStoreWithin cap rewardTs = false
  · exact .inl ⟨hskip, if_pos hskip⟩
  · obtain ⟨hdelta, hadmitted⟩ := not_or.mp hskip
    have hadmitted : l.royalties.canStoreWithin cap rewardTs = true := by
      simpa using hadmitted
    have hadvanced : (l.royalties.advanced rewardTs delta).canStoreWithin cap rewardTs = true :=
      hadmitted
    obtain ⟨r, hr⟩ := storeWithin_isOk hadvanced
    refine .inr ⟨hdelta, hadmitted, r, hr, ?_⟩
    simp only [exec]
    rw [if_neg hskip, hr]

theorem Accounts.flush (h : l.Accounts cap) {rewardTs delta : ℕ}
    (htimely : l.Timely (.flush rewardTs delta)) :
    (l.exec cap (.flush rewardTs delta)).Accounts cap := by
  rcases exec_flush_cases cap l rewardTs delta with ⟨-, heq⟩ | ⟨hdelta, -, r, hr, heq⟩
  · rw [heq]
    exact h
  have hle (x : RewardCheckpoint) (hx : x ∈ l.unpruned) : x.timestamp ≤ rewardTs :=
    htimely x (h.recorded x hx)
  have hretained (x : RewardCheckpoint) (hx : x ∈ l.royalties.retained) :
      x.timestamp ≤ rewardTs := by
    rcases List.mem_append.mp hx with hx | hx
    · exact hle x (List.mem_append_left _ hx)
    · exact hle x (List.mem_append_right _ (List.mem_append_right _ hx))
  have hshape₁ : RingShape cap (l.royalties.advanced rewardTs delta) :=
    h.shape.same ⟨rfl, rfl, rfl⟩
  have horder₁ : InOrder (l.royalties.advanced rewardTs delta) := h.inOrder.same ⟨rfl, rfl, rfl⟩
  obtain ⟨hshape, houtside, heffect⟩ := storeWithin_spec hshape₁ hr
  have horder := (horder₁.store hshape₁ hretained hr).1
  rw [heq]
  split_ifs at heffect with hevicts
  · have hevicts' : l.royalties.evicts cap rewardTs := hevicts
    rw [if_pos hevicts']
    refine h.take (h.takes_replace heffect rfl (h.lt_of_evicts hevicts' heffect.1 hle)) hshape
      horder rfl (fun _ ↦ ?_) hle houtside.ethPerVe.symm
      (Nat.lt_add_of_pos_right (Nat.pos_of_ne_zero hdelta))
    have hring := heffect.2.2
    rw [Ne, ← ring_eq_nil, hring]
    simp
  · have hevicts' : ¬ l.royalties.evicts cap rewardTs := hevicts
    rw [if_neg hevicts']
    refine h.take (h.takes_push heffect rfl hle) hshape horder rfl (fun hne ↦ ?_) hle
      houtside.ethPerVe.symm (Nat.lt_add_of_pos_right (Nat.pos_of_ne_zero hdelta))
    rcases heffect with ⟨hring, -⟩ | ⟨-, hring⟩
    · exact absurd (h.evicted_eq_nil hring) hne
    · rw [Ne, ← ring_eq_nil, hring]
      exact pushEntry_ne_nil _ _

theorem Accounts.exec (h : l.Accounts cap) {step : RingStep} (htimely : l.Timely step) :
    (l.exec cap step).Accounts cap := by
  cases step with
  | flush rewardTs delta => exact h.flush htimely
  | watermark value => exact h.watermark value

/-! ## Which lookups agree -/

/-- Lookups from the watermark on agree with the history exactly when the ledger
is covered. -/
theorem Accounts.resolves_iff (h : l.Accounts cap) : l.Resolves ↔ l.Covered := by
  have hretained := getRewardPrefixBefore_eq h.shape.inside h.inOrder.retained
  constructor
  · intro hresolves
    by_contra huncovered
    obtain ⟨hevicted, hhead⟩ := not_or.mp huncovered
    have hring := ring_eq_head_cons h.shape.inside (h.nonempty hevicted)
    -- At the time of the oldest overflow entry the full history knows an
    -- evicted entry, and what is retained knows none after the main array.
    have hlookup := hresolves _ (not_lt.mp hhead)
    have hnone : lastBefore RewardCheckpoint.timestamp l.royalties.ring
        l.royalties.overflowHead.timestamp = none := by
      refine lastBefore_eq_none fun x hx ↦ ?_
      have hstrict := (List.pairwise_append.mp h.strict).2.1
      rw [hring] at hx hstrict
      rcases List.mem_cons.mp hx with rfl | hx
      · exact le_rfl
      · exact ((List.pairwise_cons.mp hstrict).1 x hx).le
    obtain ⟨old, hold⟩ := List.exists_mem_of_ne_nil _ hevicted
    have hbefore : old.timestamp < l.royalties.overflowHead.timestamp :=
      (List.pairwise_append.mp h.strict).2.2 old hold _ (hring ▸ List.mem_cons_self)
    obtain ⟨e, he⟩ := Option.isSome_iff_exists.mp (lastBefore_isSome hold hbefore)
    have hmem := (lastBefore_mem he).1
    rw [hretained, h.lookup] at hlookup
    unfold unpruned RoyaltiesState.retained at hlookup
    rw [lastBefore_append, hnone, lastBefore_append, lastBefore_append, hnone, he] at hlookup
    have hindex := congrArg Prod.fst hlookup
    simp only [Option.none_or, Option.some_or, pairOf, Option.getD_some] at hindex
    have hunpruned : e ∈ l.unpruned := List.mem_append_right _ (List.mem_append_left _ hmem)
    cases hmain : lastBefore RewardCheckpoint.timestamp l.royalties.rewardCheckpoints
        l.royalties.overflowHead.timestamp with
    | none =>
        rw [hmain] at hindex
        have hpos := (h.bounded e hunpruned).1
        have hzero : 0 = e.cumulativeEthPerVe := hindex
        omega
    | some m =>
        rw [hmain, Option.getD_some] at hindex
        have hless := (List.pairwise_append.mp h.rising).2.2 m (lastBefore_mem hmain).1 e
          (List.mem_append_left _ hmem)
        omega
  · intro hcovered lockEnd hlockEnd
    rw [hretained, h.lookup]
    unfold unpruned RoyaltiesState.retained
    rcases hcovered with hnil | hhead
    · rw [hnil, List.nil_append]
    · by_cases hevicted : l.evicted = []
      · rw [hevicted, List.nil_append]
      have hring := ring_eq_head_cons h.shape.inside (h.nonempty hevicted)
      have hmem : l.royalties.overflowHead ∈ l.royalties.ring := hring ▸ List.mem_cons_self
      have hsome : (lastBefore RewardCheckpoint.timestamp l.royalties.ring lockEnd).isSome :=
        lastBefore_isSome hmem (hhead.trans_le hlockEnd)
      obtain ⟨e, he⟩ := Option.isSome_iff_exists.mp hsome
      rw [lastBefore_append, lastBefore_append, lastBefore_append, he]
      rfl

theorem head_timestamp {r : RoyaltiesState} (hinside : r.HeadInside)
    (hne : r.overflowCheckpoints ≠ []) (d : ℕ) :
    r.overflowHead.timestamp = (r.ring.map (·.timestamp)).headD d := by
  rw [ring_eq_head_cons hinside hne]
  rfl

/-- A step from a covered ledger leaves a covered one exactly when it keeps the
oldest entry below the watermark. -/
theorem Accounts.covered_exec_iff (h : l.Accounts cap) (hcovered : l.Covered) {step : RingStep}
    (htimely : l.Timely step) : (l.exec cap step).Covered ↔ l.Keeps cap step := by
  cases step with
  | watermark value => rfl
  | flush rewardTs delta =>
      have hafter := (h.flush htimely).shape.inside
      rcases exec_flush_cases cap l rewardTs delta with
        ⟨hskip, heq⟩ | ⟨hdelta, hadmitted, r, hr, heq⟩
      · rw [heq]
        refine ⟨fun _ hdelta hadmitted ↦ ?_, fun _ ↦ hcovered⟩
        rcases hskip with hzero | hdenied
        · exact absurd hzero hdelta
        · exact absurd (hdenied.symm.trans hadmitted) Bool.false_ne_true
      have hshape₁ : RingShape cap (l.royalties.advanced rewardTs delta) :=
        h.shape.same ⟨rfl, rfl, rfl⟩
      obtain ⟨-, houtside, heffect⟩ := storeWithin_spec hshape₁ hr
      have hwatermark : r.oldestObservedNonAutoMaxLockEnd =
          l.royalties.oldestObservedNonAutoMaxLockEnd := houtside.watermark
      rw [heq] at hafter ⊢
      unfold Covered Keeps
      dsimp only at hafter ⊢
      rw [hwatermark]
      split_ifs at heffect with hevicts
      · have hevicts' : l.royalties.evicts cap rewardTs := hevicts
        obtain ⟨-, -, hring⟩ := heffect
        have hring : r.ring =
            l.royalties.ring.tail ++ [(l.royalties.advanced rewardTs delta).snapshotAt rewardTs] :=
          hring
        have hne : r.overflowCheckpoints ≠ [] := by
          rw [Ne, ← ring_eq_nil, hring]
          simp
        have hhead : r.overflowHead.timestamp = l.royalties.oldestAfter rewardTs := by
          rw [head_timestamp hafter hne 0, hring, oldestAfter]
          cases l.royalties.ring.tail <;> rfl
        rw [if_pos hevicts', hhead]
        exact ⟨fun hkept _ _ _ ↦ hkept.resolve_left (by simp), fun hkept ↦
          .inr (hkept hdelta hadmitted hevicts')⟩
      · have hevicts' : ¬ l.royalties.evicts cap rewardTs := hevicts
        rw [if_neg hevicts']
        refine ⟨fun _ _ _ hnow ↦ absurd hnow hevicts', fun _ ↦ ?_⟩
        by_cases hnil : l.evicted = []
        · exact .inl hnil
        have hne := h.nonempty hnil
        have hring : r.ring = pushEntry (·.timestamp) l.royalties.ring
            ((l.royalties.advanced rewardTs delta).snapshotAt rewardTs) := by
          rcases heffect with ⟨hnone, -⟩ | ⟨-, hring⟩
          · exact absurd (ring_eq_nil.mp hnone) hne
          · exact hring
        have hne' : r.overflowCheckpoints ≠ [] := by
          rw [Ne, ← ring_eq_nil, hring]
          exact pushEntry_ne_nil _ _
        right
        rw [head_timestamp hafter hne' 0, hring, headD_pushEntry (ring_eq_nil.not.mpr hne),
          ← head_timestamp h.shape.inside hne]
        exact hcovered.resolve_left hnil

/-! ## Runs -/

theorem Accounts.trail_resolves_iff (h : l.Accounts cap) (hcovered : l.Covered)
    {steps : List RingStep} (htimely : AllTimely cap l steps) :
    (∀ l' ∈ trail cap l steps, l'.Resolves) ↔ AllKeep cap l steps := by
  induction steps generalizing l with
  | nil =>
      refine ⟨fun _ ↦ trivial, fun _ l' hl' ↦ ?_⟩
      rw [List.mem_singleton.mp hl']
      exact h.resolves_iff.mpr hcovered
  | cons step steps ih =>
      obtain ⟨hstep, hrest⟩ := htimely
      have hnext := h.exec hstep
      have hkeeps := h.covered_exec_iff hcovered hstep
      constructor
      · intro hall
        have htail (l' : FlushLedger) (hl' : l' ∈ trail cap (l.exec cap step) steps) :
            l'.Resolves :=
          hall l' (List.mem_cons_of_mem _ hl')
        have hfirst : l.exec cap step ∈ trail cap (l.exec cap step) steps := by
          cases steps <;> exact List.mem_cons_self
        have hcovered' := hnext.resolves_iff.mp (htail _ hfirst)
        exact ⟨hkeeps.mp hcovered', (ih hnext hcovered' hrest).mp htail⟩
      · rintro ⟨hkeep, hkeepRest⟩ l' hl'
        rcases List.mem_cons.mp hl' with rfl | hl'
        · exact h.resolves_iff.mpr hcovered
        · exact (ih hnext (hkeeps.mpr hkeep) hrest).mpr hkeepRest l' hl'

end FlushLedger

open FlushLedger

/-- For arrays of any size and any run of flushes and watermark moves, lookups at
or above the watermark keep finding the last flush of the full history, in every
state of the run, exactly when every eviction leaves an oldest entry older than
the watermark and no later move takes the watermark down to it. -/
theorem prefix_resolves_iff (cap : Capacities) {r : RoyaltiesState} (hblank : Blank r)
    {steps : List RingStep} (htimely : AllTimely cap { royalties := r } steps) :
    (∀ l ∈ trail cap { royalties := r } steps, l.Resolves) ↔
      AllKeep cap { royalties := r } steps :=
  Accounts.trail_resolves_iff (.of_blank hblank rfl rfl) (.inl rfl) htimely

/-! ## A lost entry -/

theorem foldl_exec_mem_trail (cap : Capacities) (l : FlushLedger) (steps : List RingStep) :
    steps.foldl (exec cap) l ∈ trail cap l steps := by
  induction steps generalizing l with
  | nil => exact List.mem_cons_self
  | cons step steps ih => exact List.mem_cons_of_mem _ (ih _)

/-- One main slot and two overflow slots. -/
def smallArrays : Capacities where
  main := 1
  overflow := 2
  main_pos := Nat.one_pos
  overflow_pos := Nat.two_pos

def emptyLedger : FlushLedger := { royalties := initial 1 2 0 }

/-- A lock ends at 120, between the flushes at 100 and 150.  A year later the next
flush evicts the entry at 100, which the watermark does not protect. -/
def evictingRun : List RingStep :=
  [.watermark 120, .flush 10 1, .flush 100 1, .flush 150 1, .flush (151 + MAX_LOCK_DURATION) 1]

theorem evictingRun_timely : AllTimely smallArrays emptyLedger evictingRun := by
  refine ⟨trivial, ?_, ?_, ?_, ?_, trivial⟩
  all_goals
    unfold Timely
    decide +kernel

/-- The lock that ends at 120 is settled as if the flush at 100 had not happened. -/
theorem not_prefix_resolves : AllTimely smallArrays emptyLedger evictingRun ∧
    ¬ ∀ l ∈ trail smallArrays emptyLedger evictingRun, l.Resolves := by
  refine ⟨evictingRun_timely, fun hall ↦ ?_⟩
  have hlookup := hall _ (foldl_exec_mem_trail _ _ _) 120 (by decide +kernel)
  exact absurd hlookup (by decide +kernel)

theorem prefix_resolves_iff_evictingRun :
    (∀ l ∈ trail smallArrays emptyLedger evictingRun, l.Resolves) ↔
      AllKeep smallArrays emptyLedger evictingRun :=
  prefix_resolves_iff smallArrays ⟨rfl, rfl, rfl⟩ evictingRun_timely

end ClaimRush.ShareholderRoyalties
