import ClaimRush.VeClaimNFT.Runs

/-!
# The heap of slope times

Runs of the calls that move the scheduled slopes and the heap of their times, in
any order and with any arguments.  The heap stays a heap with a true position
map.  Whether a time is stored follows its scheduled slope as long as the time is
moved through `_applySlopeChangeDelta`; the internal heap calls do not look at the
slope.
-/

open Function

namespace ClaimRush.VeClaimNFT

namespace GlobalState

/-- `_heapPopMin` with the time that it returns, zero for an empty heap. -/
def heapPopMinTime (g : GlobalState) : ℕ × GlobalState :=
  match g.slopeTimes.min? with
  | none => (0, g)
  | some minTime => (minTime, g.heapRemove minTime)

theorem heapPopMinTime_snd (g : GlobalState) : g.heapPopMinTime.2 = g.heapPopMin := by
  unfold heapPopMinTime heapPopMin
  cases g.slopeTimes.min? <;> rfl

/-- The position map and the order of the heap, and its minimum. -/
structure SlopeHeap (g : GlobalState) : Prop where
  ordered : ∀ i, 2 ≤ i → i ≤ g.slopeTimes.size →
    g.slopeTimes.slot (i / 2) ≤ g.slopeTimes.slot i
  index_slot : ∀ i, 1 ≤ i → i ≤ g.slopeTimes.size → g.slopeTimes.index (g.slopeTimes.slot i) = i
  slot_index : ∀ t, g.slopeTimes.index t ≠ 0 →
    g.slopeTimes.index t ≤ g.slopeTimes.size ∧ g.slopeTimes.slot (g.slopeTimes.index t) = t
  distinct : ∀ i j, 1 ≤ i → i ≤ g.slopeTimes.size → 1 ≤ j → j ≤ g.slopeTimes.size →
    g.slopeTimes.slot i = g.slopeTimes.slot j → i = j
  positive : g.slopeTimes.index 0 = 0
  heapMin_zero : g.heapMin = 0 ↔ ∀ t, g.slopeTimes.index t = 0
  heapMin_least : g.heapMin ≠ 0 → g.slopeTimes.index g.heapMin ≠ 0 ∧
    ∀ t, g.slopeTimes.index t ≠ 0 → g.heapMin ≤ t

variable {g g' : GlobalState}

theorem SlopeHeap.of_wellFormed (h : g.slopeTimes.WellFormed) (hzero : ¬ g.slopeTimes.Mem 0) :
    g.SlopeHeap where
  ordered := h.ordered
  index_slot := h.index_slot
  slot_index t ht := ⟨h.index_le t ht, h.slot_index t ht⟩
  distinct i j hi his hj hjs heq := by
    have hindex := h.index_slot i hi his
    rw [heq, h.index_slot j hj hjs] at hindex
    exact hindex.symm
  positive := not_not.mp hzero
  heapMin_zero := by
    unfold heapMin
    cases hmin : g.slopeTimes.min? with
    | none => exact ⟨fun _ t ↦ not_not.mp (h.min?_eq_none hmin t), fun _ ↦ rfl⟩
    | some m =>
        obtain ⟨hm, -⟩ := h.min?_eq_some hmin
        constructor
        · rintro rfl
          exact absurd hm hzero
        · intro hnone
          exact absurd (hnone m) hm
  heapMin_least := by
    intro hne
    unfold heapMin at hne ⊢
    cases hmin : g.slopeTimes.min? with
    | none =>
        rw [hmin] at hne
        exact absurd rfl hne
    | some m => exact h.min?_eq_some hmin

theorem SlopeHeap.wellFormed (h : g.SlopeHeap) : g.slopeTimes.WellFormed where
  index_slot := h.index_slot
  index_le t ht := (h.slot_index t ht).1
  slot_index t ht := (h.slot_index t ht).2
  ordered := h.ordered

/-! ## The calls -/

/-- An insertion stores the time and nothing else. -/
theorem SlopeHeap.insert (h : g.SlopeHeap) {t : ℕ} (hok : g.heapInsert t = .ok g') :
    g'.SlopeHeap ∧ g'.slopeChanges = g.slopeChanges ∧
      ∀ u, g'.slopeTimes.index u ≠ 0 ↔ u = t ∨ g.slopeTimes.index u ≠ 0 := by
  unfold heapInsert at hok
  obtain ⟨_, hpos, hok⟩ := bind_eq_ok_iff.mp hok
  rw [revertIf_eq_ok] at hpos
  obtain rfl := Except.ok.inj hok
  obtain ⟨hwf, hmem⟩ := IndexedHeap.insert_spec h.wellFormed t
  refine ⟨.of_wellFormed hwf ?_, rfl, hmem⟩
  intro hzero
  rcases (hmem 0).mp hzero with ht | hold
  · exact hpos ht.symm
  · exact hold h.positive

/-- A removal at any position takes the time out and nothing else. -/
theorem SlopeHeap.remove (h : g.SlopeHeap) (t : ℕ) :
    (g.heapRemove t).SlopeHeap ∧
      ∀ u, (g.heapRemove t).slopeTimes.index u ≠ 0 ↔ g.slopeTimes.index u ≠ 0 ∧ u ≠ t := by
  obtain ⟨hwf, hmem⟩ := IndexedHeap.remove_spec h.wellFormed t
  exact ⟨.of_wellFormed hwf fun hzero ↦ ((hmem 0).mp hzero).1 h.positive, hmem⟩

/-- Popping removes the minimum; an empty heap stays as it is. -/
theorem SlopeHeap.popMin (h : g.SlopeHeap) :
    g.heapPopMinTime = (g.heapMin, g.heapRemove g.heapMin) := by
  unfold heapPopMinTime heapMin
  cases hmin : g.slopeTimes.min? with
  | none =>
      have hremove : g.slopeTimes.remove 0 = g.slopeTimes := by
        simp [IndexedHeap.remove, h.positive]
      simp only [Option.getD_none, heapRemove, hremove]
  | some m => rfl

theorem SlopeHeap.heapPopMin_eq (h : g.SlopeHeap) : g.heapPopMin = g.heapRemove g.heapMin := by
  rw [← heapPopMinTime_snd, h.popMin]

/-- A change of one slope leaves its time stored exactly when a slope remains, and
the other times as they were. -/
theorem SlopeHeap.applySlopeChangeDelta (h : g.SlopeHeap) {time : ℕ} {deltaSlope : ℤ}
    (hne : deltaSlope ≠ 0) (hok : g.applySlopeChangeDelta time deltaSlope = .ok g') :
    g'.SlopeHeap ∧ (g'.slopeTimes.index time ≠ 0 ↔ g'.slopeChanges time ≠ 0) ∧
      ∀ u ≠ time, (g'.slopeTimes.index u ≠ 0 ↔ g.slopeTimes.index u ≠ 0) ∧
        g'.slopeChanges u = g.slopeChanges u := by
  unfold GlobalState.applySlopeChangeDelta at hok
  rw [if_neg hne] at hok
  obtain ⟨next, -, hok⟩ := bind_eq_ok_iff.mp hok
  have hwritten : SlopeHeap { g with slopeChanges := update g.slopeChanges time next } :=
    .of_wellFormed h.wellFormed (not_not.mpr h.positive)
  have hother (u : ℕ) (hu : u ≠ time) : update g.slopeChanges time next u = g.slopeChanges u :=
    update_of_ne hu _ _
  dsimp only at hok
  split at hok
  · next hnext =>
    split at hok
    · obtain rfl := Except.ok.inj hok
      obtain ⟨hheap, hmem⟩ := hwritten.remove time
      refine ⟨hheap, iff_of_false ?_ ?_, fun u hu ↦ ⟨?_, hother u hu⟩⟩
      · exact fun hindex ↦ ((hmem time).mp hindex).2 rfl
      · simp [heapRemove, hnext]
      · exact (hmem u).trans (and_iff_left hu)
    · next hindex =>
      obtain rfl := Except.ok.inj hok
      refine ⟨hwritten, ?_, fun u hu ↦ ⟨Iff.rfl, hother u hu⟩⟩
      simpa [hnext] using hindex
  · next hnext =>
    split at hok
    · obtain ⟨hheap, hchanges, hmem⟩ := hwritten.insert hok
      refine ⟨hheap, ?_, fun u hu ↦ ⟨?_, by rw [hchanges]; exact hother u hu⟩⟩
      · simp [hmem, hchanges, hnext]
      · rw [hmem]
        exact or_iff_right hu
    · next hindex =>
      obtain rfl := Except.ok.inj hok
      refine ⟨hwritten, ?_, fun u hu ↦ ⟨Iff.rfl, hother u hu⟩⟩
      simpa [hnext] using hindex

end GlobalState

/-! ## Runs -/

inductive HeapCall
  | applySlopeChangeDelta (time : ℕ) (deltaSlope : ℤ)
  | heapInsert (t : ℕ)
  | heapRemove (t : ℕ)
  | heapPopMin
  deriving DecidableEq, Repr

/-- The call has a positive time, if it has one. -/
def HeapCall.Positive : HeapCall → Prop
  | .applySlopeChangeDelta time _ => 0 < time
  | .heapInsert t => 0 < t
  | .heapRemove t => 0 < t
  | .heapPopMin => True

/-- The state of a run and the times that a heap call moved after the last change
of their slope. -/
structure HeapRun where
  state : GlobalState
  direct : List ℕ

namespace HeapRun

/-- One call; a call that reverts leaves no trace. -/
def call (r : HeapRun) : HeapCall → HeapRun
  | .applySlopeChangeDelta time deltaSlope =>
      match r.state.applySlopeChangeDelta time deltaSlope with
      | .error _ => r
      | .ok g => ⟨g, if deltaSlope = 0 then r.direct else r.direct.filter (· ≠ time)⟩
  | .heapInsert t =>
      match r.state.heapInsert t with
      | .error _ => r
      | .ok g => ⟨g, t :: r.direct⟩
  | .heapRemove t => ⟨r.state.heapRemove t, t :: r.direct⟩
  | .heapPopMin => ⟨r.state.heapPopMin, r.state.heapMin :: r.direct⟩

def calls (r : HeapRun) (cs : List HeapCall) : HeapRun := cs.foldl call r

/-- The heap and the schedule of a contract deployed at `deployedAt`. -/
def deployed (deployedAt : ℕ) : HeapRun := ⟨(initial 0 0 0 deployedAt).global, []⟩

/-- The heap is sound, and the times moved through their slopes are stored exactly
while a slope is scheduled. -/
structure Sound (r : HeapRun) : Prop where
  heap : r.state.SlopeHeap
  stored : ∀ t, t ∉ r.direct → (r.state.slopeTimes.index t ≠ 0 ↔ r.state.slopeChanges t ≠ 0)

variable {r : HeapRun}

theorem deployed_sound (deployedAt : ℕ) : (deployed deployedAt).Sound where
  heap := .of_wellFormed IndexedHeap.empty_wellFormed fun h ↦ h rfl
  stored _ _ := Iff.rfl

theorem Sound.call (h : r.Sound) (c : HeapCall) : (r.call c).Sound := by
  cases c with
  | applySlopeChangeDelta time deltaSlope =>
      simp only [HeapRun.call]
      cases hok : r.state.applySlopeChangeDelta time deltaSlope with
      | error e => exact h
      | ok g =>
          by_cases hzero : deltaSlope = 0
          · unfold GlobalState.applySlopeChangeDelta at hok
            rw [if_pos hzero] at hok
            obtain rfl := Except.ok.inj hok
            simpa [hzero] using h
          · obtain ⟨hheap, htime, hother⟩ := h.heap.applySlopeChangeDelta hzero hok
            refine ⟨hheap, fun t ht ↦ ?_⟩
            by_cases heq : t = time
            · rw [heq]
              exact htime
            · obtain ⟨hindex, hchanges⟩ := hother t heq
              simp only [if_neg hzero, List.mem_filter, decide_not, Bool.not_eq_eq_eq_not,
                Bool.not_true, decide_eq_false_iff_not, heq, not_false_eq_true, and_true] at ht
              rw [hindex, hchanges]
              exact h.stored t ht
  | heapInsert t =>
      simp only [HeapRun.call]
      cases hok : r.state.heapInsert t with
      | error e => exact h
      | ok g =>
          obtain ⟨hheap, hchanges, hmem⟩ := h.heap.insert hok
          refine ⟨hheap, fun u hu ↦ ?_⟩
          rw [hmem, hchanges, or_iff_right (List.ne_of_not_mem_cons hu)]
          exact h.stored u (List.not_mem_of_not_mem_cons hu)
  | heapRemove t =>
      obtain ⟨hheap, hmem⟩ := h.heap.remove t
      refine ⟨hheap, fun u hu ↦ ?_⟩
      exact (hmem u).trans ((and_iff_left (List.ne_of_not_mem_cons hu)).trans
        (h.stored u (List.not_mem_of_not_mem_cons hu)))
  | heapPopMin =>
      obtain ⟨hheap, hmem⟩ := h.heap.remove r.state.heapMin
      simp only [HeapRun.call]
      rw [h.heap.heapPopMin_eq]
      refine ⟨hheap, fun u hu ↦ ?_⟩
      exact (hmem u).trans ((and_iff_left (List.ne_of_not_mem_cons hu)).trans
        (h.stored u (List.not_mem_of_not_mem_cons hu)))

theorem Sound.calls (h : r.Sound) (cs : List HeapCall) : (r.calls cs).Sound := by
  induction cs generalizing r with
  | nil => exact h
  | cons c cs ih => exact ih (h.call c)

end HeapRun

/-- After any sequence of calls the array is a min-heap with a true position map.
A time that no direct heap call moved after the last change of its slope is stored
exactly when its slope is not zero; in the contract's own runs, this holds of every
time.  Removing any time gives such a heap without it, and popping removes the
minimum. -/
theorem slope_heap_sound (deployedAt : ℕ) (cs : List HeapCall) :
    let r := (HeapRun.deployed deployedAt).calls cs
    r.state.SlopeHeap ∧
      (∀ t, t ∉ r.direct → (r.state.slopeTimes.index t ≠ 0 ↔ r.state.slopeChanges t ≠ 0)) ∧
      (∀ t, (r.state.heapRemove t).SlopeHeap ∧
        ∀ u, (r.state.heapRemove t).slopeTimes.index u ≠ 0 ↔
          r.state.slopeTimes.index u ≠ 0 ∧ u ≠ t) ∧
      r.state.heapPopMinTime = (r.state.heapMin, r.state.heapRemove r.state.heapMin) ∧
      ∀ (S : Type) (port : IShareholderRoyalties S) (c : Config S), (system port).Reachable c →
        ∀ t, c.world.ve.global.slopeTimes.index t ≠ 0 ↔ c.world.ve.global.slopeChanges t ≠ 0 := by
  intro r
  have h : r.Sound := (HeapRun.deployed_sound deployedAt).calls cs
  refine ⟨h.heap, h.stored, h.heap.remove, h.heap.popMin, fun S port c hc ↦ ?_⟩
  exact (reachable_sound hc).accounted.backed.exact.at_last.scheduled.mem_iff

/-- An insertion without a slope, and then a change of another slope. -/
theorem not_stored_iff_slope :
    ¬ ∀ (deployedAt : ℕ) (cs : List HeapCall) (time : ℕ) (deltaSlope : ℤ),
      (∀ c ∈ cs, c.Positive) → 0 < time →
        let r := (HeapRun.deployed deployedAt).calls
          (cs ++ [.applySlopeChangeDelta time deltaSlope])
        ∀ t, r.state.slopeTimes.index t ≠ 0 ↔ r.state.slopeChanges t ≠ 0 := by
  intro h
  have hfive := (h 1 [.heapInsert 5] 7 1 (by simp [HeapCall.Positive]) (by decide) 5).mp (by decide)
  exact hfive (by decide)

end ClaimRush.VeClaimNFT
