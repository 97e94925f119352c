import ClaimRush.VeClaimNFT.Checkpoint
import ClaimRush.Lib.SlopeSchedule
import Mathlib.Tactic.Zify

/-!
# What the accumulators stand for

`ExactAt g flat t` says that the accumulators are the totals of the schedule at
time `t`, on top of a flat bias `flat`.  `Owes` is the same statement in the
middle of a mutation: some scheduled slopes have been changed, and the global
slope and bias still owe the signed amounts that the final delta pays.
-/

open Function

namespace ClaimRush.VeClaimNFT

open Constants

/-- Every error except the invariant violation that the deltas raise. -/
def NotViolation (e : Error) : Prop := e ≠ .InvariantViolation

/-- Ceiling slope of a lock of `amount`. -/
def ceilSlope (amount : ℕ) : ℕ := ceilDiv (amount * SLOPE_SCALE) MAX_LOCK_DURATION

/-- Floor slope of a lock of `amount`. -/
def floorSlope (amount : ℕ) : ℕ := amount * SLOPE_SCALE / MAX_LOCK_DURATION

theorem floorSlope_le_ceilSlope (amount : ℕ) : floorSlope amount ≤ ceilSlope amount :=
  div_le_ceilDiv _ _

@[simp] theorem ceilSlope_zero : ceilSlope 0 = 0 := by
  simp [ceilSlope]

@[simp] theorem remainingAt_eq (lockEnd t : ℕ) : remainingAt lockEnd t = lockEnd - t := by
  unfold remainingAt
  split <;> omega

@[simp] theorem notViolation_panic : NotViolation HasPanic.arithmetic := by
  simp [NotViolation]

@[simp] theorem notViolation_safeCast : NotViolation .SafeCastOverflow := by
  simp [NotViolation]

theorem outcome_slopeScaledAdd (amount : ℕ) :
    Outcome (· = ceilSlope amount) NotViolation (slopeScaledAdd amount) := by
  unfold slopeScaledAdd
  rw [outcome_mulDivCeil MAX_LOCK_DURATION_pos.ne']
  exact ⟨fun _ ↦ rfl, fun _ ↦ notViolation_panic⟩

theorem outcome_slopeScaledRemove (amount : ℕ) :
    Outcome (· = floorSlope amount) NotViolation (slopeScaledRemove amount) := by
  unfold slopeScaledRemove
  rw [outcome_mulDiv MAX_LOCK_DURATION_pos.ne']
  exact ⟨fun _ ↦ rfl, fun _ ↦ notViolation_panic⟩

namespace GlobalState

/-- The schedule and the heap of its times agree, and every scheduled time lies
after `t`. -/
structure Scheduled (g : GlobalState) (t : ℕ) : Prop where
  finite : FiniteEntries g.slopeChanges
  heap : g.slopeTimes.WellFormed
  mem_iff : ∀ e, g.slopeTimes.Mem e ↔ g.slopeChanges e ≠ 0
  future : ∀ e, g.slopeChanges e ≠ 0 → t < e
  bias_lt : g.globalBiasScaled < uint256Bound

/-- The accumulators are the totals of the schedule at time `t`. -/
structure ExactAt (g : GlobalState) (flat t : ℕ) : Prop where
  scheduled : g.Scheduled t
  slope_eq : g.globalSlopeScaled = total g.slopeChanges
  bias_eq : g.globalBiasScaled = flat + scheduledBias g.slopeChanges t

variable {g : GlobalState}

/-! ## Decay and scheduled changes -/

/-- No clamp of the decay changes the result while the bias covers it. -/
theorem applyDecayToBias_eq {dt : ℕ} (hcover : g.globalSlopeScaled * dt ≤ g.globalBiasScaled)
    (hlt : g.globalBiasScaled < uint256Bound) :
    g.applyDecayToBias dt =
      { g with globalBiasScaled := g.globalBiasScaled - g.globalSlopeScaled * dt } := by
  unfold applyDecayToBias
  dsimp only
  split_ifs with hslope hzero hmul hall
  · have hnone : g.globalSlopeScaled * dt = 0 := by rw [hslope, Nat.zero_mul]
    rw [hnone, Nat.sub_zero]
  · have hpos : 0 < g.globalSlopeScaled := Nat.pos_of_ne_zero hslope
    have hle := (ceilDiv_le_iff hpos).mp hzero
    rw [Nat.mul_comm] at hle
    congr 1
    omega
  · have hpos : 0 < g.globalSlopeScaled := Nat.pos_of_ne_zero hslope
    have hover := (Nat.div_lt_iff_lt_mul hpos).mp hmul
    rw [Nat.mul_comm] at hover
    omega
  · congr 1
    omega
  · rfl

theorem ExactAt.decay {flat t t' : ℕ} (h : g.ExactAt flat t) (ht : t ≤ t')
    (hnone : ∀ e, g.slopeChanges e ≠ 0 → t' ≤ e) :
    g.applyDecayToBias (t' - t) =
      { g with globalBiasScaled := flat + scheduledBias g.slopeChanges t' } := by
  have hadvance := scheduledBias_advance h.scheduled.finite ht hnone
  have hbias := h.bias_eq
  rw [hadvance, ← h.slope_eq] at hbias
  rw [applyDecayToBias_eq (by omega) h.scheduled.bias_lt]
  congr 1
  omega

/-- The logged clamps removed no more than the slope that was there. -/
def ClampsExact (log : List Event) : Prop :=
  ∀ time change slope, Event.SlopeDriftClamped time change slope ∈ log → change ≤ slope

theorem ClampsExact.append {log log' : List Event} (h : ClampsExact log)
    (h' : ClampsExact log') : ClampsExact (log ++ log') := by
  intro time change slope hmem
  rcases List.mem_append.mp hmem with hmem | hmem
  · exact h time change slope hmem
  · exact h' time change slope hmem

/-- Any other event leaves the log exact. -/
theorem ClampsExact.emit {log : List Event} {e : Event} (h : ClampsExact log)
    (he : ∀ time change slope, e ≠ .SlopeDriftClamped time change slope) :
    ClampsExact (log ++ [e]) :=
  h.append fun time change slope hmem ↦
    absurd (List.mem_singleton.mp hmem).symm (he time change slope)

theorem applyScheduledChange_eq {time : ℕ} (hle : g.slopeChanges time ≤ g.globalSlopeScaled) :
    (g.applyScheduledChange time).1 =
        { g with
          globalSlopeScaled := g.globalSlopeScaled - g.slopeChanges time
          slopeChanges := update g.slopeChanges time 0 } ∧
      ClampsExact (g.applyScheduledChange time).2 := by
  unfold applyScheduledChange
  dsimp only
  split_ifs with hzero hclamp
  · refine ⟨?_, by simp [ClampsExact]⟩
    have hupdate : update g.slopeChanges time 0 = g.slopeChanges := by
      rw [← hzero, update_eq_self]
    rw [hupdate, hzero, Nat.sub_zero]
  · refine ⟨?_, ?_⟩
    · rw [Nat.sub_eq_zero_of_le hclamp]
    · intro t' c' s' hmem
      simp only [List.mem_singleton, Event.SlopeDriftClamped.injEq] at hmem
      obtain ⟨rfl, rfl, rfl⟩ := hmem
      exact hle
  · exact ⟨rfl, by simp [ClampsExact]⟩

/-! ## The checkpoint -/

theorem heapMin_eq_zero_iff {t : ℕ} (h : g.Scheduled t) :
    g.heapMin = 0 ↔ ∀ e, g.slopeChanges e = 0 := by
  unfold heapMin
  cases hmin : g.slopeTimes.min? with
  | none =>
      refine ⟨fun _ e ↦ ?_, fun _ ↦ rfl⟩
      by_contra hne
      exact h.heap.min?_eq_none hmin e ((h.mem_iff e).mpr hne)
  | some m =>
      obtain ⟨hm, -⟩ := h.heap.min?_eq_some hmin
      have hpos := h.future m ((h.mem_iff m).mp hm)
      simp only [Option.getD_some]
      refine ⟨fun hzero ↦ by omega, fun hall ↦ absurd (hall m) ((h.mem_iff m).mp hm)⟩

/-- A non-zero minimum is a scheduled time, and no scheduled time precedes it. -/
theorem heapMin_spec {t : ℕ} (h : g.Scheduled t) (hne : g.heapMin ≠ 0) :
    g.slopeTimes.min? = some g.heapMin ∧ g.slopeChanges g.heapMin ≠ 0 ∧
      ∀ e, g.slopeChanges e ≠ 0 → g.heapMin ≤ e := by
  unfold heapMin at hne ⊢
  cases hmin : g.slopeTimes.min? with
  | none => simp [hmin] at hne
  | some m =>
      obtain ⟨hm, hle⟩ := h.heap.min?_eq_some hmin
      exact ⟨rfl, (h.mem_iff m).mp hm, fun e he ↦ hle e ((h.mem_iff e).mpr he)⟩

/-- No scheduled time is due at `nowTs` when the loop stops on its head. -/
theorem not_due {t nowTs : ℕ} (h : g.Scheduled t)
    (hstop : g.heapMin = 0 ∨ g.heapMin > nowTs) (e : ℕ) (he : g.slopeChanges e ≠ 0) :
    nowTs < e := by
  by_cases hzero : g.heapMin = 0
  · exact absurd ((heapMin_eq_zero_iff h).mp hzero e) he
  · have hle := (heapMin_spec h hzero).2.2 e he
    omega

/-- One bucket: decay to its time, take its slope out, drop it from the heap. -/
theorem ExactAt.drain_eq {flat t nextTime : ℕ} (h : g.ExactAt flat t)
    (hmin : g.slopeTimes.min? = some nextTime) :
    let decayed := if nextTime - t > 0 then g.applyDecayToBias (nextTime - t) else g
    (decayed.applyScheduledChange nextTime).1.heapPopMin =
        { g with
          globalSlopeScaled := g.globalSlopeScaled - g.slopeChanges nextTime
          globalBiasScaled := flat + scheduledBias g.slopeChanges nextTime
          slopeChanges := update g.slopeChanges nextTime 0
          slopeTimes := g.slopeTimes.remove nextTime } ∧
      ClampsExact (decayed.applyScheduledChange nextTime).2 := by
  intro decayed
  obtain ⟨hmem, hle⟩ := h.scheduled.heap.min?_eq_some hmin
  have hdue : t < nextTime := h.scheduled.future _ ((h.scheduled.mem_iff _).mp hmem)
  have hdecayed : decayed =
      { g with globalBiasScaled := flat + scheduledBias g.slopeChanges nextTime } := by
    have hpos : nextTime - t > 0 := by omega
    simp only [decayed, if_pos hpos]
    exact h.decay hdue.le fun e he ↦ hle e ((h.scheduled.mem_iff e).mpr he)
  have hslope : g.slopeChanges nextTime ≤ g.globalSlopeScaled :=
    h.slope_eq ▸ le_total h.scheduled.finite nextTime
  rw [hdecayed]
  obtain ⟨hchange, hclamps⟩ := applyScheduledChange_eq (g :=
    { g with globalBiasScaled := flat + scheduledBias g.slopeChanges nextTime }) hslope
  refine ⟨?_, hclamps⟩
  rw [hchange]
  simp only [heapPopMin, hmin, heapRemove]

theorem Scheduled.remove {t : ℕ} (h : g.Scheduled t) (time slope bias : ℕ)
    (hbias : bias < uint256Bound) :
    Scheduled
      { g with
        globalSlopeScaled := slope
        globalBiasScaled := bias
        slopeChanges := update g.slopeChanges time 0
        slopeTimes := g.slopeTimes.remove time } t := by
  obtain ⟨hwf, hmem⟩ := IndexedHeap.remove_spec h.heap time
  refine ⟨h.finite.update time 0, hwf, ?_, ?_, hbias⟩
  · intro e
    rw [hmem, h.mem_iff]
    by_cases he : e = time <;> simp [he]
  · intro e he
    by_cases het : e = time
    · simp [het] at he
    · exact h.future e (by simpa [het] using he)

theorem ExactAt.drain {flat t nextTime : ℕ} (h : g.ExactAt flat t)
    (hmin : g.slopeTimes.min? = some nextTime) :
    ExactAt
      { g with
        globalSlopeScaled := g.globalSlopeScaled - g.slopeChanges nextTime
        globalBiasScaled := flat + scheduledBias g.slopeChanges nextTime
        slopeChanges := update g.slopeChanges nextTime 0
        slopeTimes := g.slopeTimes.remove nextTime } flat nextTime := by
  obtain ⟨hmem, hle⟩ := h.scheduled.heap.min?_eq_some hmin
  have hdue : t < nextTime := h.scheduled.future _ ((h.scheduled.mem_iff _).mp hmem)
  have hfinite := h.scheduled.finite
  have hadvance := scheduledBias_advance hfinite hdue.le
    fun e he ↦ hle e ((h.scheduled.mem_iff e).mpr he)
  have hlt := h.scheduled.bias_lt
  have hbias := h.bias_eq
  have hremoved := h.scheduled.remove nextTime
    (g.globalSlopeScaled - g.slopeChanges nextTime)
    (flat + scheduledBias g.slopeChanges nextTime) (by omega)
  refine ⟨⟨hremoved.finite, hremoved.heap, hremoved.mem_iff, ?_, hremoved.bias_lt⟩, ?_, ?_⟩
  · intro e he
    have hne : e ≠ nextTime := by
      rintro rfl
      simp at he
    have hold : g.slopeChanges e ≠ 0 := by simpa [hne] using he
    have := hle e ((h.scheduled.mem_iff e).mpr hold)
    omega
  · have htotal := total_update hfinite nextTime 0
    have hslope := h.slope_eq
    change g.globalSlopeScaled - g.slopeChanges nextTime =
      total (update g.slopeChanges nextTime 0)
    omega
  · change flat + scheduledBias g.slopeChanges nextTime = flat + scheduledBias _ _
    rw [scheduledBias_clear hfinite le_rfl]

/-- What the loop leaves: exact accumulators at the last processed time, the
later schedule untouched, and nothing due unless the budget ran out. -/
structure Processed (g g' : GlobalState) (flat t t' nowTs : ℕ) : Prop where
  exact : g'.ExactAt flat t'
  le : t ≤ t'
  le_now : t' ≤ nowTs
  later : ∀ e, t' < e → g'.slopeChanges e = g.slopeChanges e
  lastTs : g'.globalLastTs = g.globalLastTs

theorem checkpointLoop_spec (nowTs budget : ℕ) {flat t : ℕ} {log : List Event}
    (h : g.ExactAt flat t) (hnow : t ≤ nowTs) (hlog : ClampsExact log) :
    Outcome (fun r ↦ Processed g r.1 flat t r.2.1 nowTs ∧ ClampsExact r.2.2)
      (fun _ ↦ False) (checkpointLoop nowTs budget g t log) := by
  induction budget generalizing g t log with
  | zero => exact ⟨⟨h, le_rfl, hnow, fun _ _ ↦ rfl, rfl⟩, hlog⟩
  | succ budget ih =>
      rw [checkpointLoop]
      dsimp only
      split_ifs with hstop
      · exact ⟨⟨h, le_rfl, hnow, fun _ _ ↦ rfl, rfl⟩, hlog⟩
      · push Not at hstop
        obtain ⟨hmin, hkey, -⟩ := heapMin_spec h.scheduled hstop.1
        have hdue := h.scheduled.future _ hkey
        obtain ⟨heq, hclamps⟩ := h.drain_eq hmin
        rw [Outcome.bind_iff, outcome_usub]
        refine ⟨fun _ ↦ ?_, fun hlt ↦ hlt hdue.le⟩
        have hrec := ih (h.drain hmin) hstop.2 (hlog.append hclamps)
        rw [← heq] at hrec
        refine hrec.weaken fun r hr ↦
          ⟨⟨hr.1.exact, hdue.le.trans hr.1.le, hr.1.le_now, ?_, ?_⟩, hr.2⟩
        · intro e he
          have hne : e ≠ g.heapMin := by
            have := hr.1.le
            omega
          rw [hr.1.later e he, heq]
          exact update_of_ne hne _ _
        · rw [hr.1.lastTs, heq]

/-- The accumulators are exact at the recorded time, and the cached total is
the current bias rounded up. -/
structure Exact (g : GlobalState) (flat : ℕ) : Prop where
  at_last : g.ExactAt flat g.globalLastTs
  cached : g.totalVeCached = ceilDiv g.globalBiasScaled SLOPE_SCALE
  started : 0 < g.globalLastTs

/-- A checkpoint keeps the accumulators exact, never moves the recorded time
back or past the block, and leaves the later schedule alone. -/
structure Checkpointed (g g' : GlobalState) (flat nowTs : ℕ) : Prop where
  exact : g'.Exact flat
  le : g.globalLastTs ≤ g'.globalLastTs
  le_now : g'.globalLastTs ≤ nowTs
  later : ∀ e, g'.globalLastTs < e → g'.slopeChanges e = g.slopeChanges e

/-- `_checkpointGlobalStateInternal` with `cap` for the limit per call. -/
def checkpointCapped (g : GlobalState) (cap nowTs : ℕ) :
    Except Error (GlobalState × List Event) := do
  let t := if g.globalLastTs = 0 then nowTs else g.globalLastTs
  let (g, t, log) ← checkpointLoop nowTs cap g t []
  let head := g.heapMin
  if head = 0 ∨ head > nowTs then
    let dt2 ← usub nowTs t
    let g := if dt2 > 0 then g.applyDecayToBias dt2 else g
    return ({ g with globalLastTs := nowTs }.syncTotalVeCached, log)
  else
    return ({ g with globalLastTs := t }.syncTotalVeCached, log)

theorem checkpointGlobalStateInternal_eq (nowTs : ℕ) :
    g.checkpointGlobalStateInternal nowTs =
      g.checkpointCapped MAX_SLOPE_CHANGES_PER_CALL nowTs := rfl

theorem checkpointCapped_spec {flat nowTs : ℕ} (h : g.Exact flat) (hnow : g.globalLastTs ≤ nowTs)
    (cap : ℕ) :
    Outcome (fun r ↦ Checkpointed g r.1 flat nowTs ∧ ClampsExact r.2) (fun _ ↦ False)
      (g.checkpointCapped cap nowTs) := by
  have hstart : (if g.globalLastTs = 0 then nowTs else g.globalLastTs) = g.globalLastTs :=
    if_neg h.started.ne'
  unfold checkpointCapped
  simp only [hstart]
  refine Outcome.bind
    (checkpointLoop_spec nowTs cap h.at_last hnow (by simp [ClampsExact])) ?_
  rintro ⟨g', t', log⟩ ⟨hp, hclamps⟩
  dsimp only at hp hclamps ⊢
  have hstarted := h.started
  have hle := hp.le
  split_ifs with hcaught
  · rw [Outcome.bind_iff, outcome_usub]
    refine ⟨fun _ ↦ ?_, fun hlt ↦ hlt hp.le_now⟩
    have hnotdue := not_due hp.exact.scheduled hcaught
    have hdecayed : (if nowTs - t' > 0 then g'.applyDecayToBias (nowTs - t') else g') =
        { g' with globalBiasScaled := flat + scheduledBias g'.slopeChanges nowTs } := by
      split_ifs with hpos
      · exact hp.exact.decay hp.le_now fun e he ↦ (hnotdue e he).le
      · have heq : nowTs = t' := by
          have := hp.le_now
          omega
        rw [heq, ← hp.exact.bias_eq]
    rw [hdecayed]
    have hadvance := scheduledBias_advance hp.exact.scheduled.finite hp.le_now
      fun e he ↦ (hnotdue e he).le
    have hbias := hp.exact.bias_eq
    have hlt := hp.exact.scheduled.bias_lt
    refine ⟨⟨⟨⟨⟨?_, ?_, ?_, ?_, ?_⟩, ?_, rfl⟩, rfl, ?_⟩, ?_, le_rfl, ?_⟩, hclamps⟩
    · exact hp.exact.scheduled.finite
    · exact hp.exact.scheduled.heap
    · exact hp.exact.scheduled.mem_iff
    · exact hnotdue
    · change flat + scheduledBias g'.slopeChanges nowTs < uint256Bound
      omega
    · exact hp.exact.slope_eq
    · change 0 < nowTs
      omega
    · exact hnow
    · intro e he
      exact hp.later e (lt_of_le_of_lt hp.le_now he)
  · refine ⟨⟨⟨⟨⟨?_, ?_, ?_, ?_, ?_⟩, ?_, ?_⟩, rfl, ?_⟩, hle, hp.le_now, hp.later⟩, hclamps⟩
    · exact hp.exact.scheduled.finite
    · exact hp.exact.scheduled.heap
    · exact hp.exact.scheduled.mem_iff
    · exact hp.exact.scheduled.future
    · exact hp.exact.scheduled.bias_lt
    · exact hp.exact.slope_eq
    · exact hp.exact.bias_eq
    · change 0 < t'
      omega

theorem checkpointGlobalStateInternal_spec {flat nowTs : ℕ} (h : g.Exact flat)
    (hnow : g.globalLastTs ≤ nowTs) :
    Outcome (fun r ↦ Checkpointed g r.1 flat nowTs ∧ ClampsExact r.2) (fun _ ↦ False)
      (g.checkpointGlobalStateInternal nowTs) :=
  checkpointCapped_spec h hnow MAX_SLOPE_CHANGES_PER_CALL

/-! ## Deltas -/

/-- Between the first scheduled change of a mutation and its final delta: the
slope owes `dSlope` and the bias `dBias`, on top of the flat bias `flat`. -/
structure Owes (g : GlobalState) (flat dSlope dBias : ℤ) : Prop where
  scheduled : g.Scheduled g.globalLastTs
  cached : g.totalVeCached = ceilDiv g.globalBiasScaled SLOPE_SCALE
  started : 0 < g.globalLastTs
  slope_eq : (g.globalSlopeScaled : ℤ) + dSlope = total g.slopeChanges
  bias_eq : (g.globalBiasScaled : ℤ) + dBias =
    flat + scheduledBias g.slopeChanges g.globalLastTs

theorem Exact.owes {flat : ℕ} (h : g.Exact flat) : g.Owes flat 0 0 where
  scheduled := h.at_last.scheduled
  cached := h.cached
  started := h.started
  slope_eq := by
    have := h.at_last.slope_eq
    omega
  bias_eq := by
    have := h.at_last.bias_eq
    omega

/-- When nothing is owed the accumulators are exact. -/
theorem Owes.exact {flat : ℕ} (h : g.Owes flat 0 0) : g.Exact flat where
  at_last :=
    { scheduled := h.scheduled
      slope_eq := by
        have := h.slope_eq
        omega
      bias_eq := by
        have := h.bias_eq
        omega }
  cached := h.cached
  started := h.started

/-- A change of the flat bias is owed by the global bias. -/
theorem Owes.shift {flat dSlope dBias : ℤ} (h : g.Owes flat dSlope dBias) (k : ℤ) :
    g.Owes (flat + k) dSlope (dBias + k) where
  scheduled := h.scheduled
  cached := h.cached
  started := h.started
  slope_eq := h.slope_eq
  bias_eq := by
    have := h.bias_eq
    omega

theorem addSigned_spec {cur : ℕ} {delta : ℤ} {Q : ℕ → Prop}
    (hrange : -(int256Bound : ℤ) < delta) (hnonneg : 0 ≤ (cur : ℤ) + delta)
    (hQ : ∀ n : ℕ, (n : ℤ) = cur + delta → (cur < uint256Bound → n < uint256Bound) → Q n) :
    Outcome Q NotViolation (addSigned cur delta) := by
  unfold addSigned
  split_ifs with hpos
  · rw [outcome_uint256]
    exact ⟨fun hlt ↦ hQ _ (by omega) fun _ ↦ hlt, fun _ ↦ by simp [NotViolation]⟩
  · simp only [Outcome.bind_iff, outcome_revertIf, Outcome.pure_iff]
    refine ⟨fun hmin ↦ absurd hmin hrange.ne', fun _ ↦ ⟨fun hlt ↦ by omega, fun hge ↦ ?_⟩⟩
    exact hQ _ (by omega) fun hlt ↦ by omega

/-- Paying what the slope and the bias owe. -/
theorem Owes.applyGlobalDelta {flat dSlope dBias eSlope eBias : ℤ}
    (h : g.Owes flat dSlope dBias)
    (hslope : -(int256Bound : ℤ) < eSlope) (hbias : -(int256Bound : ℤ) < eBias)
    (hslope' : 0 ≤ (g.globalSlopeScaled : ℤ) + eSlope)
    (hbias' : 0 ≤ (g.globalBiasScaled : ℤ) + eBias) :
    Outcome (fun g' ↦ g'.Owes flat (dSlope - eSlope) (dBias - eBias) ∧
        g'.globalLastTs = g.globalLastTs ∧ g'.slopeChanges = g.slopeChanges)
      NotViolation (g.applyGlobalDelta eSlope eBias) := by
  have hslopeEq := h.slope_eq
  have hbiasEq := h.bias_eq
  unfold GlobalState.applyGlobalDelta
  refine Outcome.bind (addSigned_spec hslope hslope' fun n hn _ ↦ hn) ?_
  intro slope hn
  dsimp only
  split_ifs with hzero
  · refine ⟨⟨?_, h.cached, h.started, ?_, ?_⟩, rfl, rfl⟩
    · exact ⟨h.scheduled.finite, h.scheduled.heap, h.scheduled.mem_iff, h.scheduled.future,
        h.scheduled.bias_lt⟩
    · change (slope : ℤ) + _ = (total g.slopeChanges : ℤ)
      omega
    · change (g.globalBiasScaled : ℤ) + _ =
        flat + (scheduledBias g.slopeChanges g.globalLastTs : ℤ)
      omega
  · refine Outcome.bind (addSigned_spec hbias hbias' fun n hn hlt ↦ And.intro hn hlt) ?_
    rintro bias ⟨hbn, hblt⟩
    refine ⟨⟨?_, rfl, h.started, ?_, ?_⟩, rfl, rfl⟩
    · exact ⟨h.scheduled.finite, h.scheduled.heap, h.scheduled.mem_iff, h.scheduled.future,
        hblt h.scheduled.bias_lt⟩
    · change (slope : ℤ) + _ = (total g.slopeChanges : ℤ)
      omega
    · change (bias : ℤ) + _ = flat + (scheduledBias g.slopeChanges g.globalLastTs : ℤ)
      omega

/-- Paying exactly what is owed never underflows. -/
theorem Owes.settle {flat : ℕ} {dSlope dBias : ℤ} (h : g.Owes flat dSlope dBias)
    (hslope : -(int256Bound : ℤ) < dSlope) (hbias : -(int256Bound : ℤ) < dBias) :
    Outcome (fun g' ↦ g'.Exact flat ∧ g'.globalLastTs = g.globalLastTs ∧
        g'.slopeChanges = g.slopeChanges)
      NotViolation (g.applyGlobalDelta dSlope dBias) := by
  have hslopeEq := h.slope_eq
  have hbiasEq := h.bias_eq
  refine (h.applyGlobalDelta hslope hbias (by omega) (by omega)).weaken ?_
  rintro g' ⟨howes, hrest⟩
  rw [sub_self, sub_self] at howes
  exact ⟨howes.exact, hrest⟩

/-- The heap after the slope at `time` has become `next`. -/
theorem Scheduled.write {t time next : ℕ} (h : g.Scheduled t) (htime : t < time) :
    Outcome (fun g' ↦ g'.Scheduled t ∧
        g'.slopeChanges = update g.slopeChanges time next ∧
        g'.globalSlopeScaled = g.globalSlopeScaled ∧
        g'.globalBiasScaled = g.globalBiasScaled ∧
        g'.globalLastTs = g.globalLastTs ∧ g'.totalVeCached = g.totalVeCached)
      NotViolation
      (let g := { g with slopeChanges := update g.slopeChanges time next }
      if next = 0 then
        return if g.slopeTimes.index time ≠ 0 then g.heapRemove time else g
      else if g.slopeTimes.index time = 0 then g.heapInsert time
      else return g) := by
  have hfuture : ∀ e, update g.slopeChanges time next e ≠ 0 → t < e := by
    intro e he
    by_cases het : e = time
    · exact het ▸ htime
    · exact h.future e (by simpa [het] using he)
  have hfinite := h.finite.update time next
  dsimp only
  split_ifs with hnext hmem hmem
  · obtain ⟨hwf, hkeys⟩ := IndexedHeap.remove_spec h.heap time
    refine ⟨⟨hfinite, hwf, ?_, hfuture, h.bias_lt⟩, rfl, rfl, rfl, rfl, rfl⟩
    intro e
    change (g.slopeTimes.remove time).Mem e ↔ update g.slopeChanges time next e ≠ 0
    rw [hkeys, h.mem_iff]
    by_cases he : e = time <;> simp [he, hnext]
  · refine ⟨⟨hfinite, h.heap, ?_, hfuture, h.bias_lt⟩, rfl, rfl, rfl, rfl, rfl⟩
    intro e
    change g.slopeTimes.Mem e ↔ update g.slopeChanges time next e ≠ 0
    by_cases he : e = time
    · subst he
      simpa [hnext, IndexedHeap.Mem] using hmem
    · simpa [he] using h.mem_iff e
  · obtain ⟨hwf, hkeys⟩ := IndexedHeap.insert_spec h.heap time
    unfold heapInsert
    rw [Outcome.bind_iff, outcome_revertIf]
    refine ⟨fun hzero ↦ by omega, fun _ ↦
      ⟨⟨hfinite, hwf, ?_, hfuture, h.bias_lt⟩, rfl, rfl, rfl, rfl, rfl⟩⟩
    intro e
    change (g.slopeTimes.insert time).Mem e ↔ update g.slopeChanges time next e ≠ 0
    rw [hkeys, h.mem_iff]
    by_cases he : e = time <;> simp [he, hnext]
  · refine ⟨⟨hfinite, h.heap, ?_, hfuture, h.bias_lt⟩, rfl, rfl, rfl, rfl, rfl⟩
    intro e
    change g.slopeTimes.Mem e ↔ update g.slopeChanges time next e ≠ 0
    by_cases he : e = time
    · subst he
      simpa [hnext, IndexedHeap.Mem] using hmem
    · simpa [he] using h.mem_iff e

/-- A change of one scheduled slope is owed by the slope and the bias. -/
theorem Owes.applySlopeChangeDelta {flat dSlope dBias delta : ℤ} {time : ℕ}
    (h : g.Owes flat dSlope dBias) (htime : g.globalLastTs < time)
    (hrange : -(int256Bound : ℤ) < delta)
    (hcover : 0 ≤ (g.slopeChanges time : ℤ) + delta) :
    Outcome (fun g' ↦
        g'.Owes flat (dSlope + delta) (dBias + delta * (time - g.globalLastTs)) ∧
        g'.globalLastTs = g.globalLastTs ∧
        g'.globalSlopeScaled = g.globalSlopeScaled ∧
        g'.globalBiasScaled = g.globalBiasScaled ∧
        ∀ e, (g'.slopeChanges e : ℤ) = g.slopeChanges e + if e = time then delta else 0)
      NotViolation (g.applySlopeChangeDelta time delta) := by
  unfold GlobalState.applySlopeChangeDelta
  split_ifs with hzero
  · subst hzero
    refine ⟨?_, rfl, rfl, rfl, fun e ↦ by simp⟩
    simpa using h
  refine Outcome.bind (addSigned_spec hrange hcover fun n hn _ ↦ hn) ?_
  intro next hnext
  refine (h.scheduled.write htime).weaken ?_
  rintro g' ⟨hsched, hchanges, hslope, hbias, hlast, hcached⟩
  have hupdate := total_update h.scheduled.finite time next
  have hbiasUpdate := scheduledBias_update h.scheduled.finite time next g.globalLastTs
  have hslopeEq := h.slope_eq
  have hbiasEq := h.bias_eq
  refine ⟨⟨?_, ?_, ?_, ?_, ?_⟩, hlast, hslope, hbias, ?_⟩
  · rw [hlast]
    exact hsched
  · rw [hcached, hbias, h.cached]
  · rw [hlast]
    exact h.started
  · rw [hslope, hchanges]
    omega
  · rw [hbias, hlast, hchanges]
    zify [htime.le] at hbiasUpdate
    rw [hnext] at hbiasUpdate
    linarith
  · intro e
    rw [hchanges]
    by_cases he : e = time
    · subst he
      simpa using hnext
    · simp [he]

end GlobalState

end ClaimRush.VeClaimNFT
