import ClaimRush.VeClaimNFT.Runs
import Mathlib.Data.Set.Card

/-!
# The cap on a checkpoint

A checkpoint takes a bounded number of scheduled slopes and continues from the
last one in the next call.  However the calls are spread, at equal recorded
times the accumulators equal those of a single checkpoint without the bound, and
a backlog is worked off by repeated calls.
-/

open Function

namespace ClaimRush.VeClaimNFT

open Constants

namespace GlobalState

variable {g g' g'' : GlobalState} {flat t nowTs : ℕ}

/-- One checkpoint that takes every scheduled slope that is due. -/
def checkpointAll (g : GlobalState) (nowTs : ℕ) : Except Error (GlobalState × List Event) :=
  g.checkpointCapped g.slopeTimes.size nowTs

/-- The scheduled times that are due at `nowTs`. -/
def due (g : GlobalState) (nowTs : ℕ) : Set ℕ := {e | g.slopeChanges e ≠ 0 ∧ e ≤ nowTs}

theorem due_finite (g : GlobalState) (nowTs : ℕ) : (g.due nowTs).Finite :=
  (Set.finite_le_nat nowTs).subset fun _ he ↦ he.2

theorem MAX_SLOPE_CHANGES_PER_CALL_pos : 0 < MAX_SLOPE_CHANGES_PER_CALL := by
  simp [MAX_SLOPE_CHANGES_PER_CALL]

theorem applyDecayToBias_slopeChanges (dt : ℕ) :
    (g.applyDecayToBias dt).slopeChanges = g.slopeChanges := by
  unfold applyDecayToBias
  dsimp only
  split_ifs
  all_goals rfl

/-! ## Composition -/

theorem Checkpointed.refl (h : g.Exact flat) (hnow : g.globalLastTs ≤ nowTs) :
    Checkpointed g g flat nowTs :=
  ⟨h, le_rfl, hnow, fun _ _ ↦ rfl⟩

theorem Checkpointed.trans {nowTs' : ℕ} (h : Checkpointed g g' flat nowTs)
    (h' : Checkpointed g' g'' flat nowTs') : Checkpointed g g'' flat nowTs' where
  exact := h'.exact
  le := h.le.trans h'.le
  le_now := h'.le_now
  later e he := (h'.later e he).trans (h.later e (h'.le.trans_lt he))

/-- What is left of the schedule: exactly the times after the recorded one. -/
theorem Checkpointed.slopeChanges_eq (h : Checkpointed g g' flat nowTs) :
    g'.slopeChanges = fun e ↦ if g'.globalLastTs < e then g.slopeChanges e else 0 := by
  funext e
  split_ifs with hlater
  · exact h.later e hlater
  · by_contra hne
    exact hlater (h.exact.at_last.scheduled.future e hne)

/-- The accumulators, the scheduled slopes and their times, and the cached total. -/
structure SameAccumulators (g g' : GlobalState) : Prop where
  bias : g'.globalBiasScaled = g.globalBiasScaled
  slope : g'.globalSlopeScaled = g.globalSlopeScaled
  changes : g'.slopeChanges = g.slopeChanges
  times : ∀ e, g'.slopeTimes.Mem e ↔ g.slopeTimes.Mem e
  cached : g'.totalVeCached = g.totalVeCached

/-- Two ways to the same recorded time end in the same accumulators. -/
theorem Checkpointed.same {nowTs' : ℕ} (h : Checkpointed g g' flat nowTs)
    (h' : Checkpointed g g'' flat nowTs') (htime : g'.globalLastTs = g''.globalLastTs) :
    SameAccumulators g' g'' := by
  have hchanges : g''.slopeChanges = g'.slopeChanges := by
    rw [h.slopeChanges_eq, h'.slopeChanges_eq, htime]
  have hbias : g''.globalBiasScaled = g'.globalBiasScaled := by
    rw [h.exact.at_last.bias_eq, h'.exact.at_last.bias_eq, hchanges, htime]
  refine ⟨hbias, ?_, hchanges, fun e ↦ ?_, ?_⟩
  · rw [h.exact.at_last.slope_eq, h'.exact.at_last.slope_eq, hchanges]
  · rw [h.exact.at_last.scheduled.mem_iff, h'.exact.at_last.scheduled.mem_iff, hchanges]
  · rw [h.exact.cached, h'.exact.cached, hbias]

/-! ## Progress -/

/-- The loop reaches at least the first scheduled time that is due. -/
theorem checkpointLoop_advances {budget : ℕ} {log : List Event} {r : GlobalState × ℕ × List Event}
    (h : g.ExactAt flat t) (hlog : ClampsExact log) (hmin : g.heapMin ≠ 0)
    (hdue : g.heapMin ≤ nowTs) (hrun : checkpointLoop nowTs (budget + 1) g t log = .ok r) :
    g.heapMin ≤ r.2.1 := by
  obtain ⟨hroot, -, -⟩ := heapMin_spec h.scheduled hmin
  obtain ⟨heq, hclamps⟩ := h.drain_eq hroot
  rw [checkpointLoop] at hrun
  dsimp only at hrun
  rw [if_neg (by omega)] at hrun
  obtain ⟨dt, hdt, hrun⟩ := bind_eq_ok_iff.mp hrun
  obtain ⟨-, rfl⟩ := usub_eq_ok.mp hdt
  have hdrained := h.drain hroot
  rw [← heq] at hdrained
  exact ((checkpointLoop_spec nowTs budget hdrained hdue (hlog.append hclamps)).of_ok hrun).1.le

/-- With a budget for every scheduled time, nothing stays due. -/
theorem checkpointLoop_exhausts {budget : ℕ} {log : List Event} {r : GlobalState × ℕ × List Event}
    (h : g.ExactAt flat t) (hbudget : g.slopeTimes.size ≤ budget)
    (hrun : checkpointLoop nowTs budget g t log = .ok r) :
    ∀ e, r.1.slopeChanges e ≠ 0 → nowTs < e := by
  induction budget generalizing g t log with
  | zero =>
      obtain rfl := Except.ok.inj hrun
      intro e he
      have hmem := (h.scheduled.mem_iff e).mpr he
      have hle := h.scheduled.heap.index_le e hmem
      exact absurd (Nat.le_zero.mp (hle.trans hbudget)) hmem
  | succ budget ih =>
      rw [checkpointLoop] at hrun
      dsimp only at hrun
      split_ifs at hrun with hstop
      · obtain rfl := Except.ok.inj hrun
        exact not_due h.scheduled hstop
      · push Not at hstop
        obtain ⟨hroot, hkey, -⟩ := heapMin_spec h.scheduled hstop.1
        obtain ⟨heq, -⟩ := h.drain_eq hroot
        obtain ⟨dt, hdt, hrun⟩ := bind_eq_ok_iff.mp hrun
        obtain ⟨-, rfl⟩ := usub_eq_ok.mp hdt
        have hdrained := h.drain hroot
        have hsize : (g.slopeTimes.remove g.heapMin).size ≤ budget := by
          rw [IndexedHeap.remove_size ((h.scheduled.mem_iff _).mpr hkey)]
          omega
        rw [← heq] at hdrained
        refine ih hdrained ?_ hrun
        rw [heq]
        exact hsize

/-- A checkpoint is the loop, then either the decay up to the block or a stop at
the last processed time. -/
theorem checkpointCapped_run {cap : ℕ} {r : GlobalState × List Event} (h : g.Exact flat)
    (hrun : g.checkpointCapped cap nowTs = .ok r) :
    ∃ p, checkpointLoop nowTs cap g g.globalLastTs [] = .ok p ∧
      r.1.slopeChanges = p.1.slopeChanges ∧
      (r.1.globalLastTs = nowTs ∨
        r.1.globalLastTs = p.2.1 ∧ p.1.heapMin ≠ 0 ∧ p.1.heapMin ≤ nowTs) := by
  have hstart : (if g.globalLastTs = 0 then nowTs else g.globalLastTs) = g.globalLastTs :=
    if_neg h.started.ne'
  unfold checkpointCapped at hrun
  simp only [hstart] at hrun
  obtain ⟨⟨g', t', log⟩, hloop, hrun⟩ := bind_eq_ok_iff.mp hrun
  refine ⟨_, hloop, ?_⟩
  dsimp only at hrun ⊢
  split_ifs at hrun with hcaught
  · obtain ⟨dt, -, hrun⟩ := bind_eq_ok_iff.mp hrun
    obtain rfl := Except.ok.inj hrun
    refine ⟨?_, .inl rfl⟩
    change (if dt > 0 then g'.applyDecayToBias dt else g').slopeChanges = g'.slopeChanges
    split_ifs
    · exact applyDecayToBias_slopeChanges dt
    · rfl
  · obtain rfl := Except.ok.inj hrun
    push Not at hcaught
    exact ⟨rfl, .inr ⟨rfl, hcaught⟩⟩

/-- The checkpoint without the bound arrives at the block. -/
theorem checkpointAll_spec (h : g.Exact flat) (hnow : g.globalLastTs ≤ nowTs) :
    ∃ r, g.checkpointAll nowTs = .ok r ∧ Checkpointed g r.1 flat nowTs ∧
      r.1.globalLastTs = nowTs := by
  obtain ⟨r, hrun, hr, -⟩ := Outcome.exists_ok (checkpointCapped_spec h hnow g.slopeTimes.size)
  refine ⟨r, hrun, hr, ?_⟩
  obtain ⟨p, hloop, -, hlast | ⟨-, hmin, hdue⟩⟩ := checkpointCapped_run h hrun
  · exact hlast
  · have hexact := ((checkpointLoop_spec nowTs _ h.at_last hnow (by simp [ClampsExact])).of_ok
      hloop).1.exact
    have hlater := checkpointLoop_exhausts h.at_last le_rfl hloop _
      (heapMin_spec hexact.scheduled hmin).2.1
    omega

/-- A checkpoint with slopes due takes at least the first of them. -/
theorem checkpoint_progress {r : GlobalState × List Event} (h : g.Exact flat)
    (hnow : g.globalLastTs ≤ nowTs) (hdue : (g.due nowTs).Nonempty)
    (hrun : g.checkpointGlobalStateInternal nowTs = .ok r) :
    g.globalLastTs < r.1.globalLastTs ∧
      ∃ e ∈ g.due nowTs, r.1.slopeChanges e = 0 ∧ ¬ r.1.slopeTimes.Mem e := by
  have hspec := ((checkpointGlobalStateInternal_spec h hnow).of_ok hrun).1
  obtain ⟨e, he, hle⟩ := hdue
  have hmin : g.heapMin ≠ 0 := fun hzero ↦
    he ((heapMin_eq_zero_iff h.at_last.scheduled).mp hzero e)
  obtain ⟨-, hkey, hfirst⟩ := heapMin_spec h.at_last.scheduled hmin
  have hminDue : g.heapMin ≤ nowTs := (hfirst e he).trans hle
  have hlater := h.at_last.scheduled.future _ hkey
  have hreached : g.heapMin ≤ r.1.globalLastTs := by
    obtain ⟨p, hloop, -, hlast | ⟨hlast, -⟩⟩ := checkpointCapped_run h hrun
    · exact hminDue.trans hlast.ge
    · obtain ⟨cap, hcap⟩ := Nat.exists_eq_succ_of_ne_zero MAX_SLOPE_CHANGES_PER_CALL_pos.ne'
      rw [hcap] at hloop
      rw [hlast]
      exact checkpointLoop_advances h.at_last (by simp [ClampsExact]) hmin hminDue hloop
  have hgone : r.1.slopeChanges g.heapMin = 0 := by
    by_contra hne
    have := hspec.exact.at_last.scheduled.future _ hne
    omega
  refine ⟨hlater.trans_le hreached, g.heapMin, ⟨hkey, hminDue⟩, hgone, fun hmem ↦ ?_⟩
  exact (hspec.exact.at_last.scheduled.mem_iff _).mp hmem hgone

/-- Checkpoints at the given times, one call each. -/
def checkpoints : List ℕ → GlobalState → Except Error GlobalState
  | [], g => .ok g
  | nowTs :: times, g => do
      let (g, _) ← g.checkpointGlobalStateInternal nowTs
      checkpoints times g

theorem checkpoints_spec {times : List ℕ} (h : g.Exact flat)
    (hsorted : (g.globalLastTs :: times).IsChain (· ≤ ·)) :
    ∃ g', checkpoints times g = .ok g' ∧
      Checkpointed g g' flat (times.getLastD g.globalLastTs) := by
  induction times generalizing g with
  | nil => exact ⟨g, rfl, .refl h le_rfl⟩
  | cons nowTs times ih =>
      obtain ⟨hnow, hsorted⟩ := List.isChain_cons_cons.mp hsorted
      obtain ⟨⟨g₁, log⟩, hrun, hg₁, -⟩ :=
        Outcome.exists_ok (checkpointGlobalStateInternal_spec h hnow)
      have hrest : (g₁.globalLastTs :: times).IsChain (· ≤ ·) := by
        cases times with
        | nil => exact List.isChain_singleton _
        | cons next times =>
            obtain ⟨hnext, htail⟩ := List.isChain_cons_cons.mp hsorted
            exact List.isChain_cons_cons.mpr ⟨hg₁.le_now.trans hnext, htail⟩
      obtain ⟨g', hrest, hg'⟩ := ih hg₁.exact hrest
      refine ⟨g', ?_, ?_⟩
      · rw [checkpoints, hrun]
        exact hrest
      · rw [List.getLastD_cons]
        refine hg₁.trans { hg' with le_now := hg'.le_now.trans ?_ }
        cases times with
        | nil => exact hg₁.le_now
        | cons next times => exact le_rfl

/-- More calls at one time than slopes are due then catch up with it. -/
theorem checkpoints_catch_up (h : g.Exact flat) (hnow : g.globalLastTs ≤ nowTs) {n : ℕ}
    (hn : (g.due nowTs).ncard < n) :
    ∃ g', checkpoints (List.replicate n nowTs) g = .ok g' ∧ g'.globalLastTs = nowTs := by
  induction n generalizing g with
  | zero => exact absurd hn (Nat.not_lt_zero _)
  | succ n ih =>
      obtain ⟨⟨g₁, log⟩, hrun, hg₁, -⟩ :=
        Outcome.exists_ok (checkpointGlobalStateInternal_spec h hnow)
      have hsplit : checkpoints (List.replicate (n + 1) nowTs) g =
          checkpoints (List.replicate n nowTs) g₁ := by
        rw [List.replicate_succ, checkpoints, hrun]
        rfl
      rw [hsplit]
      by_cases hcaught : g₁.globalLastTs = nowTs
      · have hsorted : (g₁.globalLastTs :: List.replicate n nowTs).IsChain (· ≤ ·) := by
          rw [hcaught, ← List.replicate_succ]
          exact List.isChain_replicate_of_rel _ le_rfl
        obtain ⟨g', hrest, hg'⟩ := checkpoints_spec hg₁.exact hsorted
        refine ⟨g', hrest, le_antisymm ?_ (hcaught ▸ hg'.le)⟩
        refine hg'.le_now.trans ?_
        rw [List.getLastD_eq_getLast?, List.getLast?_replicate]
        split_ifs
        · exact hcaught.le
        · exact le_rfl
      · have hdue : (g.due nowTs).Nonempty := by
          obtain ⟨p, hloop, -, hlast | ⟨-, hmin, hle⟩⟩ := checkpointCapped_run h hrun
          · exact absurd hlast hcaught
          · have hp := ((checkpointLoop_spec nowTs _ h.at_last hnow (by simp [ClampsExact])).of_ok
              hloop).1
            have hkey := (heapMin_spec hp.exact.scheduled hmin).2.1
            have hlater := hp.later _ (hp.exact.scheduled.future _ hkey)
            exact ⟨p.1.heapMin, hlater ▸ hkey, hle⟩
        obtain ⟨-, e, he, hgone, -⟩ := checkpoint_progress h hnow hdue hrun
        refine ih hg₁.exact hg₁.le_now (lt_of_lt_of_le ?_ (Nat.lt_succ_iff.mp hn))
        refine Set.ncard_lt_ncard ⟨fun x hx ↦ ?_, fun hsub ↦ (hsub he).1 hgone⟩
          (g.due_finite nowTs)
        refine ⟨fun hzero ↦ hx.1 ?_, hx.2⟩
        have hlater := hg₁.exact.at_last.scheduled.future x hx.1
        exact (hg₁.later x hlater).trans hzero

end GlobalState

open GlobalState

/-- From exact accumulators any sequence of checkpoints ends as one checkpoint
without the bound at the recorded time would; a call with slopes due moves the
recorded time and drops a scheduled one; and repeated calls reach any time. -/
theorem checkpoints_refine_uncapped {s : VeState} {flat : ℕ} (h : s.global.Exact flat) :
    (∀ times : List ℕ, (s.global.globalLastTs :: times).IsChain (· ≤ ·) →
      ∃ g r, checkpoints times s.global = .ok g ∧
        s.global.checkpointAll g.globalLastTs = .ok r ∧
        r.1.globalLastTs = g.globalLastTs ∧ SameAccumulators r.1 g) ∧
      (∀ (nowTs : ℕ) (r : GlobalState × List Event), s.global.globalLastTs ≤ nowTs →
        (s.global.due nowTs).Nonempty →
        s.global.checkpointGlobalStateInternal nowTs = .ok r →
        s.global.globalLastTs < r.1.globalLastTs ∧
          ∃ e ∈ s.global.due nowTs, r.1.slopeChanges e = 0 ∧ ¬ r.1.slopeTimes.Mem e) ∧
      ∀ nowTs, s.global.globalLastTs ≤ nowTs →
        ∃ n g, checkpoints (List.replicate n nowTs) s.global = .ok g ∧ g.globalLastTs = nowTs := by
  refine ⟨fun times hsorted ↦ ?_, fun nowTs r hnow hdue hrun ↦ checkpoint_progress h hnow hdue hrun,
    fun nowTs hnow ↦ ?_⟩
  · obtain ⟨g, hrun, hg⟩ := checkpoints_spec h hsorted
    obtain ⟨r, hall, hr, hlast⟩ := checkpointAll_spec h hg.le
    exact ⟨g, r, hrun, hall, hlast, hr.same hg hlast⟩
  · obtain ⟨g, hrun, hlast⟩ := checkpoints_catch_up h hnow (Nat.lt_succ_self _)
    exact ⟨_, g, hrun, hlast⟩

/-! ## Two decaying locks -/

/-- A call of the Furnace, `delay` seconds after the first second. -/
def furnaceCall (delay : ℕ) : Call := bundleCall (delay + 1) 3 (Nat.succ_pos delay)

/-- A week's lock of user 7 and a fortnight's lock of user 8. -/
def heldRun : Except Error (World Unit) := do
  let w ← bundleRun
  exec acceptingPort (furnaceCall 199) w (.createLockFor 8 (1500 * 10 ^ 18) 1209600 false)

/-- Both slopes decay, and both are scheduled. -/
def HeldTwo (g : GlobalState) : Prop :=
  g.globalLastTs = 200 ∧ g.globalBiasScaled ≠ 0 ∧ g.globalSlopeScaled ≠ 0 ∧
    g.slopeChanges 605000 ≠ 0 ∧ g.slopeChanges 1209800 ≠ 0
  deriving Decidable

/-- Four checkpoints, before, between and after the ends of the locks. -/
theorem checkpoints_refine_uncapped_held :
    ∃ w g r, heldRun = .ok w ∧ HeldTwo w.ve.global ∧
      checkpoints [300, 605100, 605100, 1300000] w.ve.global = .ok g ∧
      w.ve.global.checkpointAll g.globalLastTs = .ok r ∧
      r.1.globalLastTs = g.globalLastTs ∧ SameAccumulators r.1 g := by
  have hok : heldRun.toOption.any (fun w ↦ decide (HeldTwo w.ve.global)) = true := by
    decide +kernel
  obtain ⟨w, hrun, hheld⟩ := exists_ok_of_any hok
  have hheld := of_decide_eq_true hheld
  obtain ⟨w₂, hbundle, hagain⟩ := bind_eq_ok_iff.mp hrun
  obtain ⟨w₁, hwire, hcreate⟩ := bind_eq_ok_iff.mp hbundle
  have hstart : (system acceptingPort).Reachable ⟨100, bundleWorld⟩ :=
    .init ⟨bundleCall 100 9 (by decide), rfl, 1, 2, 9, rfl⟩
  have hwired := hstart.step (.op (bundleCall 100 9 (by decide)) _ le_rfl hwire)
  have hcreated := hwired.step (.op (bundleCall 200 3 (by decide)) _ (by simp [bundleCall]) hcreate)
  have htwo := hcreated.step (.op (furnaceCall 199) _ le_rfl hagain)
  obtain ⟨g, r, hg, hall, hlast, hsame⟩ :=
    (checkpoints_refine_uncapped (reachable_sound htwo).accounted.backed.exact).1
      [300, 605100, 605100, 1300000] (by rw [hheld.1]; decide)
  exact ⟨w, g, r, hrun, hheld, hg, hall, hlast, hsame⟩

end ClaimRush.VeClaimNFT
