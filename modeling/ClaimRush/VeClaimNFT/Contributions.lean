import ClaimRush.VeClaimNFT.Accumulators
import Mathlib.Tactic.Lift

/-!
# Contributions of a lock

The arithmetic of the lock mutations on the accumulators alone.  A flat lock
contributes its scaled amount to the bias; a decaying lock contributes a slope
that is scheduled to end with it.  Slopes are added rounded up and removed
rounded down, so a removal never takes more than its lock added.
-/

open Function

namespace ClaimRush.VeClaimNFT

open Constants

namespace GlobalState

variable (g : GlobalState)

/-- Take the contribution of `l` out at time `t`, continuing the signed deltas of
a mutation. -/
def removeContribution (l : Lock) (t : ℕ) (deltaSlope deltaBias : ℤ) :
    Except Error (GlobalState × ℤ × ℤ) :=
  if l.autoMax then do
    let flat ← toInt256 (← uint256 (l.amount * SLOPE_SCALE))
    let deltaBias ← int256 (deltaBias - flat)
    return (g, deltaSlope, deltaBias)
  else do
    let slope ← slopeScaledRemove l.amount
    let slopeI ← toInt256 slope
    let deltaSlope ← int256 (deltaSlope - slopeI)
    let bias ← toInt256 (← uint256 (slope * remainingAt l.lockEnd t))
    let deltaBias ← int256 (deltaBias - bias)
    let g ← g.applySlopeChangeDelta l.lockEnd (-slopeI)
    return (g, deltaSlope, deltaBias)

/-- Put the contribution of `l` in at time `t`, continuing the signed deltas of
a mutation. -/
def addContribution (l : Lock) (t : ℕ) (deltaSlope deltaBias : ℤ) :
    Except Error (GlobalState × ℤ × ℤ) :=
  if l.autoMax then do
    let flat ← toInt256 (← uint256 (l.amount * SLOPE_SCALE))
    let deltaBias ← int256 (deltaBias + flat)
    return (g, deltaSlope, deltaBias)
  else do
    let slope ← slopeScaledAdd l.amount
    let slopeI ← toInt256 slope
    let deltaSlope ← int256 (deltaSlope + slopeI)
    let bias ← toInt256 (← uint256 (slope * remainingAt l.lockEnd t))
    let deltaBias ← int256 (deltaBias + bias)
    let g ← g.applySlopeChangeDelta l.lockEnd slopeI
    return (g, deltaSlope, deltaBias)

/-- The deltas of `_createLock`: `l` arrives. -/
def createContribution (l : Lock) (t : ℕ) : Except Error GlobalState := do
  let (g, deltaSlope, deltaBias) ← g.addContribution l t 0 0
  g.applyGlobalDelta deltaSlope deltaBias

/-- The deltas of `setAutoMax`: `l` becomes `l'`. -/
def toggleContribution (l l' : Lock) (t : ℕ) : Except Error GlobalState := do
  let (g, deltaSlope, deltaBias) ← g.removeContribution l t 0 0
  let (g, deltaSlope, deltaBias) ← g.addContribution l' t deltaSlope deltaBias
  g.applyGlobalDelta deltaSlope deltaBias

/-- The deltas of `_mergeLocksInternal`: both locks leave and `l'` arrives. -/
def mergeContribution (fromL intoL l' : Lock) (t : ℕ) : Except Error GlobalState := do
  let (g, deltaSlope, deltaBias) ← g.removeContribution fromL t 0 0
  let (g, deltaSlope, deltaBias) ← g.removeContribution intoL t deltaSlope deltaBias
  let (g, deltaSlope, deltaBias) ← g.addContribution l' t deltaSlope deltaBias
  g.applyGlobalDelta deltaSlope deltaBias

/-- The deltas of `_addToLock`: `l` grows by `amount` to `newAmt`. -/
def topUpContribution (l : Lock) (amount newAmt t : ℕ) : Except Error GlobalState :=
  if l.autoMax then do
    let deltaBias ← toInt256 (← uint256 (amount * SLOPE_SCALE))
    g.applyGlobalDelta 0 deltaBias
  else do
    let oldSlope ← slopeScaledAdd l.amount
    let newSlope ← slopeScaledAdd newAmt
    let dSlope ← usub newSlope oldSlope
    let dBias ← uint256 (dSlope * remainingAt l.lockEnd t)
    let dSlopeI ← toInt256 dSlope
    let deltaBias ← toInt256 dBias
    let g ← g.applySlopeChangeDelta l.lockEnd dSlopeI
    g.applyGlobalDelta dSlopeI deltaBias

/-- The deltas of `_extendLockToInternal`: the slope of `amount` moves from
`oldEnd` to `newEnd`. -/
def extendContribution (amount oldEnd newEnd t : ℕ) : Except Error GlobalState := do
  let slope ← slopeScaledAdd amount
  let dRem ← usub (remainingAt newEnd t) (remainingAt oldEnd t)
  let deltaBias ← uint256 (slope * dRem)
  let g ← g.applyGlobalDelta 0 (← toInt256 deltaBias)
  let slopeI ← toInt256 slope
  let g ← g.applySlopeChangeDelta oldEnd (-slopeI)
  g.applySlopeChangeDelta newEnd slopeI

/-- The deltas of `_unlockTo`: an expired lock that the checkpoint has not
passed is still part of the totals. -/
def expireContribution (l : Lock) (t : ℕ) : Except Error GlobalState :=
  if l.lockEnd > t then do
    let slope ← slopeScaledRemove l.amount
    let slopeI ← toInt256 slope
    let bias ← uint256 (slope * (l.lockEnd - t))
    let g ← g.applyGlobalDelta (-slopeI) (-(← toInt256 bias))
    g.applySlopeChangeDelta l.lockEnd (-slopeI)
  else return g

/-- The deltas of `furnaceBurnAndWithdraw`: a flat lock always counts, a
decaying one only while the checkpoint has not passed its end. -/
def burnContribution (l : Lock) (t : ℕ) : Except Error GlobalState :=
  if l.autoMax ∨ l.lockEnd > t then do
    let (g, deltaSlope, deltaBias) ← g.removeContribution l t 0 0
    g.applyGlobalDelta deltaSlope deltaBias
  else g.applyGlobalDelta 0 0

end GlobalState

namespace Lock

/-- Bias that does not decay. -/
def flatBias (l : Lock) : ℕ := if l.autoMax then l.amount * SLOPE_SCALE else 0

/-- Slope that has to be scheduled at time `e`. -/
def slopeAt (l : Lock) (e : ℕ) : ℕ :=
  if l.autoMax = false ∧ l.lockEnd = e then ceilSlope l.amount else 0

theorem flatBias_of_autoMax {l : Lock} (h : l.autoMax = true) :
    l.flatBias = l.amount * SLOPE_SCALE := by
  simp [flatBias, h]

theorem flatBias_of_decaying {l : Lock} (h : l.autoMax = false) : l.flatBias = 0 := by
  simp [flatBias, h]

theorem slopeAt_of_autoMax {l : Lock} (h : l.autoMax = true) (e : ℕ) : l.slopeAt e = 0 := by
  simp [slopeAt, h]

theorem slopeAt_of_decaying {l : Lock} (h : l.autoMax = false) (e : ℕ) :
    l.slopeAt e = if e = l.lockEnd then ceilSlope l.amount else 0 := by
  simp [slopeAt, h, eq_comm]

@[simp] theorem flatBias_default : ({} : Lock).flatBias = 0 := rfl

@[simp] theorem slopeAt_default (e : ℕ) : ({} : Lock).slopeAt e = 0 := by
  simp [slopeAt]

end Lock

namespace GlobalState

variable {g : GlobalState}

/-- The accumulators owe `dSlope` and `dBias`, and the schedule covers the
slopes `d` that live locks still need. -/
structure Pending (g : GlobalState) (flat : ℤ) (d : ℕ → ℤ) (dSlope dBias : ℤ) : Prop where
  owes : g.Owes flat dSlope dBias
  covers : ∀ e, g.globalLastTs < e → d e ≤ g.slopeChanges e

/-- Exact accumulators whose schedule covers `d`. -/
structure Backed (g : GlobalState) (flat : ℕ) (d : ℕ → ℤ) : Prop where
  exact : g.Exact flat
  covers : ∀ e, g.globalLastTs < e → d e ≤ g.slopeChanges e

theorem Backed.pending {flat : ℕ} {d : ℕ → ℤ} (h : g.Backed flat d) :
    g.Pending flat d 0 0 :=
  ⟨h.exact.owes, h.covers⟩

/-- The final delta of a mutation. -/
theorem Pending.settle {flat : ℕ} {d : ℕ → ℤ} {dSlope dBias : ℤ}
    (h : g.Pending flat d dSlope dBias)
    (hslope : -(int256Bound : ℤ) < dSlope) (hbias : -(int256Bound : ℤ) < dBias) :
    Outcome (fun g' ↦ g'.Backed flat d ∧ g'.globalLastTs = g.globalLastTs)
      NotViolation (g.applyGlobalDelta dSlope dBias) := by
  refine (h.owes.settle hslope hbias).weaken ?_
  rintro g' ⟨hexact, hlast, hchanges⟩
  refine ⟨⟨hexact, fun e he ↦ ?_⟩, hlast⟩
  rw [hlast] at he
  rw [hchanges]
  exact h.covers e he

/-- One scheduled change of a mutation. -/
theorem Pending.applySlopeChangeDelta {flat : ℤ} {d : ℕ → ℤ} {dSlope dBias delta : ℤ}
    {time : ℕ} (h : g.Pending flat d dSlope dBias) (htime : g.globalLastTs < time)
    (hrange : -(int256Bound : ℤ) < delta)
    (hcover : 0 ≤ (g.slopeChanges time : ℤ) + delta) :
    Outcome (fun g' ↦
        g'.Pending flat (fun e ↦ d e + if e = time then delta else 0) (dSlope + delta)
          (dBias + delta * (time - g.globalLastTs)) ∧
        g'.globalLastTs = g.globalLastTs ∧
        ∀ e, (g'.slopeChanges e : ℤ) = g.slopeChanges e + if e = time then delta else 0)
      NotViolation (g.applySlopeChangeDelta time delta) := by
  refine (h.owes.applySlopeChangeDelta htime hrange hcover).weaken ?_
  rintro g' ⟨howes, hlast, -, -, hchanges⟩
  refine ⟨⟨howes, fun e he ↦ ?_⟩, hlast, hchanges⟩
  rw [hlast] at he
  have := h.covers e he
  rw [hchanges]
  omega

theorem Pending.weaken_demand {flat : ℤ} {d d' : ℕ → ℤ} {dSlope dBias : ℤ}
    (h : g.Pending flat d dSlope dBias) (hle : ∀ e, d' e ≤ d e) :
    g.Pending flat d' dSlope dBias :=
  ⟨h.owes, fun e he ↦ (hle e).trans (h.covers e he)⟩

theorem int256Bound_pos : (0 : ℤ) < int256Bound := by
  decide

/-- What a removal leaves, with the exact deltas and their ranges. -/
structure Removed (g g' : GlobalState) (l : Lock) (flat : ℤ) (d : ℕ → ℤ)
    (dSlope dBias dSlope' dBias' : ℤ) : Prop where
  pending : g'.Pending (flat - l.flatBias) (fun e ↦ d e - l.slopeAt e) dSlope' dBias'
  lastTs : g'.globalLastTs = g.globalLastTs
  bias_ge : -(int256Bound : ℤ) ≤ dBias'
  slope_eq : dSlope' = dSlope - if l.autoMax then 0 else (floorSlope l.amount : ℤ)
  slope_lt : l.autoMax = false → floorSlope l.amount < int256Bound
  slope_ge : l.autoMax = false → -(int256Bound : ℤ) ≤ dSlope'
  bias_removed : ∃ b : ℕ, b < int256Bound ∧ dBias' = dBias - b ∧ (l.amount = 0 → b = 0)

/-- Taking a lock out, as long as the schedule covers it. -/
theorem Pending.removeContribution {flat : ℤ} {d : ℕ → ℤ} {dSlope dBias : ℤ} {l : Lock}
    (h : g.Pending flat d dSlope dBias)
    (hlock : l.autoMax = false →
      g.globalLastTs < l.lockEnd ∧ (l.slopeAt l.lockEnd : ℤ) ≤ d l.lockEnd) :
    Outcome (fun r ↦ Removed g r.1 l flat d dSlope dBias r.2.1 r.2.2) NotViolation
      (g.removeContribution l g.globalLastTs dSlope dBias) := by
  unfold GlobalState.removeContribution
  split_ifs with hauto
  · refine Outcome.uint256_bind notViolation_panic fun _ ↦ ?_
    refine Outcome.toInt256_bind notViolation_safeCast fun hflat ↦ ?_
    refine Outcome.int256_bind notViolation_panic fun hge _ ↦ ?_
    have hshift := h.owes.shift (-(l.amount * SLOPE_SCALE : ℕ))
    refine ⟨⟨?_, fun e he ↦ ?_⟩, rfl, hge, by simp [hauto], by simp [hauto], by simp [hauto],
      _, hflat, rfl, fun h0 ↦ by simp [h0]⟩
    · rw [Lock.flatBias_of_autoMax hauto]
      exact hshift
    · rw [Lock.slopeAt_of_autoMax hauto]
      have := h.covers e he
      dsimp only
      omega
  · have hdecay : l.autoMax = false := by simpa using hauto
    obtain ⟨hend, hcover⟩ := hlock hdecay
    refine Outcome.bind (outcome_slopeScaledRemove _) ?_
    rintro _ rfl
    refine Outcome.toInt256_bind notViolation_safeCast fun hslope ↦ ?_
    refine Outcome.int256_bind notViolation_panic fun hslopeGe _ ↦ ?_
    refine Outcome.uint256_bind notViolation_panic fun _ ↦ ?_
    refine Outcome.toInt256_bind notViolation_safeCast fun hbias ↦ ?_
    refine Outcome.int256_bind notViolation_panic fun hbiasGe _ ↦ ?_
    have hfloor := floorSlope_le_ceilSlope l.amount
    have hsc := h.covers _ hend
    have hneed := l.slopeAt_of_decaying hdecay l.lockEnd
    rw [if_pos rfl] at hneed
    refine Outcome.bind (h.applySlopeChangeDelta hend (by omega) (by omega)) ?_
    rintro g' ⟨hpending, hlast, -⟩
    rw [remainingAt_eq] at hbias hbiasGe ⊢
    refine ⟨⟨?_, fun e he ↦ ?_⟩, hlast, hbiasGe, by simp [hdecay, sub_eq_add_neg],
      fun _ ↦ hslope, fun _ ↦ hslopeGe, _, hbias, rfl, fun h0 ↦ by simp [h0, floorSlope]⟩
    · have howes := hpending.owes
      rw [Lock.flatBias_of_decaying hdecay]
      push_cast [hend.le]
      rw [sub_zero, sub_eq_add_neg, sub_eq_add_neg, ← neg_mul]
      exact howes
    · have := hpending.covers e he
      rw [Lock.slopeAt_of_decaying hdecay]
      dsimp only
      split_ifs at this ⊢ <;> omega

/-- What an addition leaves, with the exact deltas. -/
structure Added (g g' : GlobalState) (l : Lock) (flat : ℤ) (d : ℕ → ℤ)
    (dSlope dBias dSlope' dBias' : ℤ) : Prop where
  pending : g'.Pending (flat + l.flatBias) (fun e ↦ d e + l.slopeAt e) dSlope' dBias'
  lastTs : g'.globalLastTs = g.globalLastTs
  slope_eq : dSlope' = dSlope + if l.autoMax then 0 else (ceilSlope l.amount : ℤ)
  bias_added : ∃ b : ℕ, dBias' = dBias + b ∧ (0 < l.amount → 0 < b)

theorem ceilSlope_pos {amount : ℕ} (h : 0 < amount) : 0 < ceilSlope amount :=
  ceilDiv_pos MAX_LOCK_DURATION_pos (Nat.mul_pos h SLOPE_SCALE_pos)

/-- Putting a lock in whose end, if it decays, lies ahead. -/
theorem Pending.addContribution {flat : ℤ} {d : ℕ → ℤ} {dSlope dBias : ℤ} {l : Lock}
    (h : g.Pending flat d dSlope dBias)
    (hend : l.autoMax = false → g.globalLastTs < l.lockEnd) :
    Outcome (fun r ↦ Added g r.1 l flat d dSlope dBias r.2.1 r.2.2) NotViolation
      (g.addContribution l g.globalLastTs dSlope dBias) := by
  unfold GlobalState.addContribution
  split_ifs with hauto
  · refine Outcome.uint256_bind notViolation_panic fun _ ↦ ?_
    refine Outcome.toInt256_bind notViolation_safeCast fun _ ↦ ?_
    refine Outcome.int256_bind notViolation_panic fun _ _ ↦ ?_
    refine ⟨⟨?_, fun e he ↦ ?_⟩, rfl, by simp [hauto], _, rfl, fun hpos ↦ ?_⟩
    · rw [Lock.flatBias_of_autoMax hauto]
      exact h.owes.shift _
    · rw [Lock.slopeAt_of_autoMax hauto]
      have := h.covers e he
      dsimp only
      omega
    · exact Nat.mul_pos hpos SLOPE_SCALE_pos
  · have hdecay : l.autoMax = false := by simpa using hauto
    have hend := hend hdecay
    refine Outcome.bind (outcome_slopeScaledAdd _) ?_
    rintro _ rfl
    refine Outcome.toInt256_bind notViolation_safeCast fun hslope ↦ ?_
    refine Outcome.int256_bind notViolation_panic fun _ _ ↦ ?_
    refine Outcome.uint256_bind notViolation_panic fun _ ↦ ?_
    refine Outcome.toInt256_bind notViolation_safeCast fun _ ↦ ?_
    refine Outcome.int256_bind notViolation_panic fun _ _ ↦ ?_
    have hpos := int256Bound_pos
    refine Outcome.bind (h.applySlopeChangeDelta hend (by omega) (by omega)) ?_
    rintro g' ⟨hpending, hlast, -⟩
    rw [remainingAt_eq]
    refine ⟨⟨?_, fun e he ↦ ?_⟩, hlast, by simp [hdecay], _, rfl, fun hamount ↦ ?_⟩
    · have howes := hpending.owes
      rw [Lock.flatBias_of_decaying hdecay]
      push_cast [hend.le]
      rw [add_zero]
      exact howes
    · have := hpending.covers e he
      rw [Lock.slopeAt_of_decaying hdecay]
      dsimp only
      split_ifs at this ⊢ <;> omega
    · exact Nat.mul_pos (ceilSlope_pos hamount) (by omega)

/-! ## Whole mutations -/

/-- Exact accumulators that cover `d`, at the same recorded time as before. -/
def Settled (g g' : GlobalState) (flat : ℤ) (d : ℕ → ℤ) : Prop :=
  (∃ flat' : ℕ, (flat' : ℤ) = flat ∧ g'.Backed flat' d) ∧ g'.globalLastTs = g.globalLastTs

theorem Pending.settled {flat : ℤ} {d : ℕ → ℤ} {dSlope dBias : ℤ}
    (h : g.Pending flat d dSlope dBias) (hflat : 0 ≤ flat)
    (hslope : -(int256Bound : ℤ) < dSlope) (hbias : -(int256Bound : ℤ) < dBias) :
    Outcome (fun g' ↦ Settled g g' flat d) NotViolation
      (g.applyGlobalDelta dSlope dBias) := by
  lift flat to ℕ using hflat
  exact (h.settle hslope hbias).weaken fun g' hg' ↦ ⟨⟨flat, rfl, hg'.1⟩, hg'.2⟩

/-- A new lock. -/
theorem Backed.create {flat : ℕ} {d : ℕ → ℤ} {l : Lock} (h : g.Backed flat d)
    (hend : l.autoMax = false → g.globalLastTs < l.lockEnd) :
    Outcome (fun g' ↦ Settled g g' (flat + l.flatBias) fun e ↦ d e + l.slopeAt e)
      NotViolation (g.createContribution l g.globalLastTs) := by
  refine Outcome.bind (h.pending.addContribution hend) ?_
  rintro ⟨g', dSlope, dBias⟩ hadd
  have hpos := int256Bound_pos
  obtain ⟨b, hb, -⟩ := hadd.bias_added
  have hs := hadd.slope_eq
  refine (hadd.pending.settled (by omega) ?_ ?_).weaken
    fun g'' hg'' ↦ ⟨hg''.1, hg''.2.trans hadd.lastTs⟩
  · dsimp only at hs ⊢
    split_ifs at hs <;> omega
  · dsimp only at hb ⊢
    omega

/-- A removal starting from a settled state leaves a slope debt in range. -/
theorem Removed.slope_gt {g g' : GlobalState} {l : Lock} {flat : ℤ} {d : ℕ → ℤ}
    {dBias dSlope' dBias' : ℤ} (h : Removed g g' l flat d 0 dBias dSlope' dBias') :
    -(int256Bound : ℤ) < dSlope' := by
  have hpos := int256Bound_pos
  have hs := h.slope_eq
  cases hauto : l.autoMax with
  | true =>
      rw [hauto, if_pos rfl] at hs
      omega
  | false =>
      have hlt := h.slope_lt hauto
      rw [hauto, if_neg Bool.false_ne_true] at hs
      omega

/-- One lock turned into another. -/
theorem Backed.toggle {flat : ℕ} {d : ℕ → ℤ} {l l' : Lock} (h : g.Backed flat d)
    (hflat : l.flatBias ≤ flat)
    (hlock : l.autoMax = false →
      g.globalLastTs < l.lockEnd ∧ (l.slopeAt l.lockEnd : ℤ) ≤ d l.lockEnd)
    (hend : l'.autoMax = false → g.globalLastTs < l'.lockEnd) :
    Outcome (fun g' ↦ Settled g g' (flat - l.flatBias + l'.flatBias)
        fun e ↦ d e - l.slopeAt e + l'.slopeAt e)
      NotViolation (g.toggleContribution l l' g.globalLastTs) := by
  refine Outcome.bind (h.pending.removeContribution hlock) ?_
  rintro ⟨g₁, dSlope₁, dBias₁⟩ hrem
  have hlast : g₁.globalLastTs = g.globalLastTs := hrem.lastTs
  dsimp only
  rw [← hlast] at hend ⊢
  refine Outcome.bind (hrem.pending.addContribution hend) ?_
  rintro ⟨g₂, dSlope₂, dBias₂⟩ hadd
  obtain ⟨b, hb, -⟩ := hadd.bias_added
  obtain ⟨b', hb', hbEq, -⟩ := hrem.bias_removed
  have hs := hadd.slope_eq
  have hs₁ := hrem.slope_gt
  refine (hadd.pending.settled (by omega) ?_ ?_).weaken
    fun g'' hg'' ↦ ⟨hg''.1, hg''.2.trans (hadd.lastTs.trans hlast)⟩
  · dsimp only at hs hs₁ ⊢
    split_ifs at hs <;> omega
  · dsimp only at hb hbEq ⊢
    omega

/-- Two locks merged into one that holds both amounts. -/
theorem Backed.merge {flat : ℕ} {d : ℕ → ℤ} {fromL intoL l' : Lock} (h : g.Backed flat d)
    (hflat : fromL.flatBias + intoL.flatBias ≤ flat)
    (hfrom : fromL.autoMax = false → g.globalLastTs < fromL.lockEnd)
    (hinto : intoL.autoMax = false → g.globalLastTs < intoL.lockEnd)
    (hcover : ∀ e, (fromL.slopeAt e + intoL.slopeAt e : ℤ) ≤ d e)
    (hamount : l'.amount = intoL.amount + fromL.amount)
    (hmode : l'.autoMax = (intoL.autoMax || fromL.autoMax))
    (hend : l'.autoMax = false → g.globalLastTs < l'.lockEnd) :
    Outcome (fun g' ↦ Settled g g' (flat - fromL.flatBias - intoL.flatBias + l'.flatBias)
        fun e ↦ d e - fromL.slopeAt e - intoL.slopeAt e + l'.slopeAt e)
      NotViolation (g.mergeContribution fromL intoL l' g.globalLastTs) := by
  have hpos := int256Bound_pos
  have hcoverFrom := hcover fromL.lockEnd
  refine Outcome.bind (h.pending.removeContribution fun hd ↦ ⟨hfrom hd, by omega⟩) ?_
  rintro ⟨g₁, dSlope₁, dBias₁⟩ hrem₁
  have hlast₁ : g₁.globalLastTs = g.globalLastTs := hrem₁.lastTs
  dsimp only
  rw [← hlast₁] at hinto hend ⊢
  have hcoverInto := hcover intoL.lockEnd
  refine Outcome.bind
    (hrem₁.pending.removeContribution fun hd ↦ ⟨hinto hd, by omega⟩) ?_
  rintro ⟨g₂, dSlope₂, dBias₂⟩ hrem₂
  have hlast₂ : g₂.globalLastTs = g₁.globalLastTs := hrem₂.lastTs
  dsimp only
  rw [← hlast₂] at hend ⊢
  refine Outcome.bind (hrem₂.pending.addContribution hend) ?_
  rintro ⟨g₃, dSlope₃, dBias₃⟩ hadd
  obtain ⟨b, hb, hbPos⟩ := hadd.bias_added
  obtain ⟨b₁, -, hb₁, hzero₁⟩ := hrem₁.bias_removed
  obtain ⟨b₂, -, hb₂, hzero₂⟩ := hrem₂.bias_removed
  have hge₂ := hrem₂.bias_ge
  have hs₁ := hrem₁.slope_eq
  have hs₂ := hrem₂.slope_eq
  have hs₃ := hadd.slope_eq
  have hgt₁ := hrem₁.slope_gt
  have hlt₂ := hrem₂.slope_lt
  have hge₂' := hrem₂.slope_ge
  dsimp only at hb hbPos hb₁ hb₂ hge₂ hs₁ hs₂ hs₃ hgt₁ hge₂'
  refine (hadd.pending.settled (by omega) ?_ ?_).weaken
    fun g'' hg'' ↦ ⟨hg''.1, hg''.2.trans (hadd.lastTs.trans (hlast₂.trans hlast₁))⟩
  · dsimp only
    cases hf : fromL.autoMax <;> cases hi : intoL.autoMax <;>
      simp only [hf, hi, Bool.or_false, Bool.or_true] at hmode hs₁ hs₂ hlt₂ hge₂'
    · -- Only here are two slopes removed; the new one is positive unless both are zero.
      rw [hmode] at hs₃
      simp only [Bool.false_eq_true, if_false, forall_const] at hs₁ hs₂ hs₃ hlt₂ hge₂'
      rcases Nat.eq_zero_or_pos l'.amount with hnone | hsome
      · have hf0 : fromL.amount = 0 := by omega
        have hi0 : intoL.amount = 0 := by omega
        simp only [hf0, hi0, floorSlope, Nat.zero_mul, Nat.zero_div, Nat.cast_zero] at hs₁ hs₂
        omega
      · have := ceilSlope_pos hsome
        omega
    all_goals
      simp only [Bool.false_eq_true, if_false, if_true, reduceCtorEq, forall_const,
        IsEmpty.forall_iff] at hs₁ hs₂ hlt₂
      rw [hmode] at hs₃
      simp only [if_true] at hs₃
      omega
  · dsimp only
    rcases Nat.eq_zero_or_pos l'.amount with hnone | hsome
    · have hb₁' := hzero₁ (by omega)
      have hb₂' := hzero₂ (by omega)
      omega
    · have := hbPos hsome
      omega

/-- One lock taken out, if it still counts at the recorded time. -/
theorem Backed.burn {flat : ℕ} {d : ℕ → ℤ} {l : Lock} (h : g.Backed flat d)
    (hflat : l.flatBias ≤ flat)
    (hlock : l.autoMax = false → g.globalLastTs < l.lockEnd →
      (l.slopeAt l.lockEnd : ℤ) ≤ d l.lockEnd) :
    Outcome (fun g' ↦ Settled g g' (flat - l.flatBias) fun e ↦ d e - l.slopeAt e)
      NotViolation (g.burnContribution l g.globalLastTs) := by
  unfold burnContribution
  have hpos := int256Bound_pos
  split_ifs with hcounts
  · have hactive : l.autoMax = false → g.globalLastTs < l.lockEnd := by
      intro hdecay
      simpa [hdecay] using hcounts
    refine Outcome.bind
      (h.pending.removeContribution fun hd ↦ ⟨hactive hd, hlock hd (hactive hd)⟩) ?_
    rintro ⟨g', dSlope, dBias⟩ hrem
    obtain ⟨b, hb, hbEq, -⟩ := hrem.bias_removed
    refine (hrem.pending.settled (by omega) hrem.slope_gt ?_).weaken
      fun g'' hg'' ↦ ⟨hg''.1, hg''.2.trans hrem.lastTs⟩
    dsimp only at hbEq ⊢
    omega
  · push Not at hcounts
    have hdecay : l.autoMax = false := by simpa using hcounts.1
    have hpending : g.Pending (flat - l.flatBias) (fun e ↦ d e - l.slopeAt e) 0 0 := by
      rw [Lock.flatBias_of_decaying hdecay, Nat.cast_zero, sub_zero]
      exact h.pending.weaken_demand fun e ↦ by omega
    exact hpending.settled (by omega) (by omega) (by omega)

/-- A lock that grows in place to `r`. -/
theorem Backed.topUp {flat : ℕ} {d : ℕ → ℤ} {l r : Lock} {amount : ℕ} (h : g.Backed flat d)
    (hend : l.autoMax = false → g.globalLastTs < l.lockEnd)
    (hamount : r.amount = l.amount + amount) (hmode : r.autoMax = l.autoMax)
    (hsame : l.autoMax = false → r.lockEnd = l.lockEnd) :
    Outcome (fun g' ↦ Settled g g' (flat - l.flatBias + r.flatBias)
        fun e ↦ d e - l.slopeAt e + r.slopeAt e)
      NotViolation (g.topUpContribution l amount r.amount g.globalLastTs) := by
  unfold topUpContribution
  have hpos := int256Bound_pos
  split_ifs with hauto
  · have hauto' : r.autoMax = true := hmode.trans hauto
    refine Outcome.uint256_bind notViolation_panic fun _ ↦ ?_
    refine Outcome.toInt256_bind notViolation_safeCast fun _ ↦ ?_
    have hflat : (r.flatBias : ℤ) = l.flatBias + (amount * SLOPE_SCALE : ℕ) := by
      rw [Lock.flatBias_of_autoMax hauto, Lock.flatBias_of_autoMax hauto', hamount, Nat.add_mul]
      exact Nat.cast_add _ _
    have hpending : g.Pending (flat - l.flatBias + r.flatBias)
        (fun e ↦ d e - l.slopeAt e + r.slopeAt e) 0 (amount * SLOPE_SCALE : ℕ) := by
      have hshift := h.pending.owes.shift (amount * SLOPE_SCALE : ℕ)
      rw [zero_add] at hshift
      refine ⟨?_, fun e he ↦ ?_⟩
      · rw [hflat, ← add_assoc, sub_add_cancel]
        exact hshift
      · have hcov := h.covers e he
        rw [Lock.slopeAt_of_autoMax hauto, Lock.slopeAt_of_autoMax hauto']
        omega
    exact hpending.settled (by omega) (by omega) (by omega)
  · have hdecay : l.autoMax = false := by simpa using hauto
    have hdecay' : r.autoMax = false := hmode.trans hdecay
    have hend := hend hdecay
    refine Outcome.bind (outcome_slopeScaledAdd _) ?_
    rintro _ rfl
    refine Outcome.bind (outcome_slopeScaledAdd _) ?_
    rintro _ rfl
    refine Outcome.usub_bind notViolation_panic fun hmono ↦ ?_
    refine Outcome.uint256_bind notViolation_panic fun _ ↦ ?_
    refine Outcome.toInt256_bind notViolation_safeCast fun _ ↦ ?_
    refine Outcome.toInt256_bind notViolation_safeCast fun _ ↦ ?_
    refine Outcome.bind (h.pending.applySlopeChangeDelta hend (by omega) (by omega)) ?_
    rintro g' ⟨hpending, hlast, -⟩
    have hdemand : g'.Pending (flat - l.flatBias + r.flatBias)
        (fun e ↦ d e - l.slopeAt e + r.slopeAt e)
        (ceilSlope r.amount - ceilSlope l.amount : ℕ)
        ((ceilSlope r.amount - ceilSlope l.amount) *
          remainingAt l.lockEnd g.globalLastTs : ℕ) := by
      rw [Lock.flatBias_of_decaying hdecay, Lock.flatBias_of_decaying hdecay', remainingAt_eq]
      refine ⟨?_, fun e he ↦ ?_⟩
      · have howes := hpending.owes
        rw [zero_add, zero_add] at howes
        push_cast [hend.le, hmono] at howes ⊢
        rw [sub_zero, add_zero]
        exact howes
      · have hcov := hpending.covers e he
        rw [Lock.slopeAt_of_decaying hdecay, Lock.slopeAt_of_decaying hdecay', hsame hdecay]
        split_ifs at hcov ⊢ <;> omega
    refine (hdemand.settled ?_ (by omega) (by omega)).weaken
      fun g'' hg'' ↦ ⟨hg''.1, hg''.2.trans hlast⟩
    rw [Lock.flatBias_of_decaying hdecay]
    omega

/-- A decaying lock whose end moves further out. -/
theorem Backed.extend {flat : ℕ} {d : ℕ → ℤ} {amount oldEnd newEnd : ℕ}
    (h : g.Backed flat d) (hold : g.globalLastTs < oldEnd) (hnew : oldEnd < newEnd)
    (hcover : (ceilSlope amount : ℤ) ≤ d oldEnd) :
    Outcome (fun g' ↦ Settled g g' flat fun e ↦
        d e - (if e = oldEnd then (ceilSlope amount : ℤ) else 0) +
          if e = newEnd then (ceilSlope amount : ℤ) else 0)
      NotViolation (g.extendContribution amount oldEnd newEnd g.globalLastTs) := by
  unfold extendContribution
  have hpos := int256Bound_pos
  refine Outcome.bind (outcome_slopeScaledAdd _) ?_
  rintro _ rfl
  refine Outcome.usub_bind notViolation_panic fun _ ↦ ?_
  refine Outcome.uint256_bind notViolation_panic fun _ ↦ ?_
  refine Outcome.toInt256_bind notViolation_safeCast fun _ ↦ ?_
  refine Outcome.bind (h.exact.owes.applyGlobalDelta (by omega) (by omega) (by omega)
    (by omega)) ?_
  rintro g₁ ⟨howes, hlast, hchanges⟩
  refine Outcome.toInt256_bind notViolation_safeCast fun _ ↦ ?_
  have hpending : g₁.Pending flat d (0 - 0) (0 - (ceilSlope amount *
      (remainingAt newEnd g.globalLastTs - remainingAt oldEnd g.globalLastTs) : ℕ)) := by
    refine ⟨howes, fun e he ↦ ?_⟩
    rw [hlast] at he
    rw [hchanges]
    exact h.covers e he
  have hsc := hpending.covers oldEnd (by omega)
  refine Outcome.bind (hpending.applySlopeChangeDelta (by omega) (by omega) (by omega)) ?_
  rintro g₂ ⟨hpending₂, hlast₂, -⟩
  refine (hpending₂.applySlopeChangeDelta (by omega) (by omega) (by omega)).weaken ?_
  rintro g₃ ⟨hpending₃, hlast₃, -⟩
  have howes₃ := hpending₃.owes
  have hslopeZero : (0 : ℤ) - 0 + -(ceilSlope amount : ℤ) + ceilSlope amount = 0 := by ring
  have hbiasZero : (0 : ℤ) - (ceilSlope amount *
        (remainingAt newEnd g.globalLastTs - remainingAt oldEnd g.globalLastTs) : ℕ) +
      -(ceilSlope amount : ℤ) * (oldEnd - g₁.globalLastTs) +
      ceilSlope amount * (newEnd - g₂.globalLastTs) = 0 := by
    rw [hlast₂, hlast, remainingAt_eq, remainingAt_eq]
    have hsub : newEnd - g.globalLastTs - (oldEnd - g.globalLastTs) = newEnd - oldEnd := by
      omega
    rw [hsub]
    push_cast [hnew.le]
    ring
  rw [hslopeZero, hbiasZero] at howes₃
  refine ⟨⟨flat, rfl, howes₃.exact, fun e he ↦ ?_⟩, by omega⟩
  have hcov := hpending₃.covers e he
  split_ifs at hcov ⊢ <;> omega

/-- An expired lock that the checkpoint may not have passed yet. -/
theorem Backed.expire {flat : ℕ} {d : ℕ → ℤ} {l : Lock} (h : g.Backed flat d)
    (hdecay : l.autoMax = false)
    (hlock : g.globalLastTs < l.lockEnd → (l.slopeAt l.lockEnd : ℤ) ≤ d l.lockEnd) :
    Outcome (fun g' ↦ Settled g g' flat fun e ↦ d e - l.slopeAt e)
      NotViolation (g.expireContribution l g.globalLastTs) := by
  unfold expireContribution
  split_ifs with hcounts
  · have hcover := hlock hcounts
    have hneed := l.slopeAt_of_decaying hdecay l.lockEnd
    rw [if_pos rfl] at hneed
    have hfloor := floorSlope_le_ceilSlope l.amount
    have hsc := h.covers _ hcounts
    have hfinite := h.exact.at_last.scheduled.finite
    have hslopeEq := h.exact.at_last.slope_eq
    have hbiasEq := h.exact.at_last.bias_eq
    have hslopeLe := le_total hfinite l.lockEnd
    have hbiasLe := mul_le_scheduledBias hfinite l.lockEnd g.globalLastTs
    have hremoved : floorSlope l.amount * (l.lockEnd - g.globalLastTs) ≤
        g.slopeChanges l.lockEnd * (l.lockEnd - g.globalLastTs) :=
      Nat.mul_le_mul_right _ (by omega)
    refine Outcome.bind (outcome_slopeScaledRemove _) ?_
    rintro _ rfl
    refine Outcome.toInt256_bind notViolation_safeCast fun _ ↦ ?_
    refine Outcome.uint256_bind notViolation_panic fun _ ↦ ?_
    refine Outcome.toInt256_bind notViolation_safeCast fun _ ↦ ?_
    refine Outcome.bind (h.exact.owes.applyGlobalDelta (by omega) (by omega) (by omega)
      (by omega)) ?_
    rintro g₁ ⟨howes, hlast, hchanges⟩
    refine (howes.applySlopeChangeDelta (by omega) (by omega) (by rw [hchanges]; omega)).weaken ?_
    rintro g₂ ⟨howes₂, hlast₂, -, -, hchanges₂⟩
    have hslopeZero : (0 : ℤ) - -(floorSlope l.amount : ℤ) + -floorSlope l.amount = 0 := by
      ring
    have hbiasZero : (0 : ℤ) -
          -(floorSlope l.amount * (l.lockEnd - g.globalLastTs) : ℕ) +
        -(floorSlope l.amount : ℤ) * (l.lockEnd - g₁.globalLastTs) = 0 := by
      rw [hlast]
      push_cast [hcounts.le]
      ring
    rw [hslopeZero, hbiasZero] at howes₂
    refine ⟨⟨flat, rfl, howes₂.exact, fun e he ↦ ?_⟩, by omega⟩
    have hcov := h.covers e (by omega)
    rw [hchanges₂, hchanges, l.slopeAt_of_decaying hdecay]
    split_ifs <;> omega
  · refine ⟨⟨flat, rfl, h.exact, fun e he ↦ ?_⟩, rfl⟩
    have hcov := h.covers e he
    omega

end GlobalState

end ClaimRush.VeClaimNFT
