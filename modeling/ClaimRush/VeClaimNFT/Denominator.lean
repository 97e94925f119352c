import ClaimRush.VeClaimNFT.Residue
import Mathlib.Algebra.Order.Field.Basic
import Mathlib.Data.Rat.Cast.Order
import Mathlib.Tactic.FieldSimp

/-!
# The cached total as a denominator

The ve balance of a user is a floor for each lock; the cached total is one
ceiling of the bias.  The total is never below the sum of the balances, at any
later time, and right after a checkpoint it is above it only by the rounding of
each live lock and by the residue of early removals.
-/

open Function

namespace ClaimRush.VeClaimNFT

open Constants GlobalState VeState

/-- One step of the loop of `veBalanceOf`. -/
def VeState.addVeOf (s : VeState) (nowTs ve tokenId : ℕ) : Except Error ℕ :=
  let l := s.locks tokenId
  let amt := l.amount
  if amt = 0 then .ok ve
  else if l.autoMax then uint256 (ve + amt)
  else if l.lockEnd ≤ nowTs then .ok ve
  else do
    let remaining := l.lockEnd - nowTs
    uint256 (ve + (← mulDiv amt remaining MAX_LOCK_DURATION))

/-- `veBalanceOf` in a block at `nowTs`. -/
def VeState.veBalanceOf (s : VeState) (nowTs : ℕ) (user : Address) : Except Error ℕ :=
  (s.ownedTokens user).foldlM (s.addVeOf nowTs) 0

/-- `totalVeCurrent`. -/
def VeState.totalVeCurrent (s : VeState) : ℕ := ceilDiv s.global.globalBiasScaled SLOPE_SCALE

namespace Lock

/-- The ve of one lock, rounded down once. -/
def veAt (l : Lock) (nowTs : ℕ) : ℕ :=
  if l.autoMax then l.amount else l.amount * (l.lockEnd - nowTs) / MAX_LOCK_DURATION

/-- Slope that a decaying lock needs. -/
def slope (l : Lock) : ℕ := if l.autoMax then 0 else ceilSlope l.amount

/-- The lock decays and has not ended. -/
def Decaying (l : Lock) (nowTs : ℕ) : Prop := l.autoMax = false ∧ nowTs < l.lockEnd

instance (l : Lock) (nowTs : ℕ) : Decidable (l.Decaying nowTs) := by
  unfold Decaying
  infer_instance

variable {l : Lock} {t nowTs : ℕ}

theorem veAt_of_amount_zero (h : l.amount = 0) : l.veAt nowTs = 0 := by
  simp [veAt, h]

/-- The contribution of the lock to the bias covers its ve at any later time. -/
theorem veAt_mul_le (l : Lock) (h : t ≤ nowTs) :
    SLOPE_SCALE * l.veAt nowTs ≤ l.flatBias + l.slope * (l.lockEnd - t) := by
  cases hauto : l.autoMax with
  | true => simp [veAt, flatBias, slope, hauto, Nat.mul_comm]
  | false =>
      simp only [veAt, flatBias, slope, hauto, Bool.false_eq_true, if_false, Nat.zero_add]
      have hfloor := Nat.div_mul_le_self (l.amount * (l.lockEnd - nowTs)) MAX_LOCK_DURATION
      have hslope := le_ceilDiv_mul (l.amount * SLOPE_SCALE) MAX_LOCK_DURATION_pos
      refine Nat.le_of_mul_le_mul_right ?_ MAX_LOCK_DURATION_pos
      calc
        SLOPE_SCALE * (l.amount * (l.lockEnd - nowTs) / MAX_LOCK_DURATION) * MAX_LOCK_DURATION =
            SLOPE_SCALE *
              (l.amount * (l.lockEnd - nowTs) / MAX_LOCK_DURATION * MAX_LOCK_DURATION) := by
          ring
        _ ≤ SLOPE_SCALE * (l.amount * (l.lockEnd - nowTs)) := Nat.mul_le_mul_left _ hfloor
        _ = l.amount * SLOPE_SCALE * (l.lockEnd - nowTs) := by ring
        _ ≤ ceilSlope l.amount * MAX_LOCK_DURATION * (l.lockEnd - nowTs) :=
          Nat.mul_le_mul_right _ hslope
        _ ≤ ceilSlope l.amount * MAX_LOCK_DURATION * (l.lockEnd - t) :=
          Nat.mul_le_mul_left _ (Nat.sub_le_sub_left h _)
        _ = ceilSlope l.amount * (l.lockEnd - t) * MAX_LOCK_DURATION := by ring

/-- The contribution exceeds the ve by less than one wei, and less than the
rounding of one slope over the maximal duration. -/
theorem contribution_le (l : Lock) (h : l.lockEnd ≤ t + MAX_LOCK_DURATION) :
    l.flatBias + l.slope * (l.lockEnd - t) ≤ SLOPE_SCALE * l.veAt t +
      if l.Decaying t then SLOPE_SCALE + MAX_LOCK_DURATION else 0 := by
  cases hauto : l.autoMax with
  | true => simp [veAt, flatBias, slope, Decaying, hauto, Nat.mul_comm]
  | false =>
      simp only [veAt, flatBias, slope, Decaying, hauto, Bool.false_eq_true, if_false,
        Nat.zero_add, true_and]
      split_ifs with hend
      · have hremaining : l.lockEnd - t ≤ MAX_LOCK_DURATION := by omega
        have hslope := (ceilDiv_mul_lt (l.amount * SLOPE_SCALE) MAX_LOCK_DURATION_pos).le
        have hfloor := (Nat.lt_div_mul_add (a := l.amount * (l.lockEnd - t))
          MAX_LOCK_DURATION_pos).le
        refine Nat.le_of_mul_le_mul_right ?_ MAX_LOCK_DURATION_pos
        calc
          ceilSlope l.amount * (l.lockEnd - t) * MAX_LOCK_DURATION =
              ceilSlope l.amount * MAX_LOCK_DURATION * (l.lockEnd - t) := by ring
          _ ≤ (l.amount * SLOPE_SCALE + MAX_LOCK_DURATION) * (l.lockEnd - t) :=
            Nat.mul_le_mul_right _ hslope
          _ = SLOPE_SCALE * (l.amount * (l.lockEnd - t)) +
              MAX_LOCK_DURATION * (l.lockEnd - t) := by ring
          _ ≤ SLOPE_SCALE * (l.amount * (l.lockEnd - t) / MAX_LOCK_DURATION *
                MAX_LOCK_DURATION + MAX_LOCK_DURATION) +
              MAX_LOCK_DURATION * MAX_LOCK_DURATION :=
            Nat.add_le_add (Nat.mul_le_mul_left _ hfloor) (Nat.mul_le_mul_left _ hremaining)
          _ = (SLOPE_SCALE * (l.amount * (l.lockEnd - t) / MAX_LOCK_DURATION) +
              (SLOPE_SCALE + MAX_LOCK_DURATION)) * MAX_LOCK_DURATION := by ring
      · rw [Nat.sub_eq_zero_of_le (not_lt.mp hend), Nat.mul_zero]
        exact Nat.zero_le _

end Lock

/-! ## Sums over all locks -/

section Sums

variable {locks : ℕ → Lock}

theorem FiniteLocks.veAt (h : FiniteLocks locks) (nowTs : ℕ) :
    FiniteEntries fun id ↦ (locks id).veAt nowTs :=
  h.mono fun _ hid ↦ Lock.veAt_of_amount_zero hid

theorem FiniteLocks.slopes (h : FiniteLocks locks) : FiniteEntries fun id ↦ (locks id).slope :=
  h.mono fun id hid ↦ by simp [Lock.slope, hid]

theorem FiniteLocks.decaying (h : FiniteLocks locks) (t : ℕ) :
    FiniteEntries fun id ↦ (locks id).slope * ((locks id).lockEnd - t) :=
  h.slopes.mono fun id hid ↦ by rw [hid, Nat.zero_mul]

/-- The demanded slopes are those of the locks, grouped by their ends. -/
theorem fiberTotal_slope (locks : ℕ → Lock) :
    fiberTotal (fun id ↦ (locks id).slope) (fun id ↦ (locks id).lockEnd) = demand locks := by
  funext e
  refine congrArg total (funext fun id ↦ ?_)
  cases hauto : (locks id).autoMax <;> simp [Lock.slope, Lock.slopeAt, hauto]

/-- The contributions of all locks are the flat bias and the demanded one. -/
theorem FiniteLocks.total_contribution (h : FiniteLocks locks) (t : ℕ) :
    total (fun id ↦ (locks id).flatBias + (locks id).slope * ((locks id).lockEnd - t)) =
      flatBias locks + scheduledBias (demand locks) t := by
  rw [total_add h.flat (h.decaying t), total_decaying h.slopes, fiberTotal_slope]
  rfl

theorem FiniteLocks.demand (h : FiniteLocks locks) : FiniteEntries (demand locks) :=
  fiberTotal_slope locks ▸ h.slopes.fibers _

end Sums

section Residue

/-- The residue of the recorded removals decays like slopes of one unit. -/
theorem scheduledBias_count (ends : List ℕ) (t : ℕ) :
    FiniteEntries (fun e ↦ ends.count e) ∧
      scheduledBias (fun e ↦ ends.count e) t = (ends.map fun e ↦ e - t).sum := by
  induction ends with
  | nil => exact ⟨finiteEntries_zero, scheduledBias_zero t⟩
  | cons a ends ih =>
      obtain ⟨hfinite, hsum⟩ := ih
      have hcons : (fun e ↦ (a :: ends).count e) =
          update (fun e ↦ ends.count e) a (ends.count a + 1) := by
        funext e
        by_cases he : e = a
        · simp [he]
        · simp [he, Ne.symm he]
      have hupdate := scheduledBias_update hfinite a (ends.count a + 1) t
      refine ⟨hcons ▸ hfinite.update a _, ?_⟩
      rw [hcons, List.map_cons, List.sum_cons, ← hsum]
      rw [Nat.add_mul, Nat.one_mul] at hupdate
      omega

/-- Only the removals whose end lies ahead still count. -/
theorem residue_le {ends : List ℕ} {t bound : ℕ} (h : ∀ e ∈ ends, e ≤ t + bound) :
    (ends.map fun e ↦ e - t).sum ≤ (ends.countP (t < ·)) * bound := by
  induction ends with
  | nil => exact Nat.zero_le _
  | cons a ends ih =>
      have hle := ih fun e he ↦ h e (List.mem_cons_of_mem _ he)
      have ha := h a List.mem_cons_self
      rw [List.map_cons, List.sum_cons, List.countP_cons, Nat.add_mul]
      by_cases hlt : t < a
      · simp only [hlt, decide_true, if_true, Nat.one_mul]
        omega
      · simp only [hlt, decide_false, Bool.false_eq_true, if_false, Nat.zero_mul]
        omega

end Residue

/-! ## The bias and the balances -/

namespace VeState

variable {s : VeState}

theorem addVeOf_eq {nowTs ve tokenId : ℕ}
    (h : ve + (s.locks tokenId).veAt nowTs < uint256Bound) :
    s.addVeOf nowTs ve tokenId = .ok (ve + (s.locks tokenId).veAt nowTs) := by
  unfold addVeOf
  dsimp only
  split_ifs with hzero hauto hended
  · rw [Lock.veAt_of_amount_zero hzero, Nat.add_zero]
  · have hve : (s.locks tokenId).veAt nowTs = (s.locks tokenId).amount := by
      simp [Lock.veAt, hauto]
    rw [hve] at h ⊢
    exact uint256_eq_ok.mpr ⟨h, rfl⟩
  · simp [Lock.veAt, hauto, Nat.sub_eq_zero_of_le hended]
  · have hve : (s.locks tokenId).veAt nowTs = (s.locks tokenId).amount *
        ((s.locks tokenId).lockEnd - nowTs) / MAX_LOCK_DURATION := by
      simp [Lock.veAt, hauto]
    rw [hve] at h ⊢
    refine bind_eq_ok_iff.mpr ⟨_, mulDiv_eq_ok.mpr ⟨MAX_LOCK_DURATION_pos.ne', ?_, rfl⟩, ?_⟩
    · omega
    · exact uint256_eq_ok.mpr ⟨h, rfl⟩

theorem foldlM_addVeOf {nowTs : ℕ} (ids : List ℕ) {ve : ℕ}
    (h : ve + (ids.map fun id ↦ (s.locks id).veAt nowTs).sum < uint256Bound) :
    ids.foldlM (s.addVeOf nowTs) ve =
      .ok (ve + (ids.map fun id ↦ (s.locks id).veAt nowTs).sum) := by
  induction ids generalizing ve with
  | nil => rfl
  | cons id ids ih =>
      rw [List.map_cons, List.sum_cons, ← Nat.add_assoc] at h ⊢
      rw [List.foldlM_cons, addVeOf_eq (by omega)]
      exact ih h

/-- Sum of the ve of all locks. -/
noncomputable def totalVe (s : VeState) (nowTs : ℕ) : ℕ := total fun id ↦ (s.locks id).veAt nowTs

/-- The bias covers the ve of all locks at any later time. -/
theorem Accounted.totalVe_mul_le (h : s.Accounted) {nowTs : ℕ}
    (hnow : s.global.globalLastTs ≤ nowTs) :
    SLOPE_SCALE * s.totalVe nowTs ≤ s.global.globalBiasScaled := by
  have hexact := h.backed.exact.at_last
  have hscaled : FiniteEntries fun id ↦ SLOPE_SCALE * (s.locks id).veAt nowTs :=
    (h.finite.veAt nowTs).mono fun id hid ↦ by rw [hid, Nat.mul_zero]
  calc
    SLOPE_SCALE * s.totalVe nowTs = total fun id ↦ SLOPE_SCALE * (s.locks id).veAt nowTs :=
      (total_mul_left (h.finite.veAt nowTs) _).symm
    _ ≤ total fun id ↦ (s.locks id).flatBias +
          (s.locks id).slope * ((s.locks id).lockEnd - s.global.globalLastTs) :=
      total_mono hscaled (h.finite.flat.add (h.finite.decaying _))
        fun id ↦ (s.locks id).veAt_mul_le hnow
    _ = flatBias s.locks + scheduledBias (demand s.locks) s.global.globalLastTs :=
      h.finite.total_contribution _
    _ ≤ flatBias s.locks + scheduledBias s.global.slopeChanges s.global.globalLastTs := by
      refine Nat.add_le_add_left (scheduledBias_mono h.finite.demand hexact.scheduled.finite
        fun e he ↦ ?_) _
      exact_mod_cast h.backed.covers e he
    _ = s.global.globalBiasScaled := hexact.bias_eq.symm

theorem Accounted.totalVe_le (h : s.Accounted) {nowTs : ℕ}
    (hnow : s.global.globalLastTs ≤ nowTs) : s.totalVe nowTs ≤ s.global.totalVeCached := by
  have hle := h.totalVe_mul_le hnow
  have hceil := le_ceilDiv_mul s.global.globalBiasScaled SLOPE_SCALE_pos
  rw [h.backed.exact.cached]
  refine Nat.le_of_mul_le_mul_right ?_ SLOPE_SCALE_pos
  rw [Nat.mul_comm]
  exact hle.trans hceil

/-- The ve of all locks fits a word, so no balance reverts. -/
theorem Accounted.veBalanceOf_eq (h : s.Accounted) (henum : s.Enumerated) {nowTs : ℕ}
    (hnow : s.global.globalLastTs ≤ nowTs) (user : Address) :
    s.veBalanceOf nowTs user =
      .ok (fiberTotal (fun id ↦ (s.locks id).veAt nowTs) s.owners user) := by
  have hfinite := h.finite.veAt nowTs
  have hsum : ((s.ownedTokens user).map fun id ↦ (s.locks id).veAt nowTs).sum =
      fiberTotal (fun id ↦ (s.locks id).veAt nowTs) s.owners user := by
    by_cases huser : user = 0
    · have hnone : s.ownedTokens user = [] := by
        refine List.eq_nil_iff_forall_not_mem.mpr fun id hid ↦ ?_
        exact ((Enumerates.mem_iff henum user id).mp hid).1 huser
      rw [hnone]
      refine ((total_eq_zero_iff (hfinite.restrict _)).mpr fun id ↦ ?_).symm
      split_ifs with howner
      · rw [h.burned id (howner.trans huser)]
        exact Lock.veAt_of_amount_zero rfl
      · rfl
    · exact Enumerates.sum_eq henum _ huser
  have hscale := Nat.le_mul_of_pos_left (s.totalVe nowTs) SLOPE_SCALE_pos
  have hlt := h.backed.exact.at_last.scheduled.bias_lt
  have hle := h.totalVe_mul_le hnow
  have hpart : fiberTotal (fun id ↦ (s.locks id).veAt nowTs) s.owners user ≤ s.totalVe nowTs :=
    (le_total (hfinite.fibers s.owners) user).trans (total_fibers hfinite s.owners).le
  rw [veBalanceOf, foldlM_addVeOf _ (by omega), Nat.zero_add, hsum]

end VeState

section Runs

variable {S : Type} {port : IShareholderRoyalties S}

/-- Royalties calls never touch the enumeration. -/
theorem enumeration_rules (port : IShareholderRoyalties S) :
    HoldingRules port (fun _ _ ↦ True) fun x y ↦ x.1.Enumerated → y.1.Enumerated where
  refl _ := id
  trans h h' := h' ∘ h
  lock h := h.enumerated
  checkpointUser _ _ := ⟨id, trivial, fun _ _ ↦ trivial⟩
  pinUserObservedMin _ := id

theorem reachable_enumerated {c : Config S} (h : (system port).Reachable c) :
    c.world.ve.Enumerated := by
  refine h.invariant (I := fun c ↦ c.world.ve.Enumerated) ?_ ?_
  · rintro c ⟨deployment, -, self, claimToken, owner, hve⟩
    rw [hve]
    refine ⟨fun u id ↦ ?_, fun u i id hid ↦ ?_⟩
    · simp only [initial, List.not_mem_nil, false_iff, not_and]
      exact fun hu ↦ hu.symm
    · simp [initial] at hid
  · rintro c c' hreach hc hstep
    cases hstep with
    | op call op hnow hexec =>
        have hsound := reachable_sound hreach
        exact (exec_rule (enumeration_rules port) call
          ⟨hsound.accounted, hsound.le_now.trans hnow⟩ op).of_ok hexec hc
    | outside royalties claim => exact hc

/-- Live decaying locks that have not ended. -/
def liveDecaying (s : VeState) (nowTs : ℕ) : Set ℕ :=
  {id | s.IsLive id ∧ (s.locks id).autoMax = false ∧ nowTs < (s.locks id).lockEnd}

theorem VeState.Accounted.finite_liveDecaying {s : VeState} (h : s.Accounted) (nowTs : ℕ) :
    (liveDecaying s nowTs).Finite := by
  refine (Set.finite_lt_nat s.nextTokenId).subset fun id hid ↦ ?_
  by_contra hge
  exact hid.1 (h.fresh id (not_lt.mp hge))

/-- A burned token holds no decaying lock. -/
theorem VeState.Accounted.liveDecaying_eq {s : VeState} (h : s.Accounted) (nowTs : ℕ) :
    {id | (s.locks id).Decaying nowTs} = liveDecaying s nowTs := by
  ext id
  refine ⟨fun hd ↦ ⟨fun hburned ↦ ?_, hd⟩, fun hid ↦ hid.2⟩
  rw [Set.mem_ofPred_eq, h.burned id hburned] at hd
  exact absurd hd.2 (Nat.not_lt_zero _)

/-- Right after a checkpoint the bias exceeds the ve of all locks by less than one
wei for each live decaying lock, one slope rounding for each of them, and one for
each early removal that has not run out. -/
theorem Bounded.bias_le {r : Recorded S} (h : Bounded r)
    (hacc : r.config.world.ve.Accounted)
    (hlast : r.config.world.ve.global.globalLastTs = r.config.now) :
    r.config.world.ve.global.globalBiasScaled ≤
      SLOPE_SCALE * r.config.world.ve.totalVe r.config.now +
        (SLOPE_SCALE + MAX_LOCK_DURATION) *
          (liveDecaying r.config.world.ve r.config.now).ncard +
        (r.removedEnds.countP (r.config.now < ·)) * MAX_LOCK_DURATION := by
  obtain ⟨⟨now, w⟩, ends⟩ := r
  dsimp only at *
  have hfinite := hacc.finite
  have hexact := hacc.backed.exact.at_last
  obtain ⟨hcount, hsum⟩ := scheduledBias_count ends now
  have hdecaying : {id | (w.ve.locks id).Decaying now}.Finite :=
    hacc.liveDecaying_eq now ▸ hacc.finite_liveDecaying now
  have hrounding : FiniteEntries fun id ↦
      if (w.ve.locks id).Decaying now then SLOPE_SCALE + MAX_LOCK_DURATION else 0 :=
    hdecaying.subset fun id hid ↦ by_contra fun hnot ↦ hid (if_neg hnot)
  have hscaled : FiniteEntries fun id ↦ SLOPE_SCALE * (w.ve.locks id).veAt now :=
    (hfinite.veAt now).mono fun id hid ↦ by rw [hid, Nat.mul_zero]
  have hlocks : flatBias w.ve.locks + scheduledBias (demand w.ve.locks) now ≤
      SLOPE_SCALE * w.ve.totalVe now + (SLOPE_SCALE + MAX_LOCK_DURATION) *
        (liveDecaying w.ve now).ncard := by
    rw [← hfinite.total_contribution, VeState.totalVe, ← total_mul_left (hfinite.veAt now),
      ← hacc.liveDecaying_eq, ← total_ite_const hdecaying, ← total_add hscaled hrounding]
    exact total_mono (hfinite.flat.add (hfinite.decaying now)) (hscaled.add hrounding)
      fun id ↦ (w.ve.locks id).contribution_le (h.horizon id)
  have hslopes : scheduledBias w.ve.global.slopeChanges now ≤
      scheduledBias (demand w.ve.locks) now + scheduledBias (fun e ↦ ends.count e) now := by
    refine (scheduledBias_mono hexact.scheduled.finite (hfinite.demand.add hcount)
      h.slope_le).trans_eq ?_
    unfold scheduledBias
    rw [← total_add (hfinite.demand.scheduled now) (hcount.scheduled now)]
    exact congrArg total (funext fun e ↦ Nat.add_mul _ _ _)
  have hbias := hexact.bias_eq
  have hresidue := residue_le h.removed
  rw [hlast] at hbias
  dsimp only at hresidue
  omega

/-- The cached total is the bias rounded up.  At no later time is it below the sum
of all balances, and at the time of the checkpoint it exceeds that sum only by
the rounding of live decaying locks and by the residue of early removals. -/
theorem cached_total_bounds (port : IShareholderRoyalties S) (r : Recorded S)
    (h : (recordedSystem port).Reachable r) :
    let s := r.config.world.ve
    s.global.totalVeCached = ceilDiv s.global.globalBiasScaled SLOPE_SCALE ∧
      ∀ nowTs, s.global.globalLastTs ≤ nowTs → ∃ ve : Address → ℕ,
        (∀ user, s.veBalanceOf nowTs user = .ok (ve user)) ∧ (support ve).Finite ∧
          ∑ᶠ user, ve user ≤ s.global.totalVeCached ∧
          (r.config.now ≤ nowTs → s.global.globalLastTs = nowTs →
            (s.global.totalVeCached : ℚ) - (∑ᶠ user, ve user : ℕ) <
              (liveDecaying s nowTs).ncard + 1 +
                ((liveDecaying s nowTs).ncard + r.removedEnds.countP (nowTs < ·)) *
                  MAX_LOCK_DURATION / SLOPE_SCALE) := by
  intro s
  obtain ⟨hsound, hbounded⟩ := reachable_bounded h
  have hacc : s.Accounted := hsound.accounted
  have henum : s.Enumerated :=
    reachable_enumerated (reachable_iff_recorded.mpr ⟨r.removedEnds, h⟩)
  have hcached := hacc.backed.exact.cached
  refine ⟨hcached, fun nowTs hnow ↦ ?_⟩
  have hfinite := hacc.finite.veAt nowTs
  have htotal : ∑ᶠ user, fiberTotal (fun id ↦ (s.locks id).veAt nowTs) s.owners user =
      s.totalVe nowTs := total_fibers hfinite s.owners
  refine ⟨_, hacc.veBalanceOf_eq henum hnow, hfinite.fibers s.owners, ?_, fun hlater hlast ↦ ?_⟩
  · rw [htotal]
    exact hacc.totalVe_le hnow
  · obtain rfl : r.config.now = nowTs := Nat.le_antisymm hlater (hlast ▸ hsound.le_now)
    have hbias := hbounded.bias_le hacc hlast
    have hceil := ceilDiv_mul_lt s.global.globalBiasScaled SLOPE_SCALE_pos
    rw [← hcached] at hceil
    have hscale : (0 : ℚ) < SLOPE_SCALE := Nat.cast_pos.mpr SLOPE_SCALE_pos
    have hgap : (s.global.totalVeCached * SLOPE_SCALE : ℚ) <
        SLOPE_SCALE * s.totalVe r.config.now +
          (SLOPE_SCALE + MAX_LOCK_DURATION) * (liveDecaying s r.config.now).ncard +
          r.removedEnds.countP (r.config.now < ·) * MAX_LOCK_DURATION + SLOPE_SCALE := by
      exact_mod_cast hceil.trans_le (Nat.add_le_add_right hbias _)
    rw [htotal, sub_lt_iff_lt_add, ← mul_lt_mul_iff_left₀ hscale]
    refine hgap.trans_eq ?_
    field_simp
    ring

end Runs

/-- A call into the deployed bundle, `delay` seconds after the first second. -/
def laterCall (delay sender : ℕ) : Call := bundleCall (delay + 1) sender (Nat.succ_pos delay)

/-- Two locks are created in the deployed bundle and merged before they end. -/
def mergedRun : Except Error (World Unit × List ℕ) := do
  let w₁ ← exec acceptingPort (laterCall 99 9) bundleWorld (.setFurnace 3)
  let create : Op := .createLockFor 7 (1500 * 10 ^ 18) 604800 false
  let w₂ ← exec acceptingPort (laterCall 199 3) w₁ create
  let w₃ ← exec acceptingPort (laterCall 199 3) w₂ create
  let merge : Op := .mergeLocksFor 7 1 2
  let w₄ ← exec acceptingPort (laterCall 299 3) w₃ merge
  return (w₄, earlyRemovals w₃.ve merge)

theorem cached_total_bounds_merged :
    ∃ w ends, mergedRun = .ok (w, ends) ∧ ends = [605000, 605000] ∧
      ∃ ve : Address → ℕ, (∀ user, w.ve.veBalanceOf 300 user = .ok (ve user)) ∧
        (support ve).Finite ∧ ∑ᶠ user, ve user ≤ w.ve.global.totalVeCached ∧
        (w.ve.global.totalVeCached : ℚ) - (∑ᶠ user, ve user : ℕ) <
          (liveDecaying w.ve 300).ncard + 1 +
            ((liveDecaying w.ve 300).ncard + 2) * MAX_LOCK_DURATION / SLOPE_SCALE := by
  have hok : (mergedRun.toOption.any fun r ↦
      r.2 = [605000, 605000] ∧ r.1.ve.global.globalLastTs = 300) = true := by
    decide +kernel
  cases hrun : mergedRun with
  | error e => simp [hrun, Except.toOption] at hok
  | ok r =>
      obtain ⟨w, ends⟩ := r
      obtain ⟨rfl, hlast⟩ : ends = [605000, 605000] ∧ w.ve.global.globalLastTs = 300 := by
        simpa [hrun, Except.toOption] using hok
      obtain ⟨w₁, hwire, hrest⟩ := bind_eq_ok_iff.mp hrun
      obtain ⟨w₂, hfirst, hrest⟩ := bind_eq_ok_iff.mp hrest
      obtain ⟨w₃, hsecond, hrest⟩ := bind_eq_ok_iff.mp hrest
      obtain ⟨w₄, hmerge, hresult⟩ := bind_eq_ok_iff.mp hrest
      obtain ⟨rfl, hends⟩ := Prod.mk.inj (Except.ok.inj hresult)
      have hstart : (recordedSystem acceptingPort).Reachable ⟨⟨100, bundleWorld⟩, []⟩ :=
        .init ⟨⟨laterCall 99 9, rfl, 1, 2, 9, rfl⟩, rfl⟩
      have hwired := hstart.step (.op _ (laterCall 99 9) _ le_rfl hwire)
      have hcreated := hwired.step
        (.op _ (laterCall 199 3) _ (by simp [laterCall, bundleCall]) hfirst)
      have hagain := hcreated.step (.op _ (laterCall 199 3) _ le_rfl hsecond)
      have hmerged := hagain.step
        (.op _ (laterCall 299 3) _ (by simp [laterCall, bundleCall]) hmerge)
      obtain ⟨-, hbounds⟩ := cached_total_bounds acceptingPort _ hmerged
      obtain ⟨ve, hve, hfinite, hle, hgap⟩ := hbounds 300 hlast.le
      refine ⟨w₄, _, rfl, rfl, ve, hve, hfinite, hle, ?_⟩
      have hdust := hgap le_rfl hlast
      rw [hends] at hdust
      exact_mod_cast hdust

end ClaimRush.VeClaimNFT
