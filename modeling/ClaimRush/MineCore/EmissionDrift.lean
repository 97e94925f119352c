import ClaimRush.MineCore.SupplySchedule

/-!
# The drift of the emissions

The rates at the two ends of an interval are rounded up, the trapezoid is rounded
down.  What the integers add to the exact emission is the overpaid rate of the two
ends, over the part of the interval before the kink.
-/

namespace ClaimRush.MineCore

open Constants

section Drift

variable {launchRate floorRate : ℕ}

/-- The exact emission between two timestamps; the launch rate starts at the launch. -/
noncomputable def exactEmitted (launchRate floorRate es a c : ℕ) : ℝ :=
  exactEmission launchRate floorRate (a - es : ℕ) (c - es : ℕ)

/-- What rounding adds to the rate. -/
noncomputable def overpaid (launchRate floorRate t : ℕ) : ℝ :=
  rateAt t launchRate floorRate - decayingRate launchRate floorRate EMISSION_DECAY_PERIOD t

theorem overpaid_le_one (hfloor : floorRate ≤ launchRate) (t : ℕ) :
    overpaid launchRate floorRate t ≤ 1 := by
  have hle := rateAt_le hfloor t
  unfold overpaid
  linarith

theorem rateAt_of_ge {t : ℕ} (ht : EMISSION_DECAY_PERIOD ≤ t) :
    rateAt t launchRate floorRate = floorRate := by
  unfold rateAt
  split_ifs <;> rfl

theorem overpaid_late (hfloor : floorRate ≤ launchRate) {t : ℕ} (ht : EMISSION_DECAY_PERIOD ≤ t) :
    overpaid launchRate floorRate t = 0 := by
  have hpos : (0 : ℝ) < EMISSION_DECAY_PERIOD := by exact_mod_cast EMISSION_DECAY_PERIOD_pos
  rw [overpaid, rateAt_of_ge ht, decayingRate_of_ge (by exact_mod_cast hfloor) hpos
    (by exact_mod_cast ht), sub_self]

theorem overpaid_nonneg (hfloor : floorRate ≤ launchRate) (t : ℕ) :
    0 ≤ overpaid launchRate floorRate t := by
  have hpos : (0 : ℝ) < EMISSION_DECAY_PERIOD := by exact_mod_cast EMISSION_DECAY_PERIOD_pos
  rcases Nat.le_total EMISSION_DECAY_PERIOD t with hlate | hearly
  · rw [overpaid_late hfloor hlate]
  have hfloored : ((launchRate - floorRate) * t / EMISSION_DECAY_PERIOD : ℕ) ≤
      ((launchRate : ℝ) - floorRate) / EMISSION_DECAY_PERIOD * t := by
    refine Nat.cast_div_le.trans (le_of_eq ?_)
    rw [Nat.cast_mul, Nat.cast_sub hfloor]
    ring
  have hrate : floorRate ≤ rateAt t launchRate floorRate ∧
      launchRate ≤ rateAt t launchRate floorRate +
        (launchRate - floorRate) * t / EMISSION_DECAY_PERIOD := by
    unfold rateAt
    rcases hearly.eq_or_lt with heq | hlt
    · rw [heq, Nat.mul_div_cancel _ EMISSION_DECAY_PERIOD_pos]
      split_ifs <;> omega
    · rw [if_neg (Nat.not_le.mpr hlt)]
      dsimp only
      generalize (launchRate - floorRate) * t / EMISSION_DECAY_PERIOD = dec
      split_ifs <;> omega
  have hcast : (launchRate : ℝ) ≤ rateAt t launchRate floorRate +
      ((launchRate - floorRate) * t / EMISSION_DECAY_PERIOD : ℕ) := by exact_mod_cast hrate.2
  have hfloorCast : (floorRate : ℝ) ≤ rateAt t launchRate floorRate := by exact_mod_cast hrate.1
  rw [overpaid, sub_nonneg]
  refine max_le hfloorCast ?_
  linarith

/-- The part of a time before the kink. -/
noncomputable def decaying (t : ℕ) : ℝ := min (t : ℝ) EMISSION_DECAY_PERIOD

theorem decaying_early {t : ℕ} (ht : t ≤ EMISSION_DECAY_PERIOD) : decaying t = t :=
  min_eq_left (by exact_mod_cast ht)

theorem decaying_late {t : ℕ} (ht : EMISSION_DECAY_PERIOD ≤ t) :
    decaying t = EMISSION_DECAY_PERIOD :=
  min_eq_right (by exact_mod_cast ht)

theorem decaying_mono {s t : ℕ} (h : s ≤ t) : decaying s ≤ decaying t :=
  min_le_min_right _ (by exact_mod_cast h)

theorem decaying_sub_le {s t : ℕ} (h : s ≤ t) : decaying t - decaying s ≤ (t : ℝ) - s := by
  rcases Nat.le_total s EMISSION_DECAY_PERIOD with hs | hs
  · have hle : decaying t ≤ t := min_le_left _ _
    rw [decaying_early hs]
    linarith
  · have hcast : (s : ℝ) ≤ t := by exact_mod_cast h
    rw [decaying_late hs, decaying_late (hs.trans h)]
    linarith

/-- What the rounded rates add to an emission. -/
noncomputable def drift (launchRate floorRate s t : ℕ) : ℝ :=
  (overpaid launchRate floorRate s + overpaid launchRate floorRate t) / 2 *
    (decaying t - decaying s)

theorem drift_mem (hfloor : floorRate ≤ launchRate) {s t : ℕ} (h : s ≤ t) :
    0 ≤ drift launchRate floorRate s t ∧
      drift launchRate floorRate s t ≤ decaying t - decaying s := by
  have hlen := sub_nonneg.mpr (decaying_mono h)
  have hs := overpaid_nonneg hfloor s
  have ht := overpaid_nonneg hfloor t
  have hs' := overpaid_le_one hfloor s
  have ht' := overpaid_le_one hfloor t
  unfold drift
  constructor
  · exact mul_nonneg (by linarith) hlen
  · exact mul_le_of_le_one_left hlen (by linarith)

/-! ## One payment -/

/-- A payment before the kink, with its two roundings. -/
theorem trapezoid_near (hfloor : floorRate ≤ launchRate) {s t : ℕ} (hst : s ≤ t)
    (ht : t ≤ EMISSION_DECAY_PERIOD) :
    exactEmission launchRate floorRate s t + drift launchRate floorRate s t - 1 / 2 ≤
        ((rateAt s launchRate floorRate + rateAt t launchRate floorRate) * (t - s) / 2 : ℕ) ∧
      (((rateAt s launchRate floorRate + rateAt t launchRate floorRate) * (t - s) / 2 : ℕ) : ℝ) ≤
        exactEmission launchRate floorRate s t + drift launchRate floorRate s t := by
  have hpos : (0 : ℝ) < EMISSION_DECAY_PERIOD := by exact_mod_cast EMISSION_DECAY_PERIOD_pos
  have hexact : exactEmission launchRate floorRate s t + drift launchRate floorRate s t =
      ((rateAt s launchRate floorRate + rateAt t launchRate floorRate) * (t - s) : ℕ) / 2 := by
    rw [exactEmission, emission_of_le (by exact_mod_cast hfloor) hpos (by exact_mod_cast hst)
      (by exact_mod_cast ht), drift, decaying_early ht, decaying_early (hst.trans ht)]
    push_cast [Nat.cast_sub hst]
    unfold overpaid
    ring
  rw [hexact]
  generalize (rateAt s launchRate floorRate + rateAt t launchRate floorRate) * (t - s) = n
  have hdiv : (n : ℝ) ≤ 2 * (n / 2 : ℕ) + 1 ∧ 2 * ((n / 2 : ℕ) : ℝ) ≤ n := by
    constructor
    · exact_mod_cast (by omega : n ≤ 2 * (n / 2) + 1)
    · exact_mod_cast (by omega : 2 * (n / 2) ≤ n)
  constructor <;> linarith [hdiv.1, hdiv.2]

/-- The exact emission, with what rounding adds, up to the half wei that is rounded down. -/
def Near (launchRate floorRate s t k : ℕ) : Prop :=
  exactEmission launchRate floorRate s t + drift launchRate floorRate s t - 1 / 2 ≤ k ∧
    (k : ℝ) ≤ exactEmission launchRate floorRate s t + drift launchRate floorRate s t

theorem near_self (launchRate floorRate s : ℕ) : Near launchRate floorRate s s 0 := by
  have hnone : exactEmission launchRate floorRate s s + drift launchRate floorRate s s = 0 := by
    simp [exactEmission, drift]
  rw [Near, hnone]
  norm_num

theorem near_late (hfloor : floorRate ≤ launchRate) {s t : ℕ} (hst : s ≤ t)
    (hs : EMISSION_DECAY_PERIOD ≤ s) :
    Near launchRate floorRate s t (floorRate * (t - s)) := by
  have hpos : (0 : ℝ) < EMISSION_DECAY_PERIOD := by exact_mod_cast EMISSION_DECAY_PERIOD_pos
  have hexact : exactEmission launchRate floorRate s t + drift launchRate floorRate s t =
      (floorRate * (t - s) : ℕ) := by
    rw [exactEmission, emission_of_ge (by exact_mod_cast hfloor) hpos (by exact_mod_cast hst)
      (by exact_mod_cast hs), drift, decaying_late hs, decaying_late (hs.trans hst)]
    push_cast [Nat.cast_sub hst]
    ring
  rw [Near, hexact]
  constructor <;> linarith

theorem near_across (hfloor : floorRate ≤ launchRate) {s t k : ℕ}
    (ht : EMISSION_DECAY_PERIOD ≤ t)
    (h : Near launchRate floorRate s EMISSION_DECAY_PERIOD k) :
    Near launchRate floorRate s t (k + floorRate * (t - EMISSION_DECAY_PERIOD)) := by
  have hpos : (0 : ℝ) < EMISSION_DECAY_PERIOD := by exact_mod_cast EMISSION_DECAY_PERIOD_pos
  have hrest : exactEmission launchRate floorRate EMISSION_DECAY_PERIOD t =
      (floorRate * (t - EMISSION_DECAY_PERIOD) : ℕ) := by
    rw [exactEmission, emission_of_ge (by exact_mod_cast hfloor) hpos (by exact_mod_cast ht)
      le_rfl]
    push_cast [Nat.cast_sub ht]
    ring
  have hadd : exactEmission launchRate floorRate s EMISSION_DECAY_PERIOD +
      exactEmission launchRate floorRate EMISSION_DECAY_PERIOD t =
        exactEmission launchRate floorRate s t := emission_add _ _ _ _ _ _
  have hdrift : drift launchRate floorRate s t =
      drift launchRate floorRate s EMISSION_DECAY_PERIOD := by
    rw [drift, drift, overpaid_late hfloor ht, overpaid_late hfloor le_rfl, decaying_late ht,
      decaying_late le_rfl]
  obtain ⟨hlow, hhigh⟩ := h
  rw [Near, hdrift, ← hadd, hrest]
  push_cast
  constructor <;> linarith

theorem emitted_launched (hfloor : floorRate ≤ launchRate) {es s n k : ℕ}
    (h : emitted es (es + s) (es + (s + n)) launchRate floorRate = .ok k) :
    Near launchRate floorRate s (s + n) k := by
  unfold emitted at h
  by_cases hnone : es + (s + n) ≤ es + s
  · rw [if_pos hnone] at h
    obtain rfl := Except.ok.inj h
    obtain rfl : n = 0 := by omega
    exact near_self _ _ _
  rw [if_neg hnone, if_neg (by omega), if_neg (by omega)] at h
  obtain ⟨floorTs, hfloorTs, h⟩ := bind_eq_ok_iff.mp h
  obtain ⟨-, rfl⟩ := uint256_eq_ok.mp hfloorTs
  simp only [Nat.add_sub_cancel_left, ge_iff_le, Nat.add_le_add_iff_left,
    Nat.add_sub_add_left] at h
  have hle : s ≤ s + n := Nat.le_add_right s n
  split_ifs at h with hlate hearly
  · obtain ⟨-, rfl⟩ := uint256_eq_ok.mp h
    have hnear := near_late hfloor hle hlate
    rwa [Nat.add_sub_cancel_left] at hnear
  · obtain ⟨-, -, rfl⟩ := mulDiv_eq_ok.mp h
    have hnear := trapezoid_near hfloor hle hearly
    rwa [Nat.add_sub_cancel_left] at hnear
  · obtain ⟨decayPart, hdecay, h⟩ := bind_eq_ok_iff.mp h
    obtain ⟨floorPart, hconst, h⟩ := bind_eq_ok_iff.mp h
    obtain ⟨-, -, rfl⟩ := mulDiv_eq_ok.mp hdecay
    obtain ⟨-, rfl⟩ := uint256_eq_ok.mp hconst
    obtain ⟨-, rfl⟩ := uint256_eq_ok.mp h
    have hkink := trapezoid_near hfloor (not_le.mp hlate).le le_rfl
    rw [rateAt_of_ge le_rfl] at hkink
    exact near_across hfloor (not_le.mp hearly).le hkink

/-- Every payment is near the exact emission. -/
theorem emitted_near (hfloor : floorRate ≤ launchRate) {es a c k : ℕ} (hac : a ≤ c)
    (h : emitted es a c launchRate floorRate = .ok k) :
    Near launchRate floorRate (a - es) (c - es) k := by
  rcases Nat.le_total c es with hbefore | hafter
  · have hzero : k = 0 := by
      unfold emitted at h
      rw [if_pos hbefore, ite_self] at h
      exact (Except.ok.inj h).symm
    rw [hzero, Nat.sub_eq_zero_of_le hbefore, Nat.sub_eq_zero_of_le (hac.trans hbefore)]
    exact near_self _ _ _
  have hstart : emitted es a c launchRate floorRate =
      emitted es (es + (a - es)) c launchRate floorRate := by
    rcases Nat.le_total a es with ha | ha
    · rw [Nat.sub_eq_zero_of_le ha, Nat.add_zero]
      exact emitted_before ha
    · rw [Nat.add_sub_cancel' ha]
  have hend : es + (a - es + (c - es - (a - es))) = c := by omega
  rw [hstart, ← hend] at h
  have hnear := emitted_launched hfloor h
  rwa [show a - es + (c - es - (a - es)) = c - es by omega] at hnear

theorem emission_pieces (launchRate floorRate es a b c : ℕ) :
    exactEmitted launchRate floorRate es a b + exactEmitted launchRate floorRate es b c =
      exactEmitted launchRate floorRate es a c := emission_add _ _ _ _ _ _

/-- At least the floor is emitted. -/
theorem floor_mul_le_exactEmitted (launchRate floorRate es : ℕ) {b c : ℕ} (hbc : b ≤ c) :
    (floorRate : ℝ) * ((c - es : ℕ) - (b - es : ℕ)) ≤ exactEmitted launchRate floorRate es b c := by
  have hle : ((b - es : ℕ) : ℝ) ≤ (c - es : ℕ) := by exact_mod_cast Nat.sub_le_sub_right hbc es
  exact floor_mul_le_emission hle

theorem decaying_launched_le {a c : ℕ} (es : ℕ) (hac : a ≤ c) :
    decaying (c - es) - decaying (a - es) ≤ (c : ℝ) - a := by
  have hlen : ((c - es : ℕ) : ℝ) - (a - es : ℕ) ≤ c - a := by
    have hnat : c - es + a ≤ c + (a - es) := by omega
    have hcast : ((c - es : ℕ) : ℝ) + a ≤ c + (a - es : ℕ) := by exact_mod_cast hnat
    linarith
  exact (decaying_sub_le (Nat.sub_le_sub_right hac es)).trans hlen

/-- The drift of a split, against the drift of the whole. -/
theorem drift_split (hfloor : floorRate ≤ launchRate) {s t u : ℕ} (hst : s ≤ t) (htu : t ≤ u) :
    |drift launchRate floorRate s u -
        (drift launchRate floorRate s t + drift launchRate floorRate t u)| ≤
      (decaying u - decaying s) / 2 := by
  have hfirst := sub_nonneg.mpr (decaying_mono hst)
  have hsecond := sub_nonneg.mpr (decaying_mono htu)
  have hform : drift launchRate floorRate s u -
      (drift launchRate floorRate s t + drift launchRate floorRate t u) =
        (overpaid launchRate floorRate s * (decaying u - decaying t) +
          overpaid launchRate floorRate u * (decaying t - decaying s) -
          overpaid launchRate floorRate t * ((decaying u - decaying t) +
            (decaying t - decaying s))) / 2 := by
    unfold drift
    ring
  have hends (v : ℕ) {len : ℝ} (hlen : 0 ≤ len) : 0 ≤ overpaid launchRate floorRate v * len ∧
      overpaid launchRate floorRate v * len ≤ len :=
    ⟨mul_nonneg (overpaid_nonneg hfloor v) hlen,
      mul_le_of_le_one_left hlen (overpaid_le_one hfloor v)⟩
  have hs := hends s hsecond
  have hu := hends u hfirst
  have ht := hends t (add_nonneg hsecond hfirst)
  rw [hform, abs_le]
  constructor <;> linarith [hs.1, hs.2, hu.1, hu.2, ht.1, ht.2]

/-! ## Payments one after the other -/

/-- The payments from `a` to each of the times in turn. -/
def emittedAlong (emittedBetween : ℕ → ℕ → Except Error ℕ) : ℕ → List ℕ → Except Error ℕ
  | _, [] => .ok 0
  | a, b :: times => do
      let first ← emittedBetween a b
      let rest ← emittedAlong emittedBetween b times
      return first + rest

/-- Each payment rounds half a wei away at most, and overpays less than a wei a second. -/
theorem emittedAlong_near (hfloor : floorRate ≤ launchRate) {es a k : ℕ} {times : List ℕ}
    (hchain : (a :: times).IsChain (· ≤ ·))
    (h : emittedAlong (emitted es · · launchRate floorRate) a times = .ok k) :
    exactEmitted launchRate floorRate es a (times.getLastD a) - times.length / 2 ≤ k ∧
      (k : ℝ) ≤ exactEmitted launchRate floorRate es a (times.getLastD a) +
        (decaying (times.getLastD a - es) - decaying (a - es)) := by
  induction times generalizing a k with
  | nil =>
      obtain rfl := Except.ok.inj h
      simp [exactEmitted, exactEmission]
  | cons b times ih =>
      obtain ⟨hab, hchain⟩ := List.isChain_cons_cons.mp hchain
      obtain ⟨first, hfirst, h⟩ := bind_eq_ok_iff.mp h
      obtain ⟨rest, hrest, h⟩ := bind_eq_ok_iff.mp h
      obtain rfl := Except.ok.inj h
      obtain ⟨hlow, hhigh⟩ := ih hchain hrest
      have hnear := emitted_near hfloor hab hfirst
      have hdrift := drift_mem hfloor (Nat.sub_le_sub_right hab es)
      have hadd := emission_pieces launchRate floorRate es a b (times.getLastD b)
      rw [List.getLastD_cons]
      have hfirstLow : exactEmitted launchRate floorRate es a b - 1 / 2 ≤ first := by
        unfold exactEmitted
        linarith [hnear.1, hdrift.1]
      have hfirstHigh : (first : ℝ) ≤ exactEmitted launchRate floorRate es a b +
          (decaying (b - es) - decaying (a - es)) := by
        unfold exactEmitted
        linarith [hnear.2, hdrift.2]
      push_cast [List.length_cons]
      constructor <;> linarith

/-- How a stream follows its exact schedule. -/
structure Accurate (launchRate floorRate : ℕ) (emittedBetween : ℕ → ℕ → ℕ → Except Error ℕ) :
    Prop where
  near : ∀ {es a c k}, a ≤ c → emittedBetween es a c = .ok k →
    exactEmitted launchRate floorRate es a c - 1 ≤ k ∧
      (k : ℝ) ≤ exactEmitted launchRate floorRate es a c + (c - a)
  mono : ∀ {es a c c' k k'}, a ≤ c → c ≤ c' → emittedBetween es a c = .ok k →
    emittedBetween es a c' = .ok k' → k ≤ k'
  split : ∀ {es a b c x y z}, a ≤ b → b ≤ c → emittedBetween es a b = .ok x →
    emittedBetween es b c = .ok y → emittedBetween es a c = .ok z →
      |(z : ℝ) - (x + y)| ≤ (c - a) / 2 + 2
  pieces : ∀ {es a whole parts} {times : List ℕ}, (a :: times).IsChain (· ≤ ·) →
    emittedBetween es a (times.getLastD a) = .ok whole →
    emittedAlong (emittedBetween es) a times = .ok parts →
      |(whole : ℝ) - parts| ≤ (times.getLastD a - a) + times.length / 2
  /-- The payments of any realistic time do not overflow. -/
  returns : ∀ {es a c}, c ≤ 2 ^ 128 → ∃ k, emittedBetween es a c = .ok k

theorem le_getLastD_of_isChain {a : ℕ} {times : List ℕ} (h : (a :: times).IsChain (· ≤ ·)) :
    a ≤ times.getLastD a := by
  induction times generalizing a with
  | nil => exact le_rfl
  | cons b times ih =>
      obtain ⟨hab, hchain⟩ := List.isChain_cons_cons.mp h
      rw [List.getLastD_cons]
      exact hab.trans (ih hchain)

theorem rateAt_le_launchRate (hfloor : floorRate ≤ launchRate) (t : ℕ) :
    rateAt t launchRate floorRate ≤ launchRate := by
  unfold rateAt
  dsimp only
  generalize (launchRate - floorRate) * t / EMISSION_DECAY_PERIOD = dec
  split_ifs <;> omega

theorem emitted_returns (hfloor : floorRate ≤ launchRate)
    (hperiod : EMISSION_DECAY_PERIOD ≤ floorRate) (hrate : launchRate < 2 ^ 100) {es a c : ℕ}
    (hc : c ≤ 2 ^ 128) : ∃ k, emitted es a c launchRate floorRate = .ok k := by
  have hfits {r n : ℕ} (hr : r ≤ 2 ^ 101) (hn : n ≤ 2 ^ 128) : r * n ≤ 2 ^ 229 :=
    (Nat.mul_le_mul hr hn).trans_eq (by decide)
  have hword : 2 ^ 230 < uint256Bound := by simp [uint256Bound]
  have hrateAt := rateAt_le_launchRate hfloor
  suffices h : Outcome (fun _ ↦ True) (fun _ ↦ False) (emitted es a c launchRate floorRate) from
    h.exists_ok.imp fun _ h ↦ h.1
  have hword' (n : ℕ) (hn : n ≤ 2 ^ 230) :
      Outcome (fun _ ↦ True) (fun _ ↦ False) (uint256 n : Except Error ℕ) :=
    (outcome_uint256 n).mpr ⟨fun _ ↦ trivial, fun hlarge ↦ hlarge (hn.trans_lt hword)⟩
  have hhalf (n m : ℕ) (hn : n * m ≤ 2 ^ 229) :
      Outcome (fun q ↦ q ≤ 2 ^ 229) (fun _ ↦ False) (mulDiv n m 2 : Except Error ℕ) := by
    have hle : n * m / 2 ≤ 2 ^ 229 := (Nat.div_le_self _ _).trans hn
    exact (outcome_mulDiv two_ne_zero).mpr ⟨fun _ ↦ hle, fun hlarge ↦ hlarge (by omega)⟩
  unfold emitted
  by_cases hnone : c ≤ a
  · rw [if_pos hnone]
    trivial
  by_cases hbefore : c ≤ es
  · rw [if_neg hnone, if_pos hbefore]
    trivial
  rw [if_neg hnone, if_neg hbefore]
  dsimp only
  generalize (if a < es then es else a) = t₀
  rw [Outcome.bind_iff, outcome_uint256]
  refine ⟨fun _ ↦ ?_, fun hlarge ↦ hlarge (by omega)⟩
  have hfirst := hrateAt (t₀ - es)
  have hlast := hrateAt (c - es)
  split_ifs with hlate hearly
  · exact hword' _ ((hfits (by omega) (by omega)).trans (by decide))
  · exact (hhalf _ _ (hfits (by omega) (by omega))).mono (fun _ _ ↦ trivial) fun _ h ↦ h
  · refine Outcome.bind (hhalf _ _ (hfits (by omega) (by omega))) fun decayPart hdecay ↦ ?_
    have hrest : floorRate * (c - (es + EMISSION_DECAY_PERIOD)) ≤ 2 ^ 229 :=
      hfits (by omega) (by omega)
    rw [Outcome.bind_iff, outcome_uint256]
    exact ⟨fun _ ↦ hword' _ (by omega), fun hlarge ↦ hlarge (by omega)⟩

theorem emitted_accurate (hfloor : floorRate ≤ launchRate)
    (hperiod : EMISSION_DECAY_PERIOD + 1 ≤ floorRate) (hrate : launchRate < 2 ^ 100) :
    Accurate launchRate floorRate (emitted · · · launchRate floorRate) where
  near := by
    intro es a c k hac h
    have hnear := emitted_near hfloor hac h
    have hdrift := drift_mem hfloor (Nat.sub_le_sub_right hac es)
    have hlen := decaying_launched_le es hac
    unfold exactEmitted
    constructor <;> linarith [hnear.1, hnear.2, hdrift.1, hdrift.2]
  mono := by
    intro es a c c' k k' hac hcc' h h'
    have hk := (emitted_near hfloor hac h).2
    have hk' := (emitted_near hfloor (hac.trans hcc') h').1
    rcases Nat.eq_or_lt_of_le (Nat.sub_le_sub_right hcc' es) with hsame | hlater
    · rcases hcc'.eq_or_lt with rfl | hlt
      · exact (Except.ok.inj (h.symm.trans h')).le
      · -- Both ends lie before the launch.
        have hzero : c - es = 0 ∧ a - es = 0 := by omega
        rw [hzero.1, hzero.2] at hk
        have hnone : (k : ℝ) ≤ 0 := by simpa [exactEmission, drift] using hk
        have hk₀ : k = 0 := by exact_mod_cast hnone.antisymm (Nat.cast_nonneg k)
        exact hk₀ ▸ Nat.zero_le _
    have hdrift := (drift_mem hfloor (Nat.sub_le_sub_right hac es)).2
    have hdrift' := (drift_mem hfloor (Nat.sub_le_sub_right (hac.trans hcc') es)).1
    have hadd := emission_pieces launchRate floorRate es a c c'
    have hfloored := floor_mul_le_exactEmitted launchRate floorRate es hcc'
    have hstep : ((c - es : ℕ) : ℝ) + 1 ≤ (c' - es : ℕ) := by exact_mod_cast hlater
    have hgain : (floorRate : ℝ) ≤ floorRate * ((c' - es : ℕ) - (c - es : ℕ)) :=
      le_mul_of_one_le_right (Nat.cast_nonneg _) (by linarith)
    have hspan : decaying (c - es) - decaying (a - es) ≤ EMISSION_DECAY_PERIOD := by
      have hhigh : decaying (c - es) ≤ EMISSION_DECAY_PERIOD := min_le_right _ _
      have hlow : 0 ≤ decaying (a - es) := le_min (Nat.cast_nonneg _) (Nat.cast_nonneg _)
      linarith
    have hperiod : (EMISSION_DECAY_PERIOD : ℝ) + 1 ≤ floorRate := by exact_mod_cast hperiod
    unfold exactEmitted at hadd hfloored
    have hreal : (k : ℝ) ≤ k' := by linarith
    exact_mod_cast hreal
  split := by
    intro es a b c x y z hab hbc hx hy hz
    have hx := emitted_near hfloor hab hx
    have hy := emitted_near hfloor hbc hy
    have hz := emitted_near hfloor (hab.trans hbc) hz
    have hdrift := abs_le.mp (drift_split hfloor (Nat.sub_le_sub_right hab es)
      (Nat.sub_le_sub_right hbc es))
    have hlen := decaying_launched_le es (hab.trans hbc)
    have hadd := emission_pieces launchRate floorRate es a b c
    unfold exactEmitted at hadd
    rw [abs_le]
    constructor <;> linarith [hx.1, hx.2, hy.1, hy.2, hz.1, hz.2, hdrift.1, hdrift.2]
  pieces := by
    intro es a whole parts times hchain hwhole hparts
    have hle := le_getLastD_of_isChain hchain
    obtain ⟨hlow, hhigh⟩ := emittedAlong_near hfloor hchain hparts
    have hnear := emitted_near hfloor hle hwhole
    have hdrift := drift_mem hfloor (Nat.sub_le_sub_right hle es)
    have hlen := decaying_launched_le es hle
    unfold exactEmitted at hlow hhigh
    rw [abs_le]
    rcases times with _ | ⟨b, times⟩
    · obtain rfl := Except.ok.inj hparts
      have hnone : emitted es a a launchRate floorRate = .ok 0 := if_pos le_rfl
      obtain rfl := Except.ok.inj (hwhole.symm.trans hnone)
      simp
    · have hlength : (1 : ℝ) ≤ (b :: times).length := by
        rw [List.length_cons]
        push_cast
        linarith [Nat.cast_nonneg (α := ℝ) times.length]
      constructor <;> linarith [hnear.1, hnear.2, hdrift.1, hdrift.2]
  returns := by
    intro es a c hc
    exact emitted_returns hfloor (by omega) hrate hc

end Drift

/-- Both streams follow their schedules. -/
theorem emissions_accurate :
    Accurate KING_EMISSION_LAUNCH_RATE KING_EMISSION_FLOOR kingEmitted ∧
      Accurate FURNACE_EMISSION_LAUNCH_RATE FURNACE_EMISSION_FLOOR furnaceEmitted := by
  have hrates : EMISSION_DECAY_PERIOD + 1 ≤ KING_EMISSION_FLOOR ∧
      KING_EMISSION_LAUNCH_RATE < 2 ^ 100 ∧
      EMISSION_DECAY_PERIOD + 1 ≤ FURNACE_EMISSION_FLOOR ∧
      FURNACE_EMISSION_LAUNCH_RATE < 2 ^ 100 := by
    simp [EMISSION_DECAY_PERIOD, KING_EMISSION_FLOOR, KING_EMISSION_LAUNCH_RATE,
      FURNACE_EMISSION_FLOOR, FURNACE_EMISSION_LAUNCH_RATE]
  exact ⟨emitted_accurate emission_rates.1 hrates.1 hrates.2.1,
    emitted_accurate emission_rates.2 hrates.2.2.1 hrates.2.2.2⟩

/-- Two takeovers cost more than one can: 3 and 15 seconds after the launch the
rounded rate is almost exact, at the ends of the interval it is not. -/
theorem not_emission_drift_halved : ¬ ∀ (es a : ℕ) (times : List ℕ) (whole parts : ℕ),
    (a :: times).IsChain (· ≤ ·) →
    kingEmitted es a (times.getLastD a) = .ok whole →
    emittedAlong (kingEmitted es) a times = .ok parts →
      |(whole : ℝ) - parts| ≤ (times.getLastD a - a) / 2 + 2 := by
  intro h
  have hwhole : kingEmitted 0 0 17 = .ok 849999898176334629913 := by decide +kernel
  have hparts : emittedAlong (kingEmitted 0) 0 [3, 15, 17] = .ok 849999898176334629925 := by
    decide +kernel
  have hle := h 0 0 [3, 15, 17] _ _ (by simp) hwhole hparts
  norm_num at hle

end ClaimRush.MineCore
