import ClaimRush.Lib.DecayingRate
import ClaimRush.MineCore.PauseAccounting

/-!
# The supply schedule

Each stream is paid up to a frontier, and a step pays it from the frontier or
later.  A payment is a trapezoid of rounded rates, so it exceeds the exact
emission by at most a wei for each second.
-/

namespace ClaimRush.MineCore

open Constants

variable {S : Type} (port : VeClaimNFT.IShareholderRoyalties S)

theorem EMISSION_DECAY_PERIOD_pos : 0 < EMISSION_DECAY_PERIOD := by
  simp [EMISSION_DECAY_PERIOD]

/-! ## One payment -/

section Payment

variable {launchRate floorRate : ℕ}

/-- Emission of the exact schedule, `s` to `e` seconds after the launch. -/
noncomputable abbrev exactEmission (launchRate floorRate : ℕ) (s e : ℝ) : ℝ :=
  emission launchRate floorRate EMISSION_DECAY_PERIOD s e

/-- The rounded rate exceeds the exact one by at most one. -/
theorem rateAt_le (hfloor : floorRate ≤ launchRate) (elapsed : ℕ) :
    (rateAt elapsed launchRate floorRate : ℝ) ≤
      decayingRate launchRate floorRate EMISSION_DECAY_PERIOD elapsed + 1 := by
  have hpos : (0 : ℝ) < EMISSION_DECAY_PERIOD := by exact_mod_cast EMISSION_DECAY_PERIOD_pos
  have hge : (floorRate : ℝ) ≤ decayingRate launchRate floorRate EMISSION_DECAY_PERIOD elapsed :=
    le_max_left _ _
  have hlinear : (launchRate : ℝ) - (launchRate - floorRate) / EMISSION_DECAY_PERIOD * elapsed ≤
      decayingRate launchRate floorRate EMISSION_DECAY_PERIOD elapsed := le_max_right _ _
  unfold rateAt
  split_ifs with hflat hlate
  · linarith
  · linarith
  dsimp only
  split_ifs with hclamp
  · linarith
  · generalize hdec : (launchRate - floorRate) * elapsed / EMISSION_DECAY_PERIOD = dec
    have hlt : (launchRate - floorRate) * elapsed < (dec + 1) * EMISSION_DECAY_PERIOD := by
      rw [← hdec, Nat.mul_comm (_ + 1)]
      exact Nat.lt_mul_div_succ _ EMISSION_DECAY_PERIOD_pos
    have hle : dec ≤ launchRate := by
      rw [← hdec]
      refine (Nat.div_le_of_le_mul ?_).trans (Nat.sub_le launchRate floorRate)
      rw [Nat.mul_comm]
      exact Nat.mul_le_mul_right _ (not_le.mp hlate).le
    have hreal : ((launchRate : ℝ) - floorRate) * elapsed < (dec + 1) * EMISSION_DECAY_PERIOD := by
      rw [← Nat.cast_sub hfloor]
      exact_mod_cast hlt
    have hquot : ((launchRate : ℝ) - floorRate) / EMISSION_DECAY_PERIOD * elapsed < dec + 1 := by
      rw [div_mul_eq_mul_div, div_lt_iff₀ hpos]
      exact hreal
    have hsub : ((launchRate - dec : ℕ) : ℝ) = launchRate - dec := Nat.cast_sub hle
    rw [hsub]
    linarith

/-- A payment before the kink. -/
theorem trapezoid_le (hfloor : floorRate ≤ launchRate) {a b r₀ r₁ : ℕ} (hab : a ≤ b)
    (hb : b ≤ EMISSION_DECAY_PERIOD)
    (h₀ : (r₀ : ℝ) ≤ decayingRate launchRate floorRate EMISSION_DECAY_PERIOD a + 1)
    (h₁ : (r₁ : ℝ) ≤ decayingRate launchRate floorRate EMISSION_DECAY_PERIOD b + 1) :
    (((r₀ + r₁) * (b - a) / 2 : ℕ) : ℝ) ≤ exactEmission launchRate floorRate a b + (b - a) := by
  have hpos : (0 : ℝ) < EMISSION_DECAY_PERIOD := by exact_mod_cast EMISSION_DECAY_PERIOD_pos
  have hlen : (0 : ℝ) ≤ (b : ℝ) - a := sub_nonneg.mpr (by exact_mod_cast hab)
  have hfloored : (((r₀ + r₁) * (b - a) / 2 : ℕ) : ℝ) ≤ (r₀ + r₁) / 2 * (b - a) := by
    refine Nat.cast_div_le.trans (le_of_eq ?_)
    push_cast [Nat.cast_sub hab]
    ring
  rw [exactEmission, emission_of_le (by exact_mod_cast hfloor) hpos (by exact_mod_cast hab)
    (by exact_mod_cast hb)]
  have hmul := mul_le_mul_of_nonneg_right (add_le_add h₀ h₁) hlen
  linarith

/-- A payment exceeds the exact emission by at most one wei for each second. -/
theorem emitted_le (hfloor : floorRate ≤ launchRate) {es t₀ t₁ k : ℕ} (ht₀ : es ≤ t₀)
    (ht : t₀ ≤ t₁) (h : emitted es t₀ t₁ launchRate floorRate = .ok k) :
    (k : ℝ) ≤ exactEmission launchRate floorRate (t₀ - es) (t₁ - es) + (t₁ - t₀) := by
  have hpos : (0 : ℝ) < EMISSION_DECAY_PERIOD := by exact_mod_cast EMISSION_DECAY_PERIOD_pos
  have hcast : (floorRate : ℝ) ≤ launchRate := by exact_mod_cast hfloor
  obtain ⟨a, rfl⟩ := Nat.exists_eq_add_of_le ht₀
  obtain ⟨n, rfl⟩ := Nat.exists_eq_add_of_le ht
  have ha : ((es + a : ℕ) : ℝ) - es = a := by push_cast; ring
  have hb : ((es + a + n : ℕ) : ℝ) - es = (a + n : ℕ) := by push_cast; ring
  have hn : ((es + a + n : ℕ) : ℝ) - (es + a : ℕ) = n := by push_cast; ring
  have hnonneg : 0 ≤ exactEmission launchRate floorRate a (a + n : ℕ) + n :=
    add_nonneg (emission_nonneg (Nat.cast_nonneg _) (by push_cast; linarith)) (Nat.cast_nonneg _)
  rw [ha, hb, hn]
  unfold emitted at h
  by_cases hnone : es + a + n ≤ es + a
  · rw [if_pos hnone] at h
    obtain rfl := Except.ok.inj h
    simpa using hnonneg
  by_cases hbefore : es + a + n ≤ es
  · rw [if_neg hnone, if_pos hbefore] at h
    obtain rfl := Except.ok.inj h
    simpa using hnonneg
  rw [if_neg hnone, if_neg hbefore, if_neg (Nat.not_lt.mpr ht₀)] at h
  obtain ⟨floorTs, hfloorTs, h⟩ := bind_eq_ok_iff.mp h
  obtain ⟨-, rfl⟩ := uint256_eq_ok.mp hfloorTs
  rw [Nat.add_sub_cancel_left, Nat.add_sub_cancel_left, Nat.add_assoc es a n,
    Nat.add_sub_cancel_left] at h
  simp only [ge_iff_le, Nat.add_le_add_iff_left, Nat.add_sub_add_left] at h
  split_ifs at h with hlate hearly
  · obtain ⟨-, rfl⟩ := uint256_eq_ok.mp h
    rw [exactEmission, emission_of_ge hcast hpos (by push_cast; linarith) (by exact_mod_cast hlate)]
    push_cast
    linarith [Nat.cast_nonneg (α := ℝ) n]
  · obtain ⟨-, -, rfl⟩ := mulDiv_eq_ok.mp h
    have hpaid := trapezoid_le hfloor (Nat.le_add_right a n) hearly (rateAt_le hfloor a)
      (rateAt_le hfloor (a + n))
    rw [Nat.add_sub_cancel_left] at hpaid
    push_cast at hpaid ⊢
    linarith
  · obtain ⟨decayPart, hdecay, h⟩ := bind_eq_ok_iff.mp h
    obtain ⟨floorPart, hconst, h⟩ := bind_eq_ok_iff.mp h
    obtain ⟨-, -, rfl⟩ := mulDiv_eq_ok.mp hdecay
    obtain ⟨-, rfl⟩ := uint256_eq_ok.mp hconst
    obtain ⟨-, rfl⟩ := uint256_eq_ok.mp h
    have hkink : (floorRate : ℝ) ≤
        decayingRate launchRate floorRate EMISSION_DECAY_PERIOD EMISSION_DECAY_PERIOD + 1 :=
      (le_max_left _ _).trans (le_add_of_nonneg_right zero_le_one)
    have hpaid := trapezoid_le hfloor (not_le.mp hlate).le le_rfl (rateAt_le hfloor a) hkink
    have hrest := emission_of_ge hcast hpos (b := ((a + n : ℕ) : ℝ))
      (by exact_mod_cast (not_le.mp hearly).le) (le_refl (EMISSION_DECAY_PERIOD : ℝ))
    have hsplit := emission_add launchRate floorRate EMISSION_DECAY_PERIOD a EMISSION_DECAY_PERIOD
      (a + n : ℕ)
    rw [exactEmission] at hpaid ⊢
    rw [Nat.cast_add, ← hsplit, hrest, Nat.cast_mul, Nat.cast_sub (not_le.mp hearly).le]
    have hlen : (EMISSION_DECAY_PERIOD : ℝ) ≤ a + n := by exact_mod_cast (not_le.mp hearly).le
    push_cast at hpaid ⊢
    linarith

end Payment

/-! ## Streams -/

/-- A step pays a stream, which was paid up to `f`, at most for a later interval
that ends at the new frontier. -/
def PaysOnce (emittedBetween : ℕ → ℕ → Except Error ℕ) (f f' minted minted' : ℕ) : Prop :=
  (minted' = minted ∧ f ≤ f') ∨
    ∃ a k, f ≤ a ∧ a ≤ f' ∧ emittedBetween a f' = .ok k ∧ minted' = minted + k

/-- What a stream that is paid up to `f` may have minted. -/
def WithinSchedule (launchRate floorRate es f minted : ℕ) : Prop :=
  es ≤ f ∧ (minted : ℝ) ≤ exactEmission launchRate floorRate 0 (f - es) + (f - es)

section Streams

variable {launchRate floorRate es f f' minted minted' : ℕ}

theorem WithinSchedule.start (launchRate floorRate es : ℕ) :
    WithinSchedule launchRate floorRate es es 0 := by
  refine ⟨le_rfl, ?_⟩
  rw [sub_self, exactEmission, emission_self]
  simp

/-- The budget of the schedule grows with the frontier. -/
theorem budget_mono (hf : f ≤ f') :
    exactEmission launchRate floorRate 0 (f - es) + (f - es) ≤
      exactEmission launchRate floorRate 0 (f' - es) + (f' - es) := by
  have hle : (f : ℝ) ≤ f' := by exact_mod_cast hf
  have hsplit := emission_add launchRate floorRate EMISSION_DECAY_PERIOD 0 (f - es) (f' - es)
  have hnonneg : 0 ≤ emission launchRate floorRate EMISSION_DECAY_PERIOD (f - es) (f' - es) :=
    emission_nonneg (Nat.cast_nonneg _) (sub_le_sub_right hle (es : ℝ))
  rw [exactEmission, exactEmission, ← hsplit]
  linarith

theorem WithinSchedule.mono (h : WithinSchedule launchRate floorRate es f minted) (hf : f ≤ f') :
    WithinSchedule launchRate floorRate es f' minted :=
  ⟨h.1.trans hf, h.2.trans (budget_mono hf)⟩

/-- A stream that pays once stays within its schedule. -/
theorem WithinSchedule.step (hfloor : floorRate ≤ launchRate)
    (h : WithinSchedule launchRate floorRate es f minted)
    (hpays : PaysOnce (fun a e ↦ emitted es a e launchRate floorRate) f f' minted minted') :
    WithinSchedule launchRate floorRate es f' minted' := by
  obtain ⟨rfl, hf⟩ | ⟨a, k, hfa, haf, hpaid, rfl⟩ := hpays
  · exact h.mono hf
  · have hbefore := h.mono hfa
    have hpaid := emitted_le hfloor hbefore.1 haf hpaid
    have hsplit := emission_add launchRate floorRate EMISSION_DECAY_PERIOD 0 (a - es) (f' - es)
    have hbudget := hbefore.2
    refine ⟨hbefore.1.trans haf, ?_⟩
    rw [exactEmission] at hpaid hbudget ⊢
    rw [← hsplit, Nat.cast_add]
    linarith

end Streams

/-! ## Frontiers -/

/-- The king stream is paid up to the cursor of the reign, before the first reign
up to the end of the collected genesis window. -/
def CoreState.kingFrontier (s : CoreState) : ℕ :=
  if s.game.currentKing ≠ 0 then s.game.currentReignLastAccrualTime
  else if s.genesis.genesisKingClaimCollected then
    s.genesis.emissionStartTime + s.genesis.GENESIS_ACCRUAL_DURATION
  else s.genesis.emissionStartTime

/-- The Furnace stream is paid up to the cursor of the reign. -/
def CoreState.furnaceFrontier (s : CoreState) : ℕ :=
  if s.game.currentKing ≠ 0 then s.game.currentReignLastAccrualTime
  else s.genesis.emissionStartTime

/-- The order of the genesis window and the reigns. -/
structure Launched (c : Config S) : Prop where
  started : c.world.core.genesis.emissionStartTime ≤ c.now
  closed : c.world.core.genesis.genesisKingClaimCollected = false →
    c.world.core.game.takeoversPaused = true ∧ c.world.core.game.currentKing = 0
  ended : c.world.core.genesis.genesisKingClaimCollected = true →
    c.world.core.genesis.emissionStartTime + c.world.core.genesis.GENESIS_ACCRUAL_DURATION ≤ c.now
  reign : c.world.core.game.currentKing ≠ 0 →
    c.world.core.genesis.emissionStartTime + c.world.core.genesis.GENESIS_ACCRUAL_DURATION ≤
      c.world.core.game.currentReignLastAccrualTime

/-- What a step pays of both streams. -/
structure Pays (now : ℕ) (s s' : CoreState) : Prop where
  emissionStartTime : s'.genesis.emissionStartTime = s.genesis.emissionStartTime
  king : PaysOnce (kingEmitted s.genesis.emissionStartTime) s.kingFrontier s'.kingFrontier
    s.ghost.kingMinted s'.ghost.kingMinted
  furnace : PaysOnce (furnaceEmitted s.genesis.emissionStartTime) s.furnaceFrontier
    s'.furnaceFrontier s.ghost.furnaceMinted s'.ghost.furnaceMinted
  king_le : s'.kingFrontier ≤ now
  furnace_le : s'.furnaceFrontier ≤ now

/-- An interval that starts before the launch is paid from the launch on. -/
theorem emitted_before {es t₀ t₁ launchRate floorRate : ℕ} (ht₀ : t₀ ≤ es) :
    emitted es t₀ t₁ launchRate floorRate = emitted es es t₁ launchRate floorRate := by
  obtain rfl | hlt := ht₀.eq_or_lt
  · rfl
  unfold emitted
  rw [if_pos hlt, if_neg (lt_irrefl es)]
  by_cases hbefore : t₁ ≤ es
  · rw [if_pos hbefore, if_pos hbefore, ite_self]
  · rw [if_neg hbefore, if_neg hbefore, if_neg (by omega)]

theorem emission_rates :
    KING_EMISSION_FLOOR ≤ KING_EMISSION_LAUNCH_RATE ∧
      FURNACE_EMISSION_FLOOR ≤ FURNACE_EMISSION_LAUNCH_RATE := by
  simp [KING_EMISSION_FLOOR, KING_EMISSION_LAUNCH_RATE, FURNACE_EMISSION_FLOOR,
    FURNACE_EMISSION_LAUNCH_RATE]

section Steps

variable {port} {c c' : Config S} {call : Call} {s' : CoreState}

theorem Launched.unpaused (h : Launched c) (hpaused : c.world.core.game.takeoversPaused = false) :
    c.world.core.genesis.genesisKingClaimCollected = true := by
  by_contra hnot
  have hclosed := (h.closed (Bool.eq_false_of_not_eq_true hnot)).1
  rw [hpaused] at hclosed
  cases hclosed

theorem Launched.frontier_le (h : Launched c)
    (hcursor : c.world.core.game.currentReignLastAccrualTime ≤ c.now) :
    c.world.core.kingFrontier ≤ c.now ∧ c.world.core.furnaceFrontier ≤ c.now := by
  unfold CoreState.kingFrontier CoreState.furnaceFrontier
  split_ifs with hking hcollected
  · exact ⟨hcursor, hcursor⟩
  · exact ⟨h.ended hcollected, h.started⟩
  · exact ⟨h.started, h.started⟩

theorem Launched.taken (h : Launched c)
    (hcursor : c.world.core.game.currentReignLastAccrualTime ≤ c.now)
    (hblank : c.world.core.game.currentKing = 0 →
      c.world.core.game.currentReignLastAccrualTime = 0)
    (hnow : c.now ≤ call.timestamp) {newKing : Address}
    (htaken : Taken call newKing c.world.core s') : Pays call.timestamp c.world.core s' := by
  obtain ⟨pricePaid, k, f, hover⟩ := htaken.takenOver
  have hking' : s'.game.currentKing ≠ 0 := by
    rw [hover.game]
    exact hover.king_ne
  have hcursor' : s'.game.currentReignLastAccrualTime = call.timestamp := by
    rw [hover.game]
    rfl
  have hfrontier : s'.kingFrontier = call.timestamp ∧ s'.furnaceFrontier = call.timestamp := by
    unfold CoreState.kingFrontier CoreState.furnaceFrontier
    rw [if_pos hking', if_pos hking']
    exact ⟨hcursor', hcursor'⟩
  obtain ⟨hkingLe, hfurnaceLe⟩ := h.frontier_le hcursor
  refine ⟨by rw [hover.genesis], ?_, ?_, hfrontier.1.le, hfrontier.2.le⟩
  · rw [hfrontier.1]
    by_cases hking : c.world.core.game.currentKing = 0
    · refine .inl ⟨?_, hkingLe.trans hnow⟩
      rw [hover.kingMinted, hover.unmined hking, Nat.add_zero]
    · refine .inr ⟨_, k, ?_, hcursor.trans hnow, hover.kingMined hking, hover.kingMinted⟩
      unfold CoreState.kingFrontier
      rw [if_pos hking]
  · rw [hfrontier.2]
    by_cases hking : c.world.core.game.currentKing = 0
    · refine .inr ⟨c.world.core.genesis.emissionStartTime, f, ?_, h.started.trans hnow, ?_,
        hover.furnaceMinted⟩
      · unfold CoreState.furnaceFrontier
        rw [if_neg (not_not.mpr hking)]
      · have hmined := hover.furnaceMined
        rw [hblank hking] at hmined
        exact (emitted_before (Nat.zero_le _)).symm.trans hmined
    · refine .inr ⟨_, f, ?_, hcursor.trans hnow, hover.furnaceMined, hover.furnaceMinted⟩
      unfold CoreState.furnaceFrontier
      rw [if_pos hking]

/-- What does not change the game keeps the order, and time passes. -/
theorem Launched.idle (h : Launched c) (hgame : c'.world.core.game = c.world.core.game)
    (hgenesis : c'.world.core.genesis = c.world.core.genesis) (hnow : c.now ≤ c'.now) :
    Launched c' := by
  obtain ⟨hstarted, hclosed, hended, hreign⟩ := h
  refine ⟨?_, ?_, ?_, ?_⟩
  · rw [hgenesis]
    exact hstarted.trans hnow
  · rw [hgenesis, hgame]
    exact hclosed
  · rw [hgenesis]
    exact fun hcollected ↦ (hended hcollected).trans hnow
  · rw [hgenesis, hgame]
    exact hreign

theorem Launched.pauseChanged (h : Launched c) (hnow : c.now ≤ c'.now) {paused : Bool}
    (hpause : PauseChanged call paused c.world.core c'.world.core) : Launched c' := by
  obtain ⟨cursor, since, hcursor, -, hgame⟩ := setPaused_writes hpause.set
  obtain ⟨hstarted, hclosed, hended, hreign⟩ := h
  refine ⟨?_, ?_, ?_, ?_⟩
  · rw [hpause.genesis]
    exact hstarted.trans hnow
  · rw [hpause.genesis, hgame]
    refine fun hcollected ↦ ⟨?_, (hclosed hcollected).2⟩
    cases paused with
    | true => rfl
    | false => exact absurd (hpause.collected rfl) (Bool.eq_false_iff.mp hcollected)
  · rw [hpause.genesis]
    exact fun hcollected ↦ (hended hcollected).trans hnow
  · rw [hpause.genesis, hgame]
    exact fun hking ↦ (hreign hking).trans hcursor

theorem Launched.collected (h : Launched c) (hnow : c.now ≤ c'.now)
    (htime : c'.now = call.timestamp)
    (hgenesis : GenesisCollected call c.world.core c'.world.core) : Launched c' := by
  have hvacant := (h.closed hgenesis.before).2
  refine ⟨?_, ?_, ?_, ?_⟩
  · rw [hgenesis.genesis]
    exact h.started.trans hnow
  · rw [hgenesis.genesis]
    exact nofun
  · rw [hgenesis.genesis, htime]
    exact fun _ ↦ hgenesis.ended
  · rw [hgenesis.game]
    exact fun hking ↦ absurd hvacant hking

theorem Launched.takenOver (h : Launched c) (hnow : c.now ≤ c'.now)
    (htime : c'.now = call.timestamp)
    {newKing : Address} (htaken : Taken call newKing c.world.core c'.world.core) : Launched c' := by
  obtain ⟨pricePaid, k, f, hover⟩ := htaken.takenOver
  have hcollected := h.unpaused htaken.unpaused
  refine ⟨?_, ?_, ?_, ?_⟩
  · rw [hover.genesis]
    exact h.started.trans hnow
  · rw [hover.genesis]
    exact fun hnot ↦ absurd hcollected (Bool.eq_false_iff.mp hnot)
  · rw [hover.genesis]
    exact fun _ ↦ (h.ended hcollected).trans hnow
  · rw [hover.genesis, hover.game]
    exact fun _ ↦ (h.ended hcollected).trans (hnow.trans htime.le)

theorem Launched.step (h : Launched c) (hstep : Step port c c') : Launched c' := by
  cases hstep with
  | @op w call op hnow hexec =>
      cases hking : op.newKing call with
      | some newKing =>
          exact h.takenOver hnow rfl ((exec_taken port call c.world hking).of_ok hexec)
      | none =>
          cases (exec_turn port call c.world hking).of_ok hexec with
          | pauseChanged paused hpause => exact h.pauseChanged hnow hpause
          | genesisCollected hgenesis => exact h.collected hnow rfl hgenesis
          | idle hidle => exact h.idle hidle.game hidle.genesis hnow
  | outside received furnace hnow => exact h.idle rfl rfl hnow

end Steps

section Steps

variable {port} {c c' : Config S} {call : Call}

/-- A step that mints nothing pays nothing, and the frontiers do not move back. -/
theorem Pays.idle {now : ℕ} {s s' : CoreState}
    (hes : s'.genesis.emissionStartTime = s.genesis.emissionStartTime)
    (hking : s'.ghost.kingMinted = s.ghost.kingMinted)
    (hfurnace : s'.ghost.furnaceMinted = s.ghost.furnaceMinted)
    (hkingFrontier : s.kingFrontier ≤ s'.kingFrontier)
    (hfurnaceFrontier : s.furnaceFrontier ≤ s'.furnaceFrontier)
    (hle : s'.kingFrontier ≤ now ∧ s'.furnaceFrontier ≤ now) : Pays now s s' :=
  ⟨hes, .inl ⟨hking, hkingFrontier⟩, .inl ⟨hfurnace, hfurnaceFrontier⟩, hle.1, hle.2⟩

end Steps

end ClaimRush.MineCore
