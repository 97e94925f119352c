import ClaimRush.Keeper.FailureBounds

/-!
# A payout violation and the breaker

A confirmed transaction that violates the payout bound is booked as a failure
and then as a success.  The success clears the breaker state, so only a pause
file that the failure wrote stops the keeper.
-/

namespace ClaimRush.Keeper

variable {config : KeeperConfig} {args : SendArgs} {f : Files}

/-- A failure trips when no ended cooldown restarts the count and the count reaches the number. -/
theorem trips_iff {state : CircuitBreakerState} {now : ℕ} :
    trips config state now = true ↔ cooldownExpired config state now = false ∧
      maxFailures config ≤ state.consecutiveFailures + 1 := by
  cases hexpired : cooldownExpired config state now with
  | true =>
      have hcounted : countedFailures config state now = 1 := by
        simp [countedFailures, beforeFailure, hexpired]
      simp [trips, effectiveThreshold, hexpired, hcounted]
  | false =>
      simp only [trips, effectiveThreshold, countedFailures, beforeFailure, hexpired]
      simp
      omega

/-- The end of the cooldown of a violation. -/
def violationCooldown (config : KeeperConfig) (args : SendArgs) : Option ℕ :=
  computePausedUntilUtc args.clock.sendFailure.pausedFrom config.circuitBreakerCooldownMs

/-- Each later call that begins before the end of the cooldown is skipped as paused. -/
def StaysPaused (config : KeeperConfig) (args : SendArgs) (f : Files) : Prop :=
  ∀ events, Sequential args.clock.returned events →
    ∀ c ∈ trace config events (sendContractTx config args f).files,
      passed (violationCooldown config args) c.1.clock.pauseCheck = false →
        c.2.result = .skipped .paused

/-! ## The pause file holds -/

theorem cutTrip_of_untripped {r : Finished} (h : r.trip = none) : cutTrip f r = r := by
  simp [cutTrip, h]

/-- A pause file of the breaker skips the calls before its end. -/
theorem trace_skipped {untilUtc : Option ℕ} {pausedAtUtc : ℕ} {reason : String}
    {events : List Event} {now : ℕ}
    (hfile : f.pauseFile = some (.breaker pausedAtUtc untilUtc reason))
    (hseq : Sequential now events) :
    ∀ c ∈ trace config events f, passed untilUtc c.1.clock.pauseCheck = false →
      c.2.result = .skipped .paused := by
  have hskip {args : SendArgs} (hearly : passed untilUtc args.clock.pauseCheck = false) :
      sendContractTx config args f = { files := f, result := .skipped .paused } := by
    apply sendContractTx_of_paused
    simp [getPauseInfo_paused, hfile, PauseFile.inForce, hearly]
  have hlate {args : SendArgs} {calls : List (SendArgs × Finished)}
      (hpassed : passed untilUtc args.clock.pauseCheck = true)
      (hturn : InTurn args.clock.returned calls) : ∀ c ∈ calls,
        passed untilUtc c.1.clock.pauseCheck = true := by
    intro c hc
    obtain ⟨pre, post, rfl⟩ := List.append_of_mem hc
    obtain ⟨now', hle, hc, -⟩ := hturn.append
    obtain ⟨-, -, -, -, -, -, -, -, -, -, hreturned⟩ := args.clock.le_of_ordered
    exact passed_mono hpassed (hreturned.trans (hle.trans hc))
  induction events generalizing now with
  | nil => simp [trace]
  | cons e events ih =>
      cases e with
      | restart => exact ih hseq
      | send args =>
          intro c hc hearly
          cases hpassed : passed untilUtc args.clock.pauseCheck with
          | false =>
              rcases List.mem_cons.mp hc with rfl | hc
              · simp only [hskip hpassed]
              · rw [hskip hpassed] at hc
                exact ih hseq.2 c hc hearly
          | true =>
              rcases List.mem_cons.mp hc with rfl | hc
              · rw [hpassed] at hearly
                cases hearly
              · rw [hlate hpassed (trace_inTurn _ _ hseq.2) c hc] at hearly
                cases hearly
      | died args =>
          intro c hc hearly
          cases hpassed : passed untilUtc args.clock.pauseCheck with
          | false =>
              rcases List.mem_cons.mp hc with rfl | hc
              · simp only [hskip hpassed, cutTrip_of_untripped]
              · rw [hskip hpassed, cutTrip_of_untripped rfl] at hc
                exact ih hseq.2 c hc hearly
          | true =>
              rcases List.mem_cons.mp hc with rfl | hc
              · rw [hpassed] at hearly
                cases hearly
              · rw [hlate hpassed (trace_inTurn _ _ hseq.2) c hc] at hearly
                cases hearly

/-! ## The two bookings -/

/-- What a violating call leaves: the state is clear, and there is a pause file exactly when the
failure tripped. -/
theorem violation_files (henabled : config.circuitBreakerEnabled = true)
    (hv : (sendContractTx config args f).result.payoutBoundViolation.isSome = true) :
    config.paused = false ∧ (sendContractTx config args f).files.state.trippedAtUtc = none ∧
      (trips config f.state args.clock.sendFailure.now = true →
        ∃ pausedAtUtc reason, (sendContractTx config args f).files.pauseFile =
          some (.breaker pausedAtUtc (violationCooldown config args) reason)) ∧
      (trips config f.state args.clock.sendFailure.now = false →
        (sendContractTx config args f).files.pauseFile = none) := by
  cases hpause : (getPauseInfo config args.clock.pauseCheck f.pauseFile).1.paused with
  | true =>
      rw [sendContractTx_of_paused hpause] at hv
      cases hv
  | false =>
      have hunpaused : config.paused = false := by
        rw [getPauseInfo_paused, Bool.or_eq_false_iff] at hpause
        exact hpause.1
      have hends := sendContractTx_of_open hpause
      generalize sendContractTx config args f = r at hends hv ⊢
      cases hends with
      | stopped submitted hresult =>
          simp [hresult] at hv
      | failed message submitted =>
          cases hv
      | confirmed hash receipt limit =>
          rw [confirmed_result] at hv
          obtain ⟨violation, hviolation⟩ := Option.isSome_iff_exists.mp hv
          simp only [SendTxResult.payoutBoundViolation] at hviolation
          simp only [confirmed, hviolation, recordTxSuccess, henabled]
          refine ⟨hunpaused, rfl, ?_, ?_⟩
          · intro htrips
            simp only [recordTxFailure, henabled, htrips]
            exact ⟨_, _, rfl⟩
          · intro htrips
            simp [recordTxFailure, henabled, htrips]

/-- A later call, and with it the whole run, is stopped by the violation exactly when the failure
count was one short of tripping, or the cooldown has already ended. -/
theorem violation_trips (henabled : config.circuitBreakerEnabled = true)
    (hv : (sendContractTx config args f).result.payoutBoundViolation.isSome = true) :
    StaysPaused config args f ↔
      (cooldownExpired config f.state args.clock.sendFailure.now = false ∧
          maxFailures config ≤ f.state.consecutiveFailures + 1) ∨
        passed (violationCooldown config args) args.clock.returned = true := by
  rw [← trips_iff]
  obtain ⟨hunpaused, hstate, htripped, huntripped⟩ := violation_files henabled hv
  constructor
  · intro hstays
    by_contra hnot
    rw [not_or, Bool.not_eq_true, Bool.not_eq_true] at hnot
    obtain ⟨htrips, hearly⟩ := hnot
    let later : SendArgs := { args with clock := .atOnce args.clock.returned }
    have hskipped := hstays [.send later] ⟨le_rfl, trivial⟩ _ (.head _) hearly
    have hopen : (getPauseInfo config later.clock.pauseCheck
        (sendContractTx config args f).files.pauseFile).1.paused = false := by
      simp [getPauseInfo_paused, hunpaused, huntripped htrips]
    have hpass (t : ℕ) :
        breakerPaused config t (sendContractTx config args f).files.state = false := by
      simp [breakerPaused, getCircuitBreakerPauseInfo_paused henabled, hstate]
    have hends := sendContractTx_of_open hopen
    dsimp only at hskipped
    generalize
      sendContractTx config later (sendContractTx config args f).files = r at hends hskipped
    cases hends with
    | stopped submitted hresult hsent hpaused =>
        rcases hpaused hskipped with h | h
        · rw [hpass] at h
          cases h
        · rw [hpass] at h
          cases h
    | failed message submitted => cases hskipped
    | confirmed hash receipt limit =>
        rw [confirmed_result] at hskipped
        cases hskipped
  · rintro (htrips | hlate) events hseq
    · obtain ⟨pausedAtUtc, reason, hfile⟩ := htripped htrips
      exact trace_skipped hfile hseq
    · intro c hc hearly
      obtain ⟨pre, post, hcalls⟩ := List.append_of_mem hc
      obtain ⟨now', hle, hc, -⟩ := (hcalls ▸ trace_inTurn config
        (sendContractTx config args f).files hseq).append
      rw [passed_mono hlate (hle.trans hc)] at hearly
      cases hearly

/-! A transaction that pays the account one wei, with a threshold of one and of three failures. -/

def payingCall (t : ℕ) : SendArgs where
  minGasLimit := none
  clock := .atOnce t
  answers :=
    { nonceCounts := .ok (7, 7), baseFee := none, estimate := .ok 50000, baseFeeRecheck := none
      balanceBefore := some 1000000, broadcast := .ok "0x02"
      receipt := .ok ⟨some true, some 50000, some 2, none⟩, balanceAfter := some 900001 }

theorem violation_trips_paying :
    StaysPaused (breakerConfig 1) (payingCall 5000) ⟨initState, none⟩ :=
  (violation_trips rfl (by decide)).mpr (.inl (by decide))

theorem not_violation_trips : ¬∀ (config : KeeperConfig) (args : SendArgs) (f : Files),
    config.circuitBreakerEnabled = true →
      (sendContractTx config args f).result.payoutBoundViolation.isSome = true →
        StaysPaused config args f := by
  intro h
  have hstays := h (breakerConfig 3) (payingCall 5000) ⟨initState, none⟩ rfl (by decide)
  have hskipped := hstays [.send (payingCall 6000)] ⟨by decide, trivial⟩ _ (.head _) (by decide)
  exact absurd hskipped (by decide)

/-- A violating call from a clear breaker leaves a clear breaker. -/
theorem payingCall_clear (hclear : f.Clear) (t : ℕ) :
    (sendContractTx (breakerConfig 3) (payingCall t) f).result.payoutBoundViolation.isSome = true ∧
      (sendContractTx (breakerConfig 3) (payingCall t) f).files.Clear := by
  obtain ⟨⟨count, failedAt, succeededAt, trippedAt, pausedUntil, error⟩, file⟩ := f
  obtain ⟨rfl, rfl, rfl, rfl⟩ := hclear
  exact ⟨rfl, rfl, rfl, rfl, rfl⟩

/-- With a threshold of three, any number of violating transactions is submitted. -/
theorem violations_unbounded (n : ℕ) : ∃ events, Sequential 0 events ∧
    (trace (breakerConfig 3) events ⟨initState, none⟩).length = n ∧
      ∀ c ∈ trace (breakerConfig 3) events ⟨initState, none⟩,
        c.2.result.payoutBoundViolation.isSome = true := by
  suffices h : ∀ n t f, f.Clear → ∃ events, Sequential t events ∧
      (trace (breakerConfig 3) events f).length = n ∧
        ∀ c ∈ trace (breakerConfig 3) events f, c.2.result.payoutBoundViolation.isSome = true from
    h n 0 _ ⟨rfl, rfl, rfl, rfl⟩
  intro n
  induction n with
  | zero => exact fun t f _ ↦ ⟨[], trivial, rfl, by simp [trace]⟩
  | succ n ih =>
      intro t f hclear
      obtain ⟨hviolates, hclear'⟩ := payingCall_clear hclear t
      obtain ⟨events, hseq, hlength, hall⟩ := ih t _ hclear'
      refine ⟨.send (payingCall t) :: events, ⟨le_rfl, hseq⟩, by simp [trace, hlength], ?_⟩
      intro c hc
      rcases List.mem_cons.mp hc with rfl | hc
      · exact hviolates
      · exact hall c hc

end ClaimRush.Keeper
