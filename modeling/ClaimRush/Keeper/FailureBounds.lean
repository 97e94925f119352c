import ClaimRush.Keeper.SendTx
import Mathlib.Data.List.Induction
import Mathlib.Data.Nat.Basic
import Mathlib.Order.MinMax

/-!
# Failing transactions are bounded

While every attempt fails, the breaker trips after `maxFailures` attempts, and
again after at most `max (maxFailures, 2)` more.  Between a trip and the end of
its cooldown nothing is submitted, and after it the keeper sends again.
-/

namespace ClaimRush.Keeper

variable {config : KeeperConfig}

/-! ## The two records -/

theorem passed_mono {untilUtc : Option ℕ} {now now' : ℕ} (h : passed untilUtc now = true)
    (hle : now ≤ now') : passed untilUtc now' = true := by
  rcases untilUtc with _ | untilMs
  · cases h
  · simp only [passed, Option.any_some, decide_eq_true_eq] at h ⊢
    exact h.trans hle

theorem FailureClock.now_le_pausedFrom (c : FailureClock) : c.now ≤ c.pausedFrom := by
  have h := c.ordered
  simp only [List.pairwise_cons, List.mem_cons, forall_eq_or_imp] at h
  tauto

theorem maxFailures_pos (config : KeeperConfig) : 0 < maxFailures config := by
  unfold maxFailures
  split_ifs with h
  · exact h
  · exact Nat.one_pos

/-- Failures since the last trip, and the end of its pause. -/
structure Tally where
  since : ℕ
  last : Option (Option ℕ)

/-- The most failures until the next trip. -/
def Tally.bound (config : KeeperConfig) (g : Tally) : ℕ :=
  if g.last = none then maxFailures config else max (maxFailures config) 2

theorem Tally.le_bound (config : KeeperConfig) (g : Tally) :
    maxFailures config ≤ g.bound config := by
  unfold Tally.bound
  split_ifs
  · exact le_rfl
  · exact le_max_left ..

/-- The last pause is over. -/
def Tally.over (g : Tally) (now : ℕ) : Prop :=
  ∀ untilUtc, g.last = some untilUtc → passed untilUtc now = true

theorem Tally.over.mono {g : Tally} {now now' : ℕ} (h : g.over now) (hle : now ≤ now') :
    g.over now' :=
  fun untilUtc hlast ↦ passed_mono (h untilUtc hlast) hle

/-- The state counts failures. -/
structure Armed (config : KeeperConfig) (state : CircuitBreakerState) (g : Tally) : Prop where
  trippedAtUtc : state.trippedAtUtc = none
  pausedUntilUtc : state.pausedUntilUtc = none
  since_le : g.since ≤ state.consecutiveFailures
  failures_lt : state.consecutiveFailures < g.bound config

/-- The state holds the last trip. -/
structure Tripped (config : KeeperConfig) (state : CircuitBreakerState) (g : Tally) : Prop where
  trippedAtUtc : state.trippedAtUtc.isSome = true
  last : g.last = some (getEffectivePausedUntilUtc state config.circuitBreakerCooldownMs)
  since_eq : g.since = 0

/-- The pause file is the one of the last trip, or its pause is over. -/
inductive FileOf (now : ℕ) (g : Tally) : Option PauseFile → Prop
  | gone (h : g.over now) : FileOf now g none
  | held (pausedAtUtc : ℕ) {pausedUntilUtc : Option ℕ} (reason : String)
      (h : g.last = some pausedUntilUtc) :
      FileOf now g (some (.breaker pausedAtUtc pausedUntilUtc reason))

/-- The records agree with the tally. -/
structure Booked (config : KeeperConfig) (now : ℕ) (f : Files) (g : Tally) : Prop where
  state : Armed config f.state g ∨ Tripped config f.state g
  file : FileOf now g f.pauseFile

theorem Armed.effective {state : CircuitBreakerState} {g : Tally} (h : Armed config state g) :
    getEffectivePausedUntilUtc state config.circuitBreakerCooldownMs = none := by
  simp [getEffectivePausedUntilUtc, h.trippedAtUtc, h.pausedUntilUtc]

/-- The tally stays within its bound. -/
theorem Booked.since_le {now : ℕ} {f : Files} {g : Tally} (h : Booked config now f g) :
    g.since ≤ g.bound config := by
  rcases h.state with harmed | htripped
  · exact harmed.since_le.trans harmed.failures_lt.le
  · rw [htripped.since_eq]
    exact Nat.zero_le _

/-- The breaker state lets a call pass exactly when it is armed or its pause is over. -/
theorem Armed.not_paused {state : CircuitBreakerState} {g : Tally} (h : Armed config state g)
    (henabled : config.circuitBreakerEnabled = true) (now : ℕ) :
    breakerPaused config now state = false := by
  simp [breakerPaused, getCircuitBreakerPauseInfo_paused henabled, h.trippedAtUtc]

theorem Tripped.paused_iff {state : CircuitBreakerState} {g : Tally} (h : Tripped config state g)
    (henabled : config.circuitBreakerEnabled = true) (now : ℕ) :
    breakerPaused config now state = false ↔ g.over now := by
  simp [breakerPaused, getCircuitBreakerPauseInfo_paused henabled, h.trippedAtUtc, Tally.over,
    h.last]

/-! ## One failure -/

/-- The tally after a call. -/
def Tally.next (g : Tally) (r : Finished) : Tally :=
  match r.trip with
  | some untilUtc => ⟨0, some untilUtc⟩
  | none => if r.failed then ⟨g.since + 1, g.last⟩ else g

section Failure

variable {f : Files} {g : Tally} {clock : FailureClock}

/-- In an armed state the failure is the next one of the count. -/
theorem Armed.counted {state : CircuitBreakerState} (h : Armed config state g) (now : ℕ) :
    beforeFailure config state now = state ∧
      countedFailures config state now = state.consecutiveFailures + 1 ∧
      (trips config state now = true ↔ maxFailures config ≤ state.consecutiveFailures + 1) := by
  have hexpired : cooldownExpired config state now = false := by
    simp [cooldownExpired, h.effective, passed]
  have hbefore : beforeFailure config state now = state := by simp [beforeFailure, hexpired]
  have hcap : state.consecutiveFailures + 1 ≤ maxFailures config + 10 := by
    have hlt := h.failures_lt
    unfold Tally.bound at hlt
    split_ifs at hlt <;> omega
  have hcounted : countedFailures config state now = state.consecutiveFailures + 1 := by
    rw [countedFailures, hbefore]
    exact min_eq_left hcap
  refine ⟨hbefore, hcounted, ?_⟩
  simp [trips, effectiveThreshold, hexpired, hcounted]

/-- The first failure after a pause is counted afresh and does not trip. -/
theorem Tripped.probe {state : CircuitBreakerState} (h : Tripped config state g) {now : ℕ}
    (hover : g.over now) :
    trips config state now = false ∧ countedFailures config state now = 1 ∧
      (beforeFailure config state now).trippedAtUtc = none ∧
      (beforeFailure config state now).pausedUntilUtc = none := by
  have hexpired : cooldownExpired config state now = true := hover _ h.last
  have hcounted : countedFailures config state now = 1 := by
    simp [countedFailures, beforeFailure, hexpired]
  refine ⟨?_, hcounted, ?_, ?_⟩
  · simp [trips, effectiveThreshold, hexpired, hcounted]
  · simp [beforeFailure, hexpired]
  · simp [beforeFailure, hexpired]

/-- The pause of a state that has just tripped. -/
theorem effective_of_trip {state : CircuitBreakerState} {trippedAt pausedFrom : ℕ}
    {cooldownMs : Option ℕ} (htripped : state.trippedAtUtc = some trippedAt)
    (hpaused : state.pausedUntilUtc = computePausedUntilUtc pausedFrom cooldownMs) :
    getEffectivePausedUntilUtc state cooldownMs = computePausedUntilUtc pausedFrom cooldownMs := by
  unfold getEffectivePausedUntilUtc
  rw [hpaused, htripped]
  cases h : computePausedUntilUtc pausedFrom cooldownMs with
  | some untilUtc => rfl
  | none =>
      rw [computePausedUntilUtc, Option.map_eq_none_iff] at h
      simp [computePausedUntilUtc, h]

variable (f clock) in
/-- The end of the pause after a trip. -/
theorem recordedFailure_trip (henabled : config.circuitBreakerEnabled = true) (message : String)
    (submittedAt : Option ℕ) :
    (recordedFailure config clock message submittedAt f).trip =
      if trips config f.state clock.now then
        some (computePausedUntilUtc clock.pausedFrom config.circuitBreakerCooldownMs)
      else none := by
  unfold recordedFailure recordTxFailure
  cases trips config f.state clock.now <;> simp [henabled]

/-- What a recorded failure leaves. -/
theorem recordedFailure_booked (henabled : config.circuitBreakerEnabled = true)
    (hstate : Armed config f.state g ∨ Tripped config f.state g) (hover : g.over clock.now)
    (hfile : f.pauseFile = none) (message : String) (submittedAt : Option ℕ) {now : ℕ}
    (hnow : clock.pausedFrom ≤ now) :
    Booked config now (recordedFailure config clock message submittedAt f).files
        (g.next (recordedFailure config clock message submittedAt f)) ∧
      g.since + 1 ≤ g.bound config := by
  have hlate : g.over now := hover.mono (clock.now_le_pausedFrom.trans hnow)
  have hbound := maxFailures_pos config
  have hle := g.le_bound config
  rcases hstate with harmed | htripped
  · obtain ⟨hbefore, hcounted, htrips⟩ := harmed.counted clock.now
    have hsince := harmed.since_le
    have hlt := harmed.failures_lt
    refine ⟨?_, by omega⟩
    unfold Tally.next
    rw [recordedFailure_trip _ _ henabled]
    cases htrip : trips config f.state clock.now
    · have hless : ¬maxFailures config ≤ f.state.consecutiveFailures + 1 := by
        simp [← htrips, htrip]
      have hfiles : (recordedFailure config clock message submittedAt f).files =
          { f with state := failedState config clock message f.state } := by
        simp [recordedFailure, recordTxFailure, henabled, htrip]
      rw [hfiles]
      refine ⟨.inl ⟨?_, ?_, ?_, ?_⟩, ?_⟩
      · simp [failedState, hbefore, harmed.trippedAtUtc]
      · simp [failedState, hbefore, harmed.pausedUntilUtc]
      · simpa [failedState, hcounted, recordedFailure] using hsince
      · simp only [failedState, hcounted, recordedFailure, Tally.bound] at hle ⊢
        simp only [Bool.false_eq_true, if_false, if_true]
        omega
      · dsimp only
        rw [hfile]
        exact .gone hlate
    · have hfiles : (recordedFailure config clock message submittedAt f).files =
          (recordTxFailure config clock message f).1 := rfl
      rw [hfiles]
      simp only [recordTxFailure, henabled, htrip, Bool.true_eq_false, if_false, if_true]
      exact ⟨.inr ⟨rfl, congrArg some (effective_of_trip rfl rfl).symm, rfl⟩, .held _ _ rfl⟩
  · obtain ⟨htrip, hcounted, htripped', hpaused'⟩ := htripped.probe hover
    have hsince := htripped.since_eq
    refine ⟨?_, by omega⟩
    have hbound' : g.bound config = max (maxFailures config) 2 := by
      simp [Tally.bound, htripped.last]
    unfold Tally.next
    rw [recordedFailure_trip _ _ henabled, htrip]
    have hfiles : (recordedFailure config clock message submittedAt f).files =
        { f with state := failedState config clock message f.state } := by
      simp [recordedFailure, recordTxFailure, henabled, htrip]
    rw [hfiles]
    refine ⟨.inl ⟨htripped', hpaused', ?_, ?_⟩, ?_⟩
    · simp [failedState, hcounted, recordedFailure, hsince]
    · simp [failedState, hcounted, recordedFailure, Tally.bound, htripped.last]
    · dsimp only
      rw [hfile]
      exact .gone hlate

end Failure

/-! ## One call -/

theorem passed_iff {untilUtc : Option ℕ} {now : ℕ} :
    passed untilUtc now = true ↔ ∃ u, untilUtc = some u ∧ u ≤ now := by
  rcases untilUtc with _ | untilMs
  · simp [passed]
  · simp [passed]

theorem FileOf.mono {now now' : ℕ} {g : Tally} {file : Option PauseFile} (h : FileOf now g file)
    (hle : now ≤ now') : FileOf now' g file := by
  cases h with
  | gone hover => exact .gone (hover.mono hle)
  | held pausedAtUtc reason hlast => exact .held pausedAtUtc reason hlast

/-- The pause file lets a call pass exactly when the last pause is over. -/
theorem FileOf.open_iff {now now' : ℕ} {g : Tally} {file : Option PauseFile}
    (h : FileOf now g file) (hle : now ≤ now') (hunpaused : config.paused = false) :
    (getPauseInfo config now' file).1.paused = false ↔ g.over now' := by
  rw [getPauseInfo_paused, hunpaused, Bool.false_or]
  cases h with
  | gone hover => simpa using hover.mono hle
  | held pausedAtUtc reason hlast => simp [PauseFile.inForce, Tally.over, hlast]

/-- What a call in which no transaction confirms may do. -/
structure CallOk (config : KeeperConfig) (args : SendArgs) (g : Tally) (r : Finished) : Prop where
  bound : r.failed = true → g.since + 1 ≤ g.bound config
  waits : (r.failed = true ∨ r.submittedAt.isSome = true) → g.over args.clock.pauseCheck
  trip : ∀ untilUtc, r.trip = some untilUtc → ∃ t, args.clock.pauseCheck ≤ t ∧
    t ≤ args.clock.returned ∧ untilUtc = computePausedUntilUtc t config.circuitBreakerCooldownMs
  resumes : config.paused = false → g.over args.clock.pauseCheck → r.result ≠ .skipped .paused

section Call

variable {args : SendArgs} {f : Files} {g : Tally} {now : ℕ}

/-- The records after a call agree with the tally after it. -/
theorem sendContractTx_booked (henabled : config.circuitBreakerEnabled = true)
    (hf : Booked config now f g) (hnow : now ≤ args.clock.pauseCheck)
    (hfails : ∀ hash receipt limit v,
      (sendContractTx config args f).result ≠ .sent hash receipt limit v) :
    Booked config args.clock.returned (sendContractTx config args f).files
        (g.next (sendContractTx config args f)) ∧
      CallOk config args g (sendContractTx config args f) ∧
      ((sendContractTx config args f).trip.isSome = true → Armed config f.state g) := by
  obtain ⟨hbreaker, -, -, -, hrecheck, -, -, -, -, -, hreturned⟩ := args.clock.le_of_ordered
  cases hpause : (getPauseInfo config args.clock.pauseCheck f.pauseFile).1.paused with
  | true =>
      rw [sendContractTx_of_paused hpause]
      refine ⟨⟨hf.state, hf.file.mono (hnow.trans hreturned)⟩,
        ⟨by simp, by simp, by simp, ?_⟩, by simp⟩
      intro hunpaused hover
      rw [(hf.file.open_iff hnow hunpaused).mpr hover] at hpause
      cases hpause
  | false =>
      have hunpaused : config.paused = false := by
        rw [getPauseInfo_paused, Bool.or_eq_false_iff] at hpause
        exact hpause.1
      have hover := (hf.file.open_iff hnow hunpaused).mp hpause
      have hends := sendContractTx_of_open hpause
      generalize sendContractTx config args f = r at hends hfails ⊢
      cases hends with
      | @stopped submitted result hresult hsent hskip hopen =>
          refine ⟨⟨hf.state, .gone (hover.mono hreturned)⟩,
            ⟨by simp, fun _ ↦ hover, by simp, ?_⟩, by simp⟩
          intro _ _ hskipped
          have hpass : ∀ t, args.clock.breakerCheck ≤ t →
              breakerPaused config t f.state = false := by
            intro t ht
            rcases hf.state with harmed | htripped
            · exact harmed.not_paused henabled t
            · exact (htripped.paused_iff henabled t).mpr (hover.mono (hbreaker.trans ht))
          rcases hskip hskipped with h | h
          · rw [hpass _ le_rfl] at h
            cases h
          · rw [hpass _ hrecheck] at h
            cases h
      | @failed clock message submitted hstart hend hopen =>
          have hlate : g.over clock.now := hover.mono (hbreaker.trans hstart)
          obtain ⟨hbooked, hbound⟩ := recordedFailure_booked (f := { f with pauseFile := none })
            henabled hf.state hlate rfl message
            (if submitted then some args.clock.submitted else none) hend
          have htrip := recordedFailure_trip { f with pauseFile := none } clock henabled message
            (if submitted then some args.clock.submitted else none)
          refine ⟨hbooked, ⟨fun _ ↦ hbound, fun _ ↦ hover, ?_, by simp [recordedFailure]⟩, ?_⟩
          · intro untilUtc huntil
            rw [htrip] at huntil
            split_ifs at huntil
            exact ⟨clock.pausedFrom, (hbreaker.trans hstart).trans clock.now_le_pausedFrom, hend,
              (Option.some.inj huntil).symm⟩
          · intro hsome
            rcases hf.state with harmed | htripped
            · exact harmed
            · rw [htrip, (htripped.probe hlate).1] at hsome
              simp at hsome
      | confirmed hash receipt limit hopen =>
          exact absurd (confirmed_result hash receipt limit _) (hfails _ _ _ _)

end Call

/-! ## Runs -/

/-- What happens to the keeper. -/
inductive Event
  | send (args : SendArgs)
  /-- The process stops after a trip has written the pause file and before the state is saved. -/
  | died (args : SendArgs)
  /-- Nothing but the two files survives a restart. -/
  | restart

/-- A call cut off between the two files. -/
def cutTrip (f : Files) (r : Finished) : Finished :=
  if r.trip.isSome then
    { r with files := { state := f.state, pauseFile := r.files.pauseFile } }
  else r

/-- The calls of a run with their ends. -/
def trace (config : KeeperConfig) : List Event → Files → List (SendArgs × Finished)
  | [], _ => []
  | .restart :: events, f => trace config events f
  | .send args :: events, f =>
      let r := sendContractTx config args f
      (args, r) :: trace config events r.files
  | .died args :: events, f =>
      let r := cutTrip f (sendContractTx config args f)
      (args, r) :: trace config events r.files

/-- One call after the other. -/
def Sequential : ℕ → List Event → Prop
  | _, [] => True
  | now, .restart :: events => Sequential now events
  | now, .send args :: events =>
      now ≤ args.clock.pauseCheck ∧ Sequential args.clock.returned events
  | now, .died args :: events =>
      now ≤ args.clock.pauseCheck ∧ Sequential args.clock.returned events

/-- No transaction confirms. -/
def Failing (calls : List (SendArgs × Finished)) : Prop :=
  ∀ c ∈ calls, ∀ hash receipt limit v, c.2.result ≠ .sent hash receipt limit v

/-- Every call of the list does what its tally allows. -/
def Follows (config : KeeperConfig) : Tally → List (SendArgs × Finished) → Prop
  | g, [] => g.since ≤ g.bound config
  | g, c :: calls =>
      g.since ≤ g.bound config ∧ CallOk config c.1 g c.2 ∧ Follows config (g.next c.2) calls

theorem cutTrip_booked {args : SendArgs} {f : Files} {g : Tally} {r : Finished} {now : ℕ}
    (hbooked : Booked config now r.files (g.next r)) (hok : CallOk config args g r)
    (harmed : r.trip.isSome = true → Armed config f.state g) :
    Booked config now (cutTrip f r).files (g.next (cutTrip f r)) ∧
    CallOk config args g (cutTrip f r) := by
  unfold cutTrip
  split_ifs with htrip
  · refine ⟨⟨.inl ?_, ?_⟩, hok.bound, hok.waits, hok.trip, hok.resumes⟩
    · obtain ⟨untilUtc, huntil⟩ := Option.isSome_iff_exists.mp htrip
      have harmed := harmed htrip
      have hmax : g.bound config ≤ max (maxFailures config) 2 := by
        unfold Tally.bound
        split_ifs
        · exact le_max_left ..
        · exact le_rfl
      have hnext : g.next r = ⟨0, some untilUtc⟩ := by simp [Tally.next, huntil]
      change Armed config f.state (g.next r)
      rw [hnext]
      exact ⟨harmed.trippedAtUtc, harmed.pausedUntilUtc, Nat.zero_le _,
        harmed.failures_lt.trans_le hmax⟩
    · exact hbooked.file
  · exact ⟨hbooked, hok⟩

/-- The records and the tally agree along every run. -/
theorem trace_follows (henabled : config.circuitBreakerEnabled = true) {events : List Event}
    {f : Files} {g : Tally} {now : ℕ} (hf : Booked config now f g) (hseq : Sequential now events)
    (hfails : Failing (trace config events f)) : Follows config g (trace config events f) := by
  induction events generalizing f g now with
  | nil => exact hf.since_le
  | cons e events ih =>
      cases e with
      | restart => exact ih hf hseq hfails
      | send args =>
          have hfail := hfails (args, sendContractTx config args f) (.head _)
          obtain ⟨hbooked, hok, -⟩ := sendContractTx_booked henabled hf hseq.1 hfail
          exact ⟨hf.since_le, hok, ih hbooked hseq.2 fun c hc ↦ hfails c (.tail _ hc)⟩
      | died args =>
          have hfail := hfails (args, cutTrip f (sendContractTx config args f)) (.head _)
          have hresult : (cutTrip f (sendContractTx config args f)).result =
              (sendContractTx config args f).result := by
            unfold cutTrip
            split_ifs <;> rfl
          simp only [hresult] at hfail
          obtain ⟨hbooked, hok, harmed⟩ := sendContractTx_booked henabled hf hseq.1 hfail
          obtain ⟨hbooked, hok⟩ := cutTrip_booked hbooked hok harmed
          exact ⟨hf.since_le, hok, ih hbooked hseq.2 fun c hc ↦ hfails c (.tail _ hc)⟩

/-! ## The bounds -/

/-- Failed attempts. -/
def attempts (calls : List (SendArgs × Finished)) : ℕ := calls.countP fun c ↦ c.2.failed

/-- No call trips the breaker. -/
def Untripped (calls : List (SendArgs × Finished)) : Prop := ∀ c ∈ calls, c.2.trip = none

/-- The tally after some calls. -/
def Tally.after (g : Tally) (calls : List (SendArgs × Finished)) : Tally :=
  calls.foldl (fun g c ↦ g.next c.2) g

theorem Follows.append {calls rest : List (SendArgs × Finished)} {g : Tally}
    (h : Follows config g (calls ++ rest)) : Follows config (g.after calls) rest := by
  induction calls generalizing g with
  | nil => exact h
  | cons c calls ih => exact ih h.2.2

theorem Follows.since_le {calls : List (SendArgs × Finished)} {g : Tally}
    (h : Follows config g calls) : g.since ≤ g.bound config := by
  cases calls with
  | nil => exact h
  | cons c calls => exact h.1

theorem Tally.next_of_untripped {g : Tally} {r : Finished} (h : r.trip = none) :
    g.next r = ⟨g.since + if r.failed then 1 else 0, g.last⟩ := by
  unfold Tally.next
  rw [h]
  cases r.failed <;> rfl

/-- Attempts up to the next trip. -/
theorem Follows.attempts_le {calls rest : List (SendArgs × Finished)} {g : Tally}
    (h : Follows config g (calls ++ rest)) (hcalls : Untripped calls.dropLast) :
    g.since + attempts calls ≤ g.bound config := by
  induction calls generalizing g with
  | nil => exact h.since_le
  | cons c calls ih =>
      cases calls with
      | nil =>
          have hone : attempts [c] = if c.2.failed then 1 else 0 := by
            simp [attempts, List.countP_cons]
          rw [hone]
          split_ifs with hfailed
          · exact h.2.1.bound hfailed
          · exact h.1
      | cons c' calls =>
          have hc : c.2.trip = none := hcalls c (.head _)
          have hrest := ih h.2.2 fun d hd ↦ hcalls d (.tail _ hd)
          rw [Tally.next_of_untripped hc] at hrest
          have hone : attempts (c :: c' :: calls) =
              attempts (c' :: calls) + if c.2.failed then 1 else 0 := List.countP_cons ..
          simp only [Tally.bound] at hrest ⊢
          rw [hone]
          omega

/-- The pause of the tally comes from the last trip. -/
theorem Tally.exists_trip {g : Tally} {calls : List (SendArgs × Finished)} {untilUtc : Option ℕ}
    (hg : g.last = none) (h : (g.after calls).last = some untilUtc) :
    ∃ pre c mid, calls = pre ++ c :: mid ∧ Untripped mid ∧ c.2.trip = some untilUtc := by
  induction calls using List.reverseRecOn with
  | nil =>
      rw [Tally.after, List.foldl_nil, hg] at h
      cases h
  | append_singleton calls c ih =>
      have hafter : g.after (calls ++ [c]) = (g.after calls).next c.2 := by simp [Tally.after]
      rw [hafter] at h
      cases htrip : c.2.trip with
      | none =>
          rw [Tally.next_of_untripped htrip] at h
          obtain ⟨pre, d, mid, rfl, hmid, hd⟩ := ih h
          refine ⟨pre, d, mid ++ [c], by simp, ?_, hd⟩
          intro e he
          rcases List.mem_append.mp he with he | he
          · exact hmid e he
          · rw [List.mem_singleton.mp he]
            exact htrip
      | some untilUtc' =>
          have hlast : some untilUtc' = some untilUtc := by simpa [Tally.next, htrip] using h
          exact ⟨calls, c, [], rfl, by simp [Untripped], by rw [htrip, hlast]⟩

/-- Trips and attempts in the calls of a run. -/
structure FailuresBounded (config : KeeperConfig) (calls : List (SendArgs × Finished)) : Prop where
  /-- Attempts up to the first trip. -/
  first : ∀ pre post, calls = pre ++ post → Untripped pre.dropLast →
    attempts pre ≤ maxFailures config
  /-- Attempts after a trip up to the next one. -/
  next : ∀ pre c mid post, calls = pre ++ c :: (mid ++ post) → c.2.trip.isSome = true →
    Untripped mid.dropLast → attempts mid ≤ max (maxFailures config) 2
  /-- A trip pauses for the cooldown from an instant of its call. -/
  ends : ∀ c ∈ calls, ∀ untilUtc, c.2.trip = some untilUtc → ∃ t, c.1.clock.pauseCheck ≤ t ∧
    t ≤ c.1.clock.returned ∧ untilUtc = computePausedUntilUtc t config.circuitBreakerCooldownMs
  /-- A call that fails or submits after a trip began when the cooldown had ended. -/
  holds : ∀ pre c mid d post, calls = pre ++ c :: (mid ++ d :: post) →
    ∀ untilUtc, c.2.trip = some untilUtc → (d.2.failed = true ∨ d.2.submittedAt.isSome = true) →
      ∃ u, untilUtc = some u ∧ u ≤ d.1.clock.pauseCheck
  /-- Before the first trip, and once a cooldown has ended, no call is skipped as paused. -/
  resumes : config.paused = false → ∀ pre d post, calls = pre ++ d :: post →
    (∀ pre' c mid untilUtc, pre = pre' ++ c :: mid → Untripped mid → c.2.trip = some untilUtc →
      ∃ u, untilUtc = some u ∧ u ≤ d.1.clock.pauseCheck) → d.2.result ≠ .skipped .paused

/-- Each call begins after the ones before it have returned. -/
def InTurn : ℕ → List (SendArgs × Finished) → Prop
  | _, [] => True
  | now, c :: calls => now ≤ c.1.clock.pauseCheck ∧ InTurn c.1.clock.returned calls

variable (config) in
theorem trace_inTurn (f : Files) {events : List Event} {now : ℕ} (hseq : Sequential now events) :
    InTurn now (trace config events f) := by
  induction events generalizing f now with
  | nil => trivial
  | cons e events ih =>
      cases e with
      | restart => exact ih _ hseq
      | send args => exact ⟨hseq.1, ih _ hseq.2⟩
      | died args => exact ⟨hseq.1, ih _ hseq.2⟩

theorem InTurn.append {calls rest : List (SendArgs × Finished)} {now : ℕ}
    (h : InTurn now (calls ++ rest)) : ∃ now', now ≤ now' ∧ InTurn now' rest := by
  induction calls generalizing now with
  | nil => exact ⟨now, le_rfl, h⟩
  | cons c calls ih =>
      obtain ⟨-, -, -, -, -, -, -, -, -, -, hreturned⟩ := c.1.clock.le_of_ordered
      obtain ⟨now', hle, hrest⟩ := ih h.2
      exact ⟨now', (h.1.trans hreturned).trans hle, hrest⟩

/-- A call that attempts anything began after the end of each pause before it. -/
theorem Follows.waits {mid post : List (SendArgs × Finished)} {d : SendArgs × Finished} {g : Tally}
    {now : ℕ} {untilUtc : Option ℕ} (h : Follows config g (mid ++ d :: post))
    (hturn : InTurn now (mid ++ d :: post)) (hlast : g.last = some untilUtc)
    (hd : d.2.failed = true ∨ d.2.submittedAt.isSome = true)
    (hfailed : ∀ c ∈ mid, c.2.trip.isSome = true → c.2.failed = true) :
    passed untilUtc d.1.clock.pauseCheck = true := by
  induction mid generalizing g now with
  | nil => exact h.2.1.waits hd untilUtc hlast
  | cons c mid ih =>
      have hrest : ∀ c ∈ mid, c.2.trip.isSome = true → c.2.failed = true := fun c hc ↦
        hfailed c (.tail _ hc)
      cases htrip : c.2.trip with
      | none =>
          refine ih h.2.2 hturn.2 ?_ hrest
          rw [Tally.next_of_untripped htrip]
          exact hlast
      | some untilUtc' =>
          have hover := h.2.1.waits (.inl (hfailed c (.head _) (by simp [htrip]))) untilUtc hlast
          obtain ⟨-, -, -, -, -, -, -, -, -, -, hreturned⟩ := c.1.clock.le_of_ordered
          obtain ⟨now', hle, hturn'⟩ := hturn.2.append
          exact passed_mono hover (hreturned.trans (hle.trans hturn'.1))

/-- Only a recorded failure trips. -/
theorem trip_failed {args : SendArgs} {f : Files}
    (h : (sendContractTx config args f).trip.isSome = true) :
    (sendContractTx config args f).failed = true := by
  cases hpause : (getPauseInfo config args.clock.pauseCheck f.pauseFile).1.paused with
  | true =>
      rw [sendContractTx_of_paused hpause] at h
      cases h
  | false =>
      have hends := sendContractTx_of_open hpause
      generalize sendContractTx config args f = r at hends h ⊢
      cases hends with
      | stopped => cases h
      | failed message submitted hstart hend hopen => rfl
      | confirmed hash receipt limit hopen =>
          unfold confirmed at h ⊢
          cases haudit :
            auditPayout args.answers.balanceBefore args.answers.balanceAfter receipt with
          | none => simp [haudit] at h
          | some v => rfl

variable (config) in
theorem trace_trip_failed (events : List Event) (f : Files) :
    ∀ c ∈ trace config events f, c.2.trip.isSome = true → c.2.failed = true := by
  induction events generalizing f with
  | nil => simp [trace]
  | cons e events ih =>
      cases e with
      | restart => exact ih _
      | send args =>
          intro c hc htrip
          rcases List.mem_cons.mp hc with rfl | hc
          · exact trip_failed htrip
          · exact ih _ c hc htrip
      | died args =>
          intro c hc htrip
          rcases List.mem_cons.mp hc with rfl | hc
          · unfold cutTrip at htrip ⊢
            split_ifs at htrip ⊢
            · exact trip_failed htrip
            · exact trip_failed htrip
          · exact ih _ c hc htrip

/-! ## Every sequence of calls -/

/-- No failure is counted and nothing is paused. -/
structure Files.Clear (f : Files) : Prop where
  consecutiveFailures : f.state.consecutiveFailures = 0
  trippedAtUtc : f.state.trippedAtUtc = none
  pausedUntilUtc : f.state.pausedUntilUtc = none
  pauseFile : f.pauseFile = none

theorem Files.Clear.booked {f : Files} (h : f.Clear) (now : ℕ) : Booked config now f ⟨0, none⟩ := by
  refine ⟨.inl ⟨h.trippedAtUtc, h.pausedUntilUtc, Nat.zero_le _, ?_⟩, ?_⟩
  · rw [h.consecutiveFailures]
    exact (maxFailures_pos config).trans_le (Tally.le_bound config _)
  · rw [h.pauseFile]
    exact .gone (by simp [Tally.over])

/-- In a run in which no transaction confirms, from a clear breaker, trips bound the failed
attempts, hold for their cooldown, and end with it. -/
theorem failures_bounded (henabled : config.circuitBreakerEnabled = true) {f : Files}
    (hclear : f.Clear) {events : List Event} (hseq : Sequential 0 events)
    (hfails : Failing (trace config events f)) :
    FailuresBounded config (trace config events f) := by
  have hfollows := trace_follows henabled (hclear.booked 0) hseq hfails
  have hturn : InTurn 0 (trace config events f) := trace_inTurn config f hseq
  have hfailed := trace_trip_failed config events f
  generalize trace config events f = calls at hfollows hturn hfailed
  constructor
  · rintro pre post rfl huntripped
    simpa [Tally.bound] using hfollows.attempts_le huntripped
  · rintro pre c mid post rfl htrip huntripped
    obtain ⟨untilUtc, huntil⟩ := Option.isSome_iff_exists.mp htrip
    have hle := hfollows.append.2.2.attempts_le huntripped
    simpa [Tally.next, huntil, Tally.bound] using hle
  · intro c hc untilUtc huntil
    obtain ⟨pre, post, rfl⟩ := List.append_of_mem hc
    exact hfollows.append.2.1.trip untilUtc huntil
  · rintro pre c mid d post rfl untilUtc huntil hd
    obtain ⟨now, -, hturn'⟩ := hturn.append
    refine passed_iff.mp (hfollows.append.2.2.waits hturn'.2 ?_ hd fun c' hc' ↦ ?_)
    · simp [Tally.next, huntil]
    · exact hfailed c' (by simp [hc'])
  · rintro hunpaused pre d post rfl hover
    refine hfollows.append.2.1.resumes hunpaused fun untilUtc hlast ↦ passed_iff.mpr ?_
    obtain ⟨pre', c, mid, rfl, hmid, htrip⟩ := Tally.exists_trip rfl hlast
    exact hover pre' c mid untilUtc rfl hmid htrip

/-! A reverting transaction, one in the pause, and two after it. -/

def revertingCall (t : ℕ) : SendArgs where
  minGasLimit := none
  clock := .atOnce t
  answers :=
    { nonceCounts := .ok (0, 0), baseFee := none, estimate := .ok 21000, baseFeeRecheck := none
      balanceBefore := none, broadcast := .ok "0x01", receipt := .ok ⟨some false, none, none, none⟩
      balanceAfter := none }

def revertingRun : List Event :=
  [.send (revertingCall 1000), .restart, .send (revertingCall 2000), .died (revertingCall 61000),
    .send (revertingCall 62000)]

theorem failures_bounded_reverting :
    FailuresBounded (breakerConfig 1) (trace (breakerConfig 1) revertingRun ⟨initState, none⟩) ∧
      attempts (trace (breakerConfig 1) revertingRun ⟨initState, none⟩) = 3 := by
  have hresults :
      (trace (breakerConfig 1) revertingRun ⟨initState, none⟩).map (fun c ↦ c.2.result) =
      [.threw "tx reverted: 0x01", .skipped .paused, .threw "tx reverted: 0x01",
        .threw "tx reverted: 0x01"] := by
    decide
  refine ⟨failures_bounded rfl ⟨rfl, rfl, rfl, rfl⟩
    (by simp [revertingRun, revertingCall, Sequential, CallClock.atOnce]) ?_, by decide⟩
  intro c hc hash receipt limit v hsent
  have hmem := List.mem_map_of_mem (f := fun c : SendArgs × Finished ↦ c.2.result) hc
  rw [hresults] at hmem
  simp [hsent] at hmem

end ClaimRush.Keeper
