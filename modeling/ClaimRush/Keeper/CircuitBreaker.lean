import Mathlib.Tactic.Common

/-!
# The circuit breaker of the keeper

Two records stop the keeper: the breaker state, and a pause file that removes
itself when it is read after its end.  Instants and durations are milliseconds;
the two files can be read and written.
-/

namespace ClaimRush.Keeper

/-- The options of the transaction pipeline. -/
structure KeeperConfig where
  paused : Bool
  dryRun : Bool
  circuitBreakerEnabled : Bool
  circuitBreakerMaxFailures : ℕ
  circuitBreakerCooldownMs : Option ℕ
  allowTxWhilePending : Bool
  txGasLimitMultiplierBps : ℕ
  txMaxFeePerGasWei : Option ℕ
  txMaxGasLimit : Option ℕ
  txMaxTotalFeeWei : Option ℕ
  deriving DecidableEq, Repr

/-! ## The pause file -/

inductive PauseSource
  | env
  | file
  deriving DecidableEq, Repr

structure PauseInfo where
  paused : Bool
  reason : Option String
  untilUtc : Option ℕ
  source : Option PauseSource
  deriving DecidableEq, Repr

/-- What the pause file says. -/
inductive PauseFile
  /-- Not a record of the breaker: an operator wrote it. -/
  | manual (reason : String)
  | breaker (pausedAtUtc : ℕ) (pausedUntilUtc : Option ℕ) (reason : String)
  deriving DecidableEq, Repr

/-- The instant is set and has come. -/
def passed (untilUtc : Option ℕ) (now : ℕ) : Bool :=
  untilUtc.any fun untilMs ↦ decide (untilMs ≤ now)

def notPaused : PauseInfo := ⟨false, none, none, none⟩

/-- `getPauseInfo`: an expired record of the breaker is removed. -/
def getPauseInfo (config : KeeperConfig) (now : ℕ) (file : Option PauseFile) :
    PauseInfo × Option PauseFile :=
  if config.paused then (⟨true, some "KEEPER_PAUSED=1", none, some .env⟩, file)
  else match file with
    | none => (notPaused, none)
    | some (.manual reason) => (⟨true, some reason, none, some .file⟩, file)
    | some (.breaker _ pausedUntilUtc reason) =>
        if passed pausedUntilUtc now then (notPaused, none)
        else (⟨true, some reason, pausedUntilUtc, some .file⟩, file)

/-- The file stops the keeper at the instant. -/
def PauseFile.inForce (now : ℕ) : PauseFile → Bool
  | .manual _ => true
  | .breaker _ pausedUntilUtc _ => !passed pausedUntilUtc now

section Pauses

variable {config : KeeperConfig} {now : ℕ} {file : Option PauseFile}

theorem getPauseInfo_paused :
    (getPauseInfo config now file).1.paused =
      (config.paused || file.any (PauseFile.inForce now)) := by
  unfold getPauseInfo
  rcases hp : config.paused with _ | _
  · rcases file with _ | _ | ⟨pausedAtUtc, pausedUntilUtc, reason⟩
    · rfl
    · rfl
    · cases hpassed : passed pausedUntilUtc now <;> simp [PauseFile.inForce, hpassed, notPaused]
  · rfl

/-- A check that stops the keeper leaves the file. -/
theorem getPauseInfo_of_paused (h : (getPauseInfo config now file).1.paused = true) :
    (getPauseInfo config now file).2 = file := by
  unfold getPauseInfo at h ⊢
  rcases hp : config.paused with _ | _
  · rcases file with _ | _ | ⟨pausedAtUtc, pausedUntilUtc, reason⟩
    · rfl
    · rfl
    · cases hpassed : passed pausedUntilUtc now
      · simp [hpassed]
      · simp [hp, hpassed, notPaused] at h
  · rfl

/-- After a check that lets the keeper pass there is no file. -/
theorem getPauseInfo_of_open (h : (getPauseInfo config now file).1.paused = false) :
    (getPauseInfo config now file).2 = none := by
  unfold getPauseInfo at h ⊢
  rcases hp : config.paused with _ | _
  · rcases file with _ | _ | ⟨pausedAtUtc, pausedUntilUtc, reason⟩
    · rfl
    · simp [hp] at h
    · cases hpassed : passed pausedUntilUtc now
      · simp [hp, hpassed] at h
      · simp [hpassed]
  · simp [hp] at h

end Pauses

/-! ## The breaker state -/

structure CircuitBreakerState where
  consecutiveFailures : ℕ
  lastFailureAtUtc : Option ℕ
  lastSuccessAtUtc : Option ℕ
  trippedAtUtc : Option ℕ
  pausedUntilUtc : Option ℕ
  lastError : Option String
  deriving DecidableEq, Repr

/-- `initState`, which a missing file reads as. -/
def initState : CircuitBreakerState where
  consecutiveFailures := 0
  lastFailureAtUtc := none
  lastSuccessAtUtc := none
  trippedAtUtc := none
  pausedUntilUtc := none
  lastError := none

/-- The two files. -/
structure Files where
  state : CircuitBreakerState
  pauseFile : Option PauseFile
  deriving DecidableEq, Repr

def computePausedUntilUtc (trippedAtUtc : ℕ) (cooldownMs : Option ℕ) : Option ℕ :=
  (cooldownMs.filter fun cooldown ↦ decide (0 < cooldown)).map (trippedAtUtc + ·)

def getEffectivePausedUntilUtc (state : CircuitBreakerState) (cooldownMs : Option ℕ) : Option ℕ :=
  match state.pausedUntilUtc with
  | some pausedUntilUtc => some pausedUntilUtc
  | none => state.trippedAtUtc.bind fun trippedAtUtc ↦ computePausedUntilUtc trippedAtUtc cooldownMs

structure BreakerPauseInfo where
  paused : Bool
  untilUtc : Option ℕ
  deriving DecidableEq, Repr

def getCircuitBreakerPauseInfo (config : KeeperConfig) (now : ℕ) (state : CircuitBreakerState) :
    BreakerPauseInfo :=
  if config.circuitBreakerEnabled = false then ⟨false, none⟩
  else if state.trippedAtUtc = none then ⟨false, none⟩
  else
    let untilUtc := getEffectivePausedUntilUtc state config.circuitBreakerCooldownMs
    if passed untilUtc now then ⟨false, untilUtc⟩ else ⟨true, untilUtc⟩

theorem getCircuitBreakerPauseInfo_paused {config : KeeperConfig} {now : ℕ}
    {state : CircuitBreakerState} (henabled : config.circuitBreakerEnabled = true) :
    (getCircuitBreakerPauseInfo config now state).paused =
      (state.trippedAtUtc.isSome &&
        !passed (getEffectivePausedUntilUtc state config.circuitBreakerCooldownMs) now) := by
  unfold getCircuitBreakerPauseInfo
  rcases htripped : state.trippedAtUtc with _ | trippedAtUtc
  · simp [henabled]
  · cases hpassed : passed (getEffectivePausedUntilUtc state config.circuitBreakerCooldownMs) now
    · simp [henabled, hpassed]
    · simp [henabled, hpassed]

/-! ## Bookkeeping -/

/-- `recordTxSuccess`. -/
def recordTxSuccess (config : KeeperConfig) (now : ℕ) (f : Files) : Files :=
  if config.circuitBreakerEnabled = false then f
  else { f with state := { f.state with
    consecutiveFailures := 0, lastSuccessAtUtc := some now, trippedAtUtc := none
    pausedUntilUtc := none, lastError := none } }

/-- The readings of the clock in `recordTxFailure`, in order. -/
structure FailureClock where
  now : ℕ
  failedAt : ℕ
  trippedAt : ℕ
  pausedAt : ℕ
  pausedFrom : ℕ
  ordered : [now, failedAt, trippedAt, pausedAt, pausedFrom].Pairwise (· ≤ ·)

/-- A configured number that is not positive counts as one. -/
def maxFailures (config : KeeperConfig) : ℕ :=
  if 0 < config.circuitBreakerMaxFailures then config.circuitBreakerMaxFailures else 1

section Failures

variable (config : KeeperConfig) (state : CircuitBreakerState)

/-- The state holds a cooldown that has ended. -/
def cooldownExpired (now : ℕ) : Bool :=
  passed (getEffectivePausedUntilUtc state config.circuitBreakerCooldownMs) now

/-- The state before the failure is counted. -/
def beforeFailure (now : ℕ) : CircuitBreakerState :=
  if cooldownExpired config state now then
    { state with consecutiveFailures := 0, trippedAtUtc := none, pausedUntilUtc := none }
  else state

/-- The failures with the new one. -/
def countedFailures (now : ℕ) : ℕ :=
  min ((beforeFailure config state now).consecutiveFailures + 1) (maxFailures config + 10)

/-- The first failure after a cooldown is a probe. -/
def effectiveThreshold (now : ℕ) : ℕ :=
  if cooldownExpired config state now then max (maxFailures config) 2 else maxFailures config

/-- The failure trips the breaker. -/
def trips (now : ℕ) : Bool :=
  decide (effectiveThreshold config state now ≤ countedFailures config state now)

end Failures

/-- `writePauseFile`. -/
def writePauseFile (clock : FailureClock) (reason : String) (cooldownMs : Option ℕ) : PauseFile :=
  .breaker clock.pausedAt (computePausedUntilUtc clock.pausedFrom cooldownMs) reason

/-- The state after a failure that does not trip. -/
def failedState (config : KeeperConfig) (clock : FailureClock) (error : String)
    (state : CircuitBreakerState) : CircuitBreakerState :=
  { beforeFailure config state clock.now with
    consecutiveFailures := countedFailures config state clock.now
    lastFailureAtUtc := some clock.failedAt
    lastError := some (String.ofList (error.toList.take 2048)) }

/-- The pause file that a trip writes first. -/
def tripPauseFile (config : KeeperConfig) (clock : FailureClock) (state : CircuitBreakerState) :
    PauseFile :=
  writePauseFile clock
    ("circuit breaker tripped after " ++ (countedFailures config state clock.now).repr ++
      " consecutive tx failures") config.circuitBreakerCooldownMs

/-- `recordTxFailure`: the files, and whether the breaker tripped. -/
def recordTxFailure (config : KeeperConfig) (clock : FailureClock) (error : String) (f : Files) :
    Files × Bool :=
  if config.circuitBreakerEnabled = false then (f, false)
  else
    let next := failedState config clock error f.state
    if trips config f.state clock.now then
      ({ state := { next with
          trippedAtUtc := some clock.trippedAt
          pausedUntilUtc :=
            computePausedUntilUtc clock.pausedFrom config.circuitBreakerCooldownMs }
         pauseFile := some (tripPauseFile config clock f.state) }, true)
    else ({ f with state := next }, false)

end ClaimRush.Keeper
