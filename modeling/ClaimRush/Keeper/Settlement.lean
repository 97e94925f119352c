import ClaimRush.Lib.IsoDate
import Mathlib.Data.Nat.ModEq

/-!
# Settlement windows

The scheduler opens a window of tasks once in a period.  The first window comes
from the wall clock, each later one from the window before it.  Instants are
milliseconds since the epoch.
-/

namespace ClaimRush.Keeper

/-! ## Window timing -/

def DAY_MS : ℕ := 86400000

def WEEK_SECS : ℕ := 604800

/-- The options with the ranges that `loadConfig` clamps them to. -/
structure SettlementConfig where
  settlementPeriodSecs : ℕ
  settlementDayUtc : ℕ
  settlementHourUtc : ℕ
  settlementWindowDurationSecs : ℕ
  period_ge : 3600 ≤ settlementPeriodSecs
  period_le : settlementPeriodSecs ≤ 604800
  day_le : settlementDayUtc ≤ 6
  hour_le : settlementHourUtc ≤ 23
  duration_ge : 3600 ≤ settlementWindowDurationSecs
  duration_le : settlementWindowDurationSecs ≤ settlementPeriodSecs

/-- `d.setUTCHours(hourUtc, 0, 0, 0)`. -/
def setUTCHours (ms hourUtc : ℕ) : ℕ := ms / DAY_MS * DAY_MS + hourUtc * 3600000

/-- `d.getUTCDay()`: the epoch is a Thursday. -/
def getUTCDay (ms : ℕ) : ℕ := (ms / DAY_MS + 4) % 7

def computeNextWindowMs (periodSecs dayOfWeek hourUtc nowMs : ℕ) : ℕ :=
  let periodMs := periodSecs * 1000
  let d := setUTCHours nowMs hourUtc
  let candidate :=
    if periodSecs % WEEK_SECS = 0 then
      let currentDay := getUTCDay d
      let daysAhead :=
        if dayOfWeek < currentDay then dayOfWeek + 7 - currentDay else dayOfWeek - currentDay
      d + daysAhead * DAY_MS
    else d
  if candidate ≤ nowMs then candidate + periodMs else candidate

def isWindowDue (nextWindowMs nowMs : ℕ) : Bool := decide (nextWindowMs ≤ nowMs)

/-- `new Date(windowOpenMs).toISOString().slice(0, 10)`. -/
def cycleIdFromWindowMs (windowOpenMs : ℕ) : String :=
  String.ofList ((isoDate (windowOpenMs / DAY_MS)).text.take 10)

/-! ## Cycles -/

inductive SettlementPhase
  | immediate
  | spread
  deriving DecidableEq, Repr

structure BatchEntry where
  taskName : String
  users : List String
  scheduledAtMs : ℕ
  completed : Bool
  deriving DecidableEq, Repr

structure SettlementCycleState where
  cycleId : String
  windowOpenMs : ℕ
  windowCloseMs : ℕ
  phase : SettlementPhase
  immediateTasksCompleted : List String
  harvestCompleted : Bool
  spreadBatchesCompleted : List BatchEntry
  spreadBatchesPending : List String
  priorityQueue : List String
  failedTasks : List String
  attemptCount : ℕ
  lastAttemptMs : ℕ
  deriving DecidableEq, Repr

structure SettlementState where
  nextWindowMs : ℕ
  current : Option SettlementCycleState
  pendingPriorityQueue : List String
  deriving DecidableEq, Repr

section Lifecycle

variable (config : SettlementConfig)

/-- The period and the duration of a window in milliseconds. -/
def SettlementConfig.periodMs : ℕ := config.settlementPeriodSecs * 1000

def SettlementConfig.windowDurationMs : ℕ := config.settlementWindowDurationSecs * 1000

/-- The next window of the configured cadence. -/
def SettlementConfig.nextWindow (nowMs : ℕ) : ℕ :=
  computeNextWindowMs config.settlementPeriodSecs config.settlementDayUtc config.settlementHourUtc
    nowMs

/-- `loadSettlementState`: an idle schedule that is more than a period away is anchored again. -/
def loadSettlementState (file : Option SettlementState) (nowMs : ℕ) : SettlementState :=
  match file with
  | none => ⟨config.nextWindow nowMs, none, []⟩
  | some persisted =>
      if persisted.current = none ∧ nowMs + config.periodMs < persisted.nextWindowMs then
        { persisted with nextWindowMs := config.nextWindow nowMs }
      else persisted

def openCycle (state : SettlementState) (nowMs : ℕ) : SettlementState :=
  { nextWindowMs := state.nextWindowMs
    current := some
      { cycleId := cycleIdFromWindowMs state.nextWindowMs
        windowOpenMs := state.nextWindowMs
        windowCloseMs := state.nextWindowMs + config.windowDurationMs
        phase := .immediate
        immediateTasksCompleted := []
        harvestCompleted := false
        spreadBatchesCompleted := []
        spreadBatchesPending := []
        priorityQueue := state.pendingPriorityQueue
        failedTasks := []
        attemptCount := 0
        lastAttemptMs := nowMs }
    pendingPriorityQueue := [] }

/-- The loop of `closeCycle`, with as many turns as the fuel allows. -/
def skipElapsed (nowMs : ℕ) : ℕ → ℕ → ℕ
  | 0, nextWindowMs => nextWindowMs
  | fuel + 1, nextWindowMs =>
      if nextWindowMs + config.windowDurationMs ≤ nowMs then
        skipElapsed nowMs fuel (nextWindowMs + config.periodMs)
      else nextWindowMs

def closeCycle (state : SettlementState) (nowMs : ℕ) : SettlementState :=
  match state.current with
  | some cycle =>
      { nextWindowMs := skipElapsed config nowMs (nowMs + 1) (cycle.windowOpenMs + config.periodMs)
        current := none, pendingPriorityQueue := cycle.spreadBatchesPending }
  | none =>
      { nextWindowMs := config.nextWindow nowMs, current := none, pendingPriorityQueue := [] }

end Lifecycle

/-! ## Work in a window -/

/-- The updates of the running cycle. -/
inductive Work
  | markImmediateTaskDone (taskName : String)
  | transitionToSpread
  | populateSpreadBatches (batches : List BatchEntry) (allUsers : List String)
  | markHarvestDone
  | markBatchCompleted (batchIndex : ℕ) (processedUsers : List String) (nowMs : ℕ)
  | markTaskFailed (taskName : String)

def Work.apply (cycle : SettlementCycleState) : Work → SettlementCycleState
  | .markImmediateTaskDone taskName =>
      if taskName ∈ cycle.immediateTasksCompleted then cycle
      else { cycle with immediateTasksCompleted := cycle.immediateTasksCompleted ++ [taskName] }
  | .transitionToSpread => { cycle with phase := .spread }
  | .populateSpreadBatches batches allUsers =>
      { cycle with
        spreadBatchesPending := allUsers
        spreadBatchesCompleted := cycle.spreadBatchesCompleted ++ batches }
  | .markHarvestDone => { cycle with harvestCompleted := true }
  | .markBatchCompleted batchIndex processedUsers nowMs =>
      { cycle with
        spreadBatchesCompleted := cycle.spreadBatchesCompleted.modify batchIndex
          fun b ↦ { b with completed := true }
        spreadBatchesPending := cycle.spreadBatchesPending.filter
          fun u ↦ u.toLower ∉ processedUsers.map String.toLower
        attemptCount := cycle.attemptCount + 1
        lastAttemptMs := nowMs }
  | .markTaskFailed taskName =>
      if taskName ∈ cycle.failedTasks then cycle
      else { cycle with failedTasks := cycle.failedTasks ++ [taskName] }

/-- Work leaves the window. -/
theorem Work.apply_window (cycle : SettlementCycleState) (work : Work) :
    (work.apply cycle).windowOpenMs = cycle.windowOpenMs ∧
      (work.apply cycle).windowCloseMs = cycle.windowCloseMs := by
  cases work with
  | markImmediateTaskDone taskName =>
      simp only [apply]
      split_ifs <;> exact ⟨rfl, rfl⟩
  | markTaskFailed taskName =>
      simp only [apply]
      split_ifs <;> exact ⟨rfl, rfl⟩
  | transitionToSpread => exact ⟨rfl, rfl⟩
  | populateSpreadBatches batches allUsers => exact ⟨rfl, rfl⟩
  | markHarvestDone => exact ⟨rfl, rfl⟩
  | markBatchCompleted batchIndex processedUsers nowMs => exact ⟨rfl, rfl⟩

def isSpreadPhaseComplete (cycle : SettlementCycleState) : Bool :=
  cycle.harvestCompleted && cycle.spreadBatchesPending.isEmpty &&
    cycle.spreadBatchesCompleted.all BatchEntry.completed

/-! ## The daemon -/

/-- The state file, the state in memory, and the cycles opened so far, the newest first. -/
structure Daemon where
  file : Option SettlementState
  sState : SettlementState
  opened : List SettlementCycleState

/-- `persistSettlement` after an assignment to `sState`. -/
def Daemon.persist (d : Daemon) (state : SettlementState) : Daemon :=
  { d with file := some state, sState := state }

section Daemon

variable (config : SettlementConfig)

/-- The running cycle is past its window. -/
def Daemon.closeDue (d : Daemon) (now : ℕ) : Daemon :=
  match d.sState.current with
  | some cycle =>
      if cycle.windowCloseMs ≤ now then d.persist (closeCycle config d.sState now) else d
  | none => d

/-- No cycle is running, and the next window is due. -/
def Daemon.openDue (d : Daemon) (now : ℕ) : Daemon :=
  if d.sState.current = none ∧ isWindowDue d.sState.nextWindowMs now then
    let state := openCycle config d.sState now
    { d.persist state with opened := state.current.toList ++ d.opened }
  else d

/-- The settlement part of one turn of the daemon loop, up to the tasks. -/
def Daemon.tick (d : Daemon) (now : ℕ) : Daemon := (d.closeDue config now).openDue config now

/-- The end of a turn whose spread phase is complete. -/
def Daemon.spreadComplete (d : Daemon) (now : ℕ) : Daemon :=
  match d.sState.current with
  | some cycle =>
      if cycle.phase = .spread ∧ isSpreadPhaseComplete cycle then
        d.persist (closeCycle config d.sState now)
      else d
  | none => d

/-- An update of the running cycle. -/
def Daemon.work (d : Daemon) (w : Work) : Daemon :=
  match d.sState.current with
  | some cycle => d.persist { d.sState with current := some (w.apply cycle) }
  | none => d

/-- A new process reads the file. -/
def Daemon.restart (d : Daemon) (now : ℕ) : Daemon :=
  { d with sState := loadSettlementState config d.file now }

/-- The first process, without a file. -/
def Daemon.start (now : ℕ) : Daemon := ⟨none, loadSettlementState config none now, []⟩

end Daemon

end ClaimRush.Keeper
