import Mathlib.Algebra.Ring.Nat
import Mathlib.Data.List.Nodup
import Mathlib.Logic.Function.Basic
import ClaimRush.Keeper.SendTx

/-!
# A tick of compound-shareholders

From the scanned worklist on: the selection of a batch, the shrinking to the gas
limit, the batch transaction and the transactions user by user.  A user stands for
its normalised address, by which alone the task compares users.  What the chain
answers in a tick is given, and so is the reading of the clock.
-/

namespace ClaimRush.Keeper.CompoundShareholders

abbrev User := String

structure FailureRecord where
  count : ℕ
  nextTryAtMs : Option ℕ
  lastError : String

structure CompoundState where
  users : List User
  cursor : ℕ
  failures : User → Option FailureRecord
  pendingDeferredUsers : List User
  firstSeenSec : User → Option ℕ

structure CompoundConfig where
  compoundMaxUsersShareholders : ℕ
  compoundLookaheadUsers : ℕ
  compoundShareholderMinCadenceSecs : ℕ
  compoundShareholderSpreadSecs : Option ℕ
  morningWindowHours : ℕ
  compoundMaxGas : ℕ
  dryRun : Bool

/-! ## What a tick is given -/

/-- `getAutoCompoundConfig`. -/
structure AutoCompoundConfig where
  enabled : Bool
  paused : Bool
  minCadenceSeconds : ℕ
  minEthToCompound : ℕ
  lastCompoundTs : ℕ

/-- `getLockInfo`, as far as it is read. -/
structure LockInfo where
  amount : ℕ
  lockEnd : ℕ
  listed : Bool

/-- How a transaction ended; a confirmed one has executed events for some users. -/
inductive Sent
  | ok (executed : List User)
  | skipped (code : SendTxSkipCode)
  | threw (error : String)

/-- The reads of a tick, or nothing where the call throws, and its transactions. -/
structure Tick where
  nowMs : ℕ
  timestamp : Option ℕ
  configs : Option (User → Option AutoCompoundConfig)
  states : Option (User → Option ℕ × Option LockInfo)
  morningCache : Option (User → Option ℕ)
  globalMinAutoCompoundEth : ℕ
  gas : List User → Option ℕ
  batch : Sent
  one : User → Sent

/-! ## The worklist -/

def removeUser (users : List User) (cursor : ℕ) (user : User) : List User × ℕ :=
  let idx := users.findIdx (· = user)
  if idx = users.length then (users, cursor)
  else
    let nextUsers := users.eraseIdx idx
    (nextUsers,
      if nextUsers.length = 0 then 0
      else if idx < cursor then cursor - 1
      else if nextUsers.length ≤ cursor then 0
      else cursor)

def FAILURE_INITIAL_MS : ℕ := 5 * 60 * 1000

def FAILURE_MAX_MS : ℕ := 24 * 60 * 60 * 1000

def nextFailureDelayMs (count : ℕ) : ℕ := min (FAILURE_INITIAL_MS * 2 ^ (count - 1)) FAILURE_MAX_MS

def markFailure (nowMs : ℕ) (user : User) (err : String) (s : CompoundState) : CompoundState :=
  let count := ((s.failures user).map FailureRecord.count).getD 0 + 1
  { s with
    failures := Function.update s.failures user
      (some ⟨count, some (nowMs + nextFailureDelayMs count), err⟩) }

def clearFailure (user : User) (s : CompoundState) : CompoundState :=
  { s with failures := Function.update s.failures user none }

/-- The users that are not yet in the queue join its end. -/
def mergeUsers (queue : List User) : List User → List User
  | [] => queue
  | u :: us => mergeUsers (if u ∈ queue then queue else queue ++ [u]) us

def reDeferUsers (users : List User) (s : CompoundState) : CompoundState :=
  { s with pendingDeferredUsers := mergeUsers s.pendingDeferredUsers users }

def inFailureCooldown (nowMs : ℕ) (s : CompoundState) (user : User) : Bool :=
  match s.failures user with
  | none => false
  | some f => f.nextTryAtMs.any (nowMs < ·)

/-- `isInMorningWindow`; a user without data may be processed at any time. -/
def isInMorningWindow (nowMs windowHours : ℕ) (cache : User → Option ℕ) (user : User) : Bool :=
  match cache user with
  | none => true
  | some morning =>
      let hour := nowMs / 3600000 % 24
      let diff := max hour morning - min hour morning
      min diff (24 - diff) ≤ windowHours

/-! ## Spreading -/

/-- The FNV-1a hash of a key. -/
def fnv1a (key : String) : ℕ :=
  key.toList.foldl (fun h c ↦ Nat.xor h c.toNat * 0x01000193 % 2 ^ 32) 0x811c9dc5

def shareholderSpreadJitterSeconds (user : User) (lastCompoundTs spreadSecs : ℕ) : ℕ :=
  if spreadSecs = 0 then 0 else fnv1a (user ++ ":" ++ toString lastCompoundTs) % spreadSecs

section Selection

variable (config : CompoundConfig) (t : Tick)

/-- The user may be taken up now. -/
def available (s : CompoundState) (user : User) : Bool :=
  !inFailureCooldown t.nowMs s user &&
    t.morningCache.all fun cache ↦ isInMorningWindow t.nowMs config.morningWindowHours cache user

/-! ## Candidates -/

/-- The loop over the deferred queue: the candidates, and who stays in the queue. -/
def drainDeferred (listed avail : User → Bool) (lookahead : ℕ) :
    List User → List User → List User × List User
  | candidates, [] => (candidates, [])
  | candidates, user :: queue =>
      if lookahead ≤ candidates.length ∨ listed user ∧ ¬ avail user then
        let (candidates, kept) := drainDeferred listed avail lookahead candidates queue
        (candidates, user :: kept)
      else if ¬ listed user ∨ user ∈ candidates then
        drainDeferred listed avail lookahead candidates queue
      else drainDeferred listed avail lookahead (candidates ++ [user]) queue

/-- The round-robin over the worklist, with the rounds that are left. -/
def roundRobin (users : List User) (avail : User → Bool) (lookahead : ℕ) :
    ℕ → ℕ → List User → ℕ × List User
  | 0, cursor, candidates => (cursor, candidates)
  | rounds + 1, cursor, candidates =>
      if lookahead ≤ candidates.length ∨ users = [] then (cursor, candidates)
      else
        let cursor := if users.length ≤ cursor then 0 else cursor
        let user := users.getD cursor ""
        let cursor := (cursor + 1) % users.length
        roundRobin users avail lookahead rounds cursor
          (if user ∈ candidates ∨ ¬ avail user then candidates else candidates ++ [user])

/-! ## Eligibility -/

/-- The cadence of a user, or the spread of the first compound; a missing anchor of the
latter is set. -/
def dueAt (nowTs : ℕ) (cfg : AutoCompoundConfig) (anchor : Option ℕ) (user : User) : Bool :=
  let spread := config.compoundShareholderSpreadSecs.getD 0
  let cadence := max config.compoundShareholderMinCadenceSecs cfg.minCadenceSeconds
  if 0 < cadence ∧ 0 < cfg.lastCompoundTs then
    cfg.lastCompoundTs + cadence +
      shareholderSpreadJitterSeconds user cfg.lastCompoundTs spread ≤ nowTs
  else if cfg.lastCompoundTs = 0 ∧ 0 < spread then
    let anchor := anchor.getD nowTs
    anchor + shareholderSpreadJitterSeconds user anchor spread ≤ nowTs
  else true

/-- The anchor that the check of the first compound leaves. -/
def anchored (nowTs : ℕ) (cfg : AutoCompoundConfig) (user : User) (s : CompoundState) :
    CompoundState :=
  let cadence := max config.compoundShareholderMinCadenceSecs cfg.minCadenceSeconds
  if ¬ (0 < cadence ∧ 0 < cfg.lastCompoundTs) ∧ cfg.lastCompoundTs = 0 ∧
      0 < config.compoundShareholderSpreadSecs.getD 0 ∧ s.firstSeenSec user = none then
    { s with firstSeenSec := Function.update s.firstSeenSec user (some nowTs) }
  else s

/-- The first read of a candidate: the state, and whether the second one is needed. -/
def examine (nowTs : ℕ) (cfg : Option AutoCompoundConfig) (user : User) (s : CompoundState) :
    CompoundState × Option ℕ :=
  match cfg with
  | none => (markFailure t.nowMs user "multicall_read_failed" s, none)
  | some cfg =>
      if ¬ cfg.enabled ∨ cfg.paused then
        let removed := removeUser s.users s.cursor user
        (clearFailure user { s with
          users := removed.1
          cursor := removed.2
          firstSeenSec := Function.update s.firstSeenSec user none }, none)
      else (anchored config nowTs cfg user s,
        if dueAt config nowTs cfg (s.firstSeenSec user) user then some cfg.minEthToCompound
        else none)

def examineAll (nowTs : ℕ) (configs : User → Option AutoCompoundConfig) :
    CompoundState → List User → CompoundState × List (User × ℕ)
  | s, [] => (s, [])
  | s, user :: rest =>
      let (s, need) := examine config t nowTs (configs user) user s
      let (s, needs) := examineAll nowTs configs s rest
      (s, (need.map fun minEth ↦ (user, minEth)).toList ++ needs)

def MIN_AUTO_COMPOUND_REWARD_WEI : ℕ := 10 ^ 15

def effectiveMinEth (minEthToCompound : ℕ) : ℕ :=
  max (max minEthToCompound t.globalMinAutoCompoundEth) MIN_AUTO_COMPOUND_REWARD_WEI

/-- The second read of a candidate: the state, and the amount with which it is accepted. -/
def check (nowTs : ℕ) (read : Option ℕ × Option LockInfo) (user : User) (minEth : ℕ)
    (s : CompoundState) : CompoundState × Option ℕ :=
  match read with
  | (none, _) => (markFailure t.nowMs user "multicall_state_failed" s, none)
  | (some _, none) => (markFailure t.nowMs user "multicall_lock_failed" s, none)
  | (some claimable, some lock) =>
      if claimable = 0 ∨ claimable < effectiveMinEth t minEth then (s, none)
      else if lock.amount = 0 then (markFailure t.nowMs user "lock_empty" s, none)
      else if lock.listed then (markFailure t.nowMs user "lock_listed_or_frozen" s, none)
      else if lock.lockEnd ≤ nowTs then (markFailure t.nowMs user "lock_expired" s, none)
      else (clearFailure user s, some claimable)

/-- The loop that fills the batch, up to its cap. -/
def fill (nowTs : ℕ) (reads : User → Option ℕ × Option LockInfo) :
    CompoundState → List (User × ℕ) → List (User × ℕ) → CompoundState × List (User × ℕ)
  | s, batch, [] => (s, batch)
  | s, batch, (user, minEth) :: needs =>
      if batch.length < config.compoundMaxUsersShareholders then
        let (s, accepted) := check t nowTs (reads user) user minEth s
        fill nowTs reads s (batch ++ (accepted.map fun amount ↦ (user, amount)).toList) needs
      else (s, batch)

/-- The smallest amount first. -/
def batchLe (a b : User × ℕ) : Bool := decide (a.2 < b.2 ∨ a.2 = b.2 ∧ a.1 ≤ b.1)

structure Selection where
  state : CompoundState
  users : List User
  drainedFromDeferred : List User

/-- `min(compoundLookaheadUsers, users.length)`. -/
def lookahead (s : CompoundState) : ℕ := min config.compoundLookaheadUsers s.users.length

/-- What becomes of the deferred queue. -/
def drained (s : CompoundState) : List User × List User :=
  drainDeferred (fun u ↦ u ∈ s.users) (available config t s) (lookahead config s) []
    s.pendingDeferredUsers

/-- The state with the trimmed queue, and all candidates. -/
def gather (s : CompoundState) : CompoundState × List User :=
  let (candidates, kept) := drained config t s
  let (cursor, candidates) := roundRobin s.users (available config t s) (lookahead config s)
    (lookahead config s) (s.cursor % s.users.length) candidates
  ({ s with cursor := cursor, pendingDeferredUsers := kept }, candidates)

/-- `selectBatch`; nothing where a read throws. -/
def selectBatch (s : CompoundState) : Option Selection :=
  if s.users = [] then some ⟨s, [], []⟩
  else do
    let nowTs ← t.timestamp
    let (s', candidates) := gather config t s
    let (s', batch) ← if candidates = [] then some (s', []) else do
      let configs ← t.configs
      let (s', needs) := examineAll config t nowTs configs s' candidates
      if needs = [] then some (s', []) else do
        let reads ← t.states
        some (fill config t nowTs reads s' [] needs)
    let users := (batch.mergeSort batchLe).map Prod.fst
    some ⟨s', users, (drained config t s).1.filter (· ∈ users)⟩

/-! ## The transactions -/

/-- `shrinkToGasLimit`, from a prefix of `n` users on. -/
def shrinkFrom (users : List User) (n : ℕ) : List User :=
  if _h : n = 0 then []
  else if (t.gas (users.take n)).any (· ≤ config.compoundMaxGas) then users.take n
  else shrinkFrom users (n / 2)
termination_by n
decreasing_by omega

def shrinkToGasLimit (users : List User) : List User := shrinkFrom config t users users.length

/-- The skip codes that stop the transactions user by user. -/
def stopsAll : SendTxSkipCode → Bool
  | .paused | .dry_run | .pending_guard | .fee_cap | .gas_limit_cap | .total_fee_cap => true

/-- The transactions user by user: the state, who is deferred by a stop, and whose
transaction was confirmed. -/
def fallback : CompoundState → List User → CompoundState × List User × List User
  | s, [] => (s, [], [])
  | s, user :: rest =>
      match t.one user with
      | .ok executed =>
          let s := if user ∈ executed then s
            else markFailure t.nowMs user "fallback_no_executed_event" s
          let (s, latched, confirmed) := fallback s rest
          (s, latched, user :: confirmed)
      | .skipped code => if stopsAll code then (s, user :: rest, []) else fallback s rest
      | .threw error => fallback (markFailure t.nowMs user error s) rest

/-- The persisted state at the end of a tick, and the users of its confirmed transactions. -/
structure Outcome where
  state : CompoundState
  confirmed : List User

def runCompoundShareholders (s : CompoundState) : Outcome :=
  match selectBatch config t s with
  | none => ⟨s, []⟩
  | some sel =>
      let users := shrinkToGasLimit config t sel.users
      let shrunkOutDeferred := sel.drainedFromDeferred.filter (· ∉ users)
      let state := reDeferUsers shrunkOutDeferred sel.state
      if users = [] then ⟨reDeferUsers sel.drainedFromDeferred state, []⟩
      else if config.dryRun then ⟨reDeferUsers sel.drainedFromDeferred state, []⟩
      else
        match t.batch with
        | .threw _ => ⟨state, []⟩
        | .skipped _ => ⟨reDeferUsers (users ++ shrunkOutDeferred) state, []⟩
        | .ok executed =>
            let missing := users.filter (· ∉ executed)
            let (state, latched, confirmed) := fallback t state missing
            ⟨reDeferUsers latched state, users ++ confirmed⟩

end Selection

end ClaimRush.Keeper.CompoundShareholders
