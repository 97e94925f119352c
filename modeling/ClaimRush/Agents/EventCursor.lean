import Mathlib.Data.Finset.Basic
import Mathlib.Data.Finset.Image

/-!
# The event cursor of the agents

The cursor keeps the last processed block with its hash and a ring of the keys
of recent events, and persists them after each record.  `recordProcessedEvent`
waits for `getBlock` when the block advances; what it waits for is in flight.
-/

namespace ClaimRush.Agents

/-! ## Events -/

inductive EventSource
  | rpc
  | subgraph
  deriving DecidableEq, Repr

/-- A log on the chain, by its transaction and index; the subgraph's entity ids are made of both. -/
structure LogId where
  transactionHash : ℕ
  logIndex : ℕ
  deriving DecidableEq, Repr

structure ClaimRushEvent where
  source : EventSource
  log : LogId
  blockNumber : ℕ
  deriving DecidableEq, Repr

/-- The keys `subgraph:<entity id>` and `<transaction hash>-<log index>`. -/
inductive EventKey
  | subgraph (id : LogId)
  | log (id : LogId)
  deriving DecidableEq, Repr

def EventKey.id : EventKey → LogId
  | .subgraph id => id
  | .log id => id

def keyForEvent (ev : ClaimRushEvent) : EventKey :=
  match ev.source with
  | .subgraph => .subgraph ev.log
  | .rpc => .log ev.log

@[simp] theorem id_keyForEvent (ev : ClaimRushEvent) : (keyForEvent ev).id = ev.log := by
  unfold keyForEvent
  cases ev.source <;> rfl

/-! ## The cursor -/

structure EventCursorParams where
  chainId : ℕ
  rewindBlocks : ℕ
  maxRecentKeys : ℕ

/-- What the file holds. -/
structure Persisted where
  chainId : ℕ
  lastProcessedBlock : Option ℕ
  lastProcessedBlockHash : Option ℕ
  recentKeys : List EventKey
  deriving DecidableEq, Repr

structure EventCursor where
  lastProcessedBlock : Option ℕ
  lastProcessedBlockHash : Option ℕ
  recentKeys : List EventKey
  recentSet : Finset EventKey
  deriving DecidableEq

/-- The clean start. -/
def EventCursor.base : EventCursor := ⟨none, none, [], ∅⟩

def MAX_CURSOR_FILE_BYTES : ℕ := 1000000

section Cursor

variable (params : EventCursorParams) (fileSize : Persisted → ℕ)

/-- `EventCursor.load`: a file that is too large, or of another chain, counts as none. -/
def EventCursor.load (file : Option Persisted) : EventCursor :=
  match file with
  | none => .base
  | some raw =>
      if MAX_CURSOR_FILE_BYTES < fileSize raw ∨ raw.chainId ≠ params.chainId then .base
      else
        let capped := raw.recentKeys.drop (raw.recentKeys.length - params.maxRecentKeys)
        ⟨raw.lastProcessedBlock, raw.lastProcessedBlockHash, capped, capped.toFinset⟩

/-- `persist`. -/
def EventCursor.persisted (c : EventCursor) : Persisted :=
  ⟨params.chainId, c.lastProcessedBlock, c.lastProcessedBlockHash, c.recentKeys⟩

def EventCursor.getStartBlock (c : EventCursor) : Option ℕ :=
  c.lastProcessedBlock.map fun last ↦ last - params.rewindBlocks

def EventCursor.shouldProcess (c : EventCursor) (ev : ClaimRushEvent) : Bool :=
  decide (keyForEvent ev ∉ c.recentSet)

/-- The loop that drops the oldest keys. -/
def dropOldest (maxRecentKeys : ℕ) (recentSet : Finset EventKey) :
    List EventKey → List EventKey × Finset EventKey
  | [] => ([], recentSet)
  | oldest :: keys =>
      if maxRecentKeys < keys.length + 1 then
        dropOldest maxRecentKeys (recentSet.erase oldest) keys
      else (oldest :: keys, recentSet)

/-- The key ring after a record. -/
def EventCursor.pushKey (c : EventCursor) (ev : ClaimRushEvent) : EventCursor :=
  let key := keyForEvent ev
  if key ∈ c.recentSet then c
  else
    let r := dropOldest params.maxRecentKeys (insert key c.recentSet) (c.recentKeys ++ [key])
    { c with recentKeys := r.1, recentSet := r.2 }

/-- The block is above the last processed one. -/
def EventCursor.advances (c : EventCursor) (blockNumber : ℕ) : Bool :=
  match c.lastProcessedBlock with
  | none => true
  | some last => decide (last < blockNumber)

/-- `rewind`. -/
def EventCursor.rewind (c : EventCursor) : EventCursor :=
  { lastProcessedBlock := c.lastProcessedBlock.map fun last ↦ last - params.rewindBlocks
    lastProcessedBlockHash := none, recentKeys := [], recentSet := ∅ }

/-- `validateAgainstChain` with the answer of `getBlock`: the cursor, and whether it was kept. -/
def EventCursor.validateAgainstChain (c : EventCursor) (answer : Option ℕ) : EventCursor × Bool :=
  match c.lastProcessedBlock, c.lastProcessedBlockHash with
  | some _, some hash => if answer = some hash then (c, true) else (c.rewind params, false)
  | _, _ => (c, true)

end Cursor

/-! ## The agent -/

/-- The agent: its cursor, the file, the blocks that `getBlock` was asked for, and the logs
recorded by it and by the processes before it, the oldest first. -/
structure Agent where
  cursor : EventCursor
  file : Option Persisted
  inFlight : List ℕ
  recorded : List LogId

def Agent.start : Agent := ⟨.base, none, [], []⟩

inductive CursorEvent
  /-- The stream delivers an event to `onEvent`. -/
  | deliver (ev : ClaimRushEvent)
  /-- `getBlock` answers a record, with the hash or a failure. -/
  | answer (blockNumber : ℕ) (hash : Option ℕ)
  /-- A new process loads the file; `getBlock` answers its validation. -/
  | restart (hash : Option ℕ)

section Agent

variable (params : EventCursorParams) (fileSize : Persisted → ℕ)

def Agent.persist (a : Agent) : Agent := { a with file := some (a.cursor.persisted params) }

/-- `onEvent`, up to the first wait. -/
def Agent.deliver (a : Agent) (ev : ClaimRushEvent) : Agent :=
  if a.cursor.shouldProcess ev then
    let cursor := a.cursor.pushKey params ev
    let recorded := { a with cursor := cursor, recorded := a.recorded ++ [ev.log] }
    if cursor.advances ev.blockNumber then
      { recorded with
        cursor := { cursor with lastProcessedBlock := some ev.blockNumber }
        inFlight := a.inFlight ++ [ev.blockNumber] }
    else recorded.persist params
  else a

/-- The rest of `recordProcessedEvent`; a failed `getBlock` is ignored. -/
def Agent.answer (a : Agent) (blockNumber : ℕ) (hash : Option ℕ) : Agent :=
  Agent.persist params { a with
    cursor := { a.cursor with
      lastProcessedBlockHash := hash <|> a.cursor.lastProcessedBlockHash }
    inFlight := a.inFlight.erase blockNumber }

/-- The cursor of a new process before its validation. -/
def Agent.loaded (a : Agent) : EventCursor := .load params fileSize a.file

/-- A restart: a cursor that is rewound is persisted. -/
def Agent.restart (a : Agent) (hash : Option ℕ) : Agent :=
  let r := (a.loaded params fileSize).validateAgainstChain params hash
  if r.2 then { a with cursor := r.1, inFlight := [] }
  else Agent.persist params { a with cursor := r.1, inFlight := [] }

def CursorEvent.exec (a : Agent) : CursorEvent → Agent
  | .deliver ev => a.deliver params ev
  | .answer blockNumber hash => a.answer params blockNumber hash
  | .restart hash => a.restart params fileSize hash

end Agent

end ClaimRush.Agents
