import Mathlib.Data.List.Nodup
import ClaimRush.Lib.Transition

/-!
# The asynchronous cache

`AsyncTtlCache` keeps values for a time and shares a computation among the callers
that ask for its key.  A call runs to its first `await` without interruption, at one
reading of the clock; the computations that are then in flight settle as calls of
their own.  A time to live is what `parseStrictNonNegativeSafeInteger` makes of it.
-/

namespace ClaimRush.Agents.AsyncTtlCache

variable {V : Type}

/-! ## The map -/

/-- The promise of a computation, by the order of the starts, or one that is rejected. -/
inductive Promised
  | computation (id : ℕ)
  | rejected
  deriving DecidableEq

/-- An entry; without a value it is `MISSING`. -/
structure CacheEntry (V : Type) where
  expiresAtMs : ℕ
  lastAccessMs : ℕ
  value : Option V
  inFlight : Option Promised

/-- A `Map`, in the order of insertion. -/
abbrev EntryMap (V : Type) := List (String × CacheEntry V)

/-- `map.set`. -/
def put (key : String) (ent : CacheEntry V) (map : EntryMap V) : EntryMap V :=
  if key ∈ map.map Prod.fst then map.map fun x ↦ if x.1 = key then (key, ent) else x
  else map ++ [(key, ent)]

/-- `map.delete`. -/
def erase (key : String) (map : EntryMap V) : EntryMap V := map.filter fun x ↦ x.1 ≠ key

def toRemove (maxEntries : ℕ) : ℕ := max 1 (maxEntries / 10)

/-- `pruneIfNeeded`: the entries that were not accessed for the longest time go. -/
def pruneIfNeeded (maxEntries : ℕ) (map : EntryMap V) : EntryMap V :=
  if map.length ≤ maxEntries then map
  else
    let entries := map.mergeSort fun a b ↦ decide (a.2.lastAccessMs ≤ b.2.lastAccessMs)
    let removed := (entries.take (toRemove maxEntries)).map Prod.fst
    map.filter fun x ↦ x.1 ∉ removed

/-! ## The calls -/

def get (key : String) (now : ℕ) (map : EntryMap V) : EntryMap V × Option V :=
  match map.lookup key with
  | none => (map, none)
  | some ent =>
      if ent.expiresAtMs ≤ now then (erase key map, none)
      else (put key { ent with lastAccessMs := now } map, ent.value)

def set (maxEntries : ℕ) (key : String) (value : V) (ttl now : ℕ) (map : EntryMap V) :
    EntryMap V :=
  pruneIfNeeded maxEntries (put key ⟨now + ttl, now, some value, none⟩ map)

/-- What `getOrSet` does before it waits. -/
inductive Found (V : Type)
  | value (v : V)
  | awaits (promise : Promised)
  | starts

/-- The lookup of `getOrSet`, for a positive time to live. -/
def find (key : String) (now : ℕ) (map : EntryMap V) : EntryMap V × Found V :=
  match map.lookup key with
  | none => (map, .starts)
  | some ent =>
      if now < ent.expiresAtMs then
        let map := put key { ent with lastAccessMs := now } map
        match ent.value, ent.inFlight with
        | some v, _ => (map, .value v)
        | none, some promise => (map, .awaits promise)
        | none, none => (map, .starts)
      else (map, .starts)

/-- The marker of a computation that was started. -/
def mark (maxEntries : ℕ) (key : String) (promise : Promised) (ttl now : ℕ) (map : EntryMap V) :
    EntryMap V :=
  pruneIfNeeded maxEntries (put key ⟨now + ttl, now, none, some promise⟩ map)

def cooldownMs (ttl : ℕ) : ℕ := min ttl (max 1000 (min 2000 ttl))

/-- The rejection that a failed computation leaves. -/
def reject (key : String) (ttl now : ℕ) (map : EntryMap V) : EntryMap V :=
  put key ⟨now + cooldownMs ttl, now, none, some .rejected⟩ map

/-! ## The cache among its callers -/

/-- A computation in flight. -/
structure Computation where
  id : ℕ
  key : String
  ttl : ℕ

/-- What a run of calls did. -/
inductive Happening (V : Type)
  | started (id : ℕ) (key : String)
  | finished (id : ℕ) (key : String) (v : V) (time ttl : ℕ)
  | wrote (key : String) (v : V) (time ttl : ℕ)
  | deleted (key : String)
  | cleared
  | served (key : String) (v : V) (time : ℕ)

/-- The map, the computations in flight, the callers that wait for them, and the
history, the latest first. -/
structure World (V : Type) where
  map : EntryMap V
  started : ℕ
  running : List Computation
  waiting : List (ℕ × String)
  clock : ℕ
  log : List (Happening V)

def World.init : World V := ⟨[], 0, [], [], 0, []⟩

/-- A call, or the end of a computation: its value, or nothing where it fails.  A
function that `throws` does so before it returns its promise. -/
inductive Call (V : Type)
  | get (key : String)
  | set (key : String) (v : V) (ttl : Option ℕ)
  | delete (key : String)
  | clear
  | getOrSet (key : String) (ttl : Option ℕ) (throws : Bool)
  | settle (id : ℕ) (result : Option V)

/-- A time to live with which something is cached. -/
def cacheable (ttl : Option ℕ) : Option ℕ := ttl.filter (0 < ·)

def World.serve (key : String) (v : Option V) (s : World V) : World V :=
  match v with
  | none => s
  | some v => { s with log := .served key v s.clock :: s.log }

/-- A computation is started and its caller waits for it. -/
def World.start (maxEntries : ℕ) (key : String) (ttl : ℕ) (throws : Bool) (s : World V) :
    World V :=
  let id := s.started
  if throws then
    { s with
      map := mark maxEntries key .rejected ttl s.clock (reject key ttl s.clock s.map)
      started := id + 1
      log := .started id key :: s.log }
  else
    { s with
      map := mark maxEntries key (.computation id) ttl s.clock s.map
      started := id + 1
      running := s.running ++ [⟨id, key, ttl⟩]
      waiting := s.waiting ++ [(id, key)]
      log := .started id key :: s.log }

/-- The computation is no longer in flight and no one waits for it. -/
def World.settled (c : Computation) (s : World V) : World V :=
  { s with
    running := s.running.filter fun c' ↦ c'.id ≠ c.id
    waiting := s.waiting.filter fun w ↦ w.1 ≠ c.id }

/-- Those who wait for the computation. -/
def World.waiters (c : Computation) (s : World V) : List String :=
  (s.waiting.filter fun w ↦ w.1 = c.id).map Prod.snd

def World.finish (maxEntries : ℕ) (c : Computation) (v : V) (s : World V) : World V :=
  { s.settled c with
    map := set maxEntries c.key v c.ttl s.clock s.map
    log := (s.waiters c).map (fun key ↦ .served key v s.clock) ++
      .finished c.id c.key v s.clock c.ttl :: s.log }

def World.fail (c : Computation) (s : World V) : World V :=
  { s.settled c with map := reject c.key c.ttl s.clock s.map }

/-- A call at the time of the world's clock. -/
def World.call (maxEntries : ℕ) (s : World V) : Call V → World V
  | .get key =>
      let (map, v) := AsyncTtlCache.get key s.clock s.map
      { s with map := map }.serve key v
  | .set key v ttl =>
      match cacheable ttl with
      | none => s
      | some ttl =>
          { s with
            map := AsyncTtlCache.set maxEntries key v ttl s.clock s.map
            log := .wrote key v s.clock ttl :: s.log }
  | .delete key => { s with map := erase key s.map, log := .deleted key :: s.log }
  | .clear => { s with map := [], log := .cleared :: s.log }
  | .getOrSet key ttl throws =>
      match cacheable ttl with
      -- The function is called, past the cache.
      | none => s
      | some ttl =>
          match find key s.clock s.map with
          | (map, .value v) => { s with map := map }.serve key (some v)
          | (map, .awaits (.computation id)) =>
              { s with map := map, waiting := s.waiting ++ [(id, key)] }
          | (map, .awaits .rejected) => { s with map := map }
          | (map, .starts) => { s with map := map }.start maxEntries key ttl throws
  | .settle id result =>
      match s.running.find? fun c ↦ c.id = id with
      | none => s
      | some c =>
          match result with
          | some v => s.finish maxEntries c v
          | none => s.fail c

def World.tick (now : ℕ) (s : World V) : World V := { s with clock := now }

/-- The runs whose calls meet a condition on the world before them. -/
def system (maxEntries : ℕ) (allowed : World V → ℕ → Call V → Prop) :
    TransitionSystem (World V) where
  init s := s = .init
  step s s' := ∃ now call, allowed s now call ∧ s' = (s.tick now).call maxEntries call

end ClaimRush.Agents.AsyncTtlCache
