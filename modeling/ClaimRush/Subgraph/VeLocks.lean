import ClaimRush.VeClaimNFT.State

/-!
# Lock and user entities of the subgraph

The mapping of the lock contract's events.  Entities are loaded as copies and
written back by `save`; a user that is not stored yet, or has a null field, is
loaded with zeros.
-/

open Function

namespace ClaimRush.Subgraph

open VeClaimNFT (Event)

def MAX_LOCK_DURATION_SECONDS : ℕ := 31536000

structure VeLock where
  owner : Address
  amountWei : ℕ := 0
  lockEnd : ℕ := 0
  autoMax : Bool := false
  listed : Bool := false
  currentVeWei : Option ℕ := some 0
  deriving DecidableEq, Repr

structure User where
  veBalanceWei : ℕ := 0
  totalLockedClaimWei : ℕ := 0
  deriving DecidableEq, Repr

/-- The entities that the lock mappings read: `protocol.furnace`, the locks, the
users, and whether the `MarketListing` of a token is active. -/
structure Store where
  furnace : Address := 0
  locks : ℕ → Option VeLock := fun _ ↦ none
  users : Address → User := fun _ ↦ {}
  activeListings : ℕ → Bool := fun _ ↦ false

/-- The block of an event, and what the mapping can ask its node: whether the
network is local, and `try_furnace()` at that block. -/
structure Block where
  timestamp : ℕ
  isLocalNetwork : Bool
  tryFurnace : Option Address

/-- An AutoMax lock counts in full; another decays to its end. -/
def currentVeWei (amountWei lockEnd now : ℕ) (autoMax : Bool) : ℕ :=
  if autoMax then amountWei
  else if lockEnd ≤ now then 0
  else amountWei * (lockEnd - now) / MAX_LOCK_DURATION_SECONDS

/-- The stored snapshot of a lock; a missing one is computed. -/
def lockVeSnapshot (l : VeLock) (now : ℕ) : ℕ :=
  l.currentVeWei.getD (currentVeWei l.amountWei l.lockEnd now l.autoMax)

/-- A `BigInt` difference that is clamped to zero. -/
def clampedSub (a b : ℕ) : ℕ := if a ≥ b then a - b else 0

/-- The contribution of some locks to a user's aggregate is replaced. -/
def replaceUserVeContribution (user : User) (oldVe newVe : ℕ) : User :=
  if newVe ≥ oldVe then { user with veBalanceWei := user.veBalanceWei + (newVe - oldVe) }
  else { user with veBalanceWei := clampedSub user.veBalanceWei (oldVe - newVe) }

def User.addLocked (user : User) (amount : ℕ) : User :=
  { user with totalLockedClaimWei := user.totalLockedClaimWei + amount }

def User.subLocked (user : User) (amount : ℕ) : User :=
  { user with totalLockedClaimWei := clampedSub user.totalLockedClaimWei amount }

namespace Store

variable (s : Store)

def saveLock (tokenId : ℕ) (l : VeLock) : Store :=
  { s with locks := update s.locks tokenId (some l) }

def saveUser (a : Address) (u : User) : Store := { s with users := update s.users a u }

def loadOrCreateVeLock (tokenId : ℕ) (owner : Address) : VeLock :=
  (s.locks tokenId).getD { owner := owner }

/-- A listed lock takes its active listing down. -/
def deactivateListing (tokenId : ℕ) (l : VeLock) : Store :=
  if l.listed then { s with activeListings := update s.activeListings tokenId false } else s

/-! ## Handlers -/

variable (now : ℕ)

def handleFurnaceChanged (newFurnace : Address) : Store := { s with furnace := newFurnace }

def handleLockCreated (user : Address) (tokenId amount lockEnd : ℕ) (autoMax : Bool) : Store :=
  let ve := currentVeWei amount lockEnd now autoMax
  (s.saveLock tokenId
    { owner := user, amountWei := amount, lockEnd := lockEnd, autoMax := autoMax, listed := false
      currentVeWei := some ve }).saveUser user
    (replaceUserVeContribution ((s.users user).addLocked amount) 0 ve)

def handleLockExtended (user : Address) (tokenId newEnd : ℕ) : Store :=
  let l := s.loadOrCreateVeLock tokenId user
  let oldVe := lockVeSnapshot l now
  let newVe := currentVeWei l.amountWei newEnd now l.autoMax
  (s.saveLock tokenId
    { l with owner := user, lockEnd := newEnd, currentVeWei := some newVe }).saveUser user
    (replaceUserVeContribution (s.users user) oldVe newVe)

def handleLockAmountIncreased (user : Address) (tokenId amountAdded : ℕ) : Store :=
  let l := s.loadOrCreateVeLock tokenId user
  let oldVe := lockVeSnapshot l now
  let amount := l.amountWei + amountAdded
  let newVe := currentVeWei amount l.lockEnd now l.autoMax
  (s.saveLock tokenId
    { l with owner := user, amountWei := amount, currentVeWei := some newVe }).saveUser user
    (replaceUserVeContribution ((s.users user).addLocked amountAdded) oldVe newVe)

/-- The lock that a merge is indexed into. -/
def mergedInto (user : Address) (amountMoved : ℕ) (fromLock intoLock : VeLock) : VeLock :=
  let amount := intoLock.amountWei + amountMoved
  let autoMax := intoLock.autoMax || fromLock.autoMax
  let lockEnd :=
    if autoMax then now + MAX_LOCK_DURATION_SECONDS
    else if fromLock.lockEnd > intoLock.lockEnd then fromLock.lockEnd else intoLock.lockEnd
  { intoLock with
    owner := user, amountWei := amount, autoMax := autoMax, lockEnd := lockEnd
    currentVeWei := some (currentVeWei amount lockEnd now autoMax) }

/-- The lock that a merge burned; without principal its schedule is cleared. -/
def mergedFrom (amountMoved : ℕ) (fromLock : VeLock) : VeLock :=
  let amount := clampedSub fromLock.amountWei amountMoved
  { fromLock with
    owner := 0, amountWei := amount, listed := false
    lockEnd := if amount = 0 then 0 else fromLock.lockEnd
    autoMax := if amount = 0 then false else fromLock.autoMax
    currentVeWei := some (currentVeWei amount fromLock.lockEnd now fromLock.autoMax) }

def handleLockMerged (user : Address) (fromTokenId intoTokenId amountMoved : ℕ) : Store :=
  let fromLock := s.loadOrCreateVeLock fromTokenId user
  let intoLock := s.loadOrCreateVeLock intoTokenId user
  let newFrom := mergedFrom now amountMoved fromLock
  let newInto := mergedInto now user amountMoved fromLock intoLock
  (((s.deactivateListing fromTokenId fromLock).saveLock fromTokenId newFrom).saveLock intoTokenId
    newInto).saveUser user
    (replaceUserVeContribution (s.users user)
      (lockVeSnapshot fromLock now + lockVeSnapshot intoLock now)
      (lockVeSnapshot newFrom now + lockVeSnapshot newInto now))

/-- The lock that an unlock leaves. -/
def unlockedLock (amountReturned : ℕ) (l : VeLock) : VeLock :=
  let amount := clampedSub l.amountWei amountReturned
  let lockEnd := if amount = 0 then 0 else l.lockEnd
  let autoMax := if amount = 0 then false else l.autoMax
  { l with
    owner := 0, amountWei := amount, listed := false, lockEnd := lockEnd, autoMax := autoMax
    currentVeWei := some (currentVeWei amount lockEnd now autoMax) }

def handleLockUnlocked (user : Address) (tokenId amountReturned : ℕ) : Store :=
  let l := s.loadOrCreateVeLock tokenId user
  let l' := unlockedLock now amountReturned l
  ((s.deactivateListing tokenId l).saveLock tokenId l').saveUser user
    (replaceUserVeContribution ((s.users user).subLocked amountReturned) (lockVeSnapshot l now)
      (lockVeSnapshot l' now))

/-- Enabling, disabling and refreshing AutoMax all restart the lock. -/
def handleAutoMaxSet (user : Address) (tokenId : ℕ) (autoMax : Bool) : Store :=
  let l := s.loadOrCreateVeLock tokenId user
  let lockEnd := now + MAX_LOCK_DURATION_SECONDS
  let newVe := currentVeWei l.amountWei lockEnd now autoMax
  (s.saveLock tokenId
    { l with autoMax := autoMax, lockEnd := lockEnd, currentVeWei := some newVe }).saveUser user
    (replaceUserVeContribution (s.users user) (lockVeSnapshot l now) newVe)

/-- The canonical Furnace: the stored one, else the one that the node reports. -/
def canonicalFurnace (b : Block) : Address :=
  if s.furnace = 0 ∧ b.isLocalNetwork = false then b.tryFurnace.getD s.furnace else s.furnace

/-- A burn is applied only when it comes from the Furnace; the lifecycle events
own the others. -/
def handleBurn (b : Block) (src : Address) (tokenId : ℕ) : Store :=
  let furnace := s.canonicalFurnace b
  let s := { s with furnace := furnace }
  if furnace = 0 ∨ furnace ≠ src then s
  else
    let l := s.loadOrCreateVeLock tokenId src
    let s := s.saveLock tokenId l
    if l.owner = 0 ∨ l.amountWei = 0 then s
    else
      (s.saveUser src (replaceUserVeContribution ((s.users src).subLocked l.amountWei)
        (lockVeSnapshot l b.timestamp) 0)).saveLock tokenId
        { l with owner := 0, amountWei := 0, listed := false, currentVeWei := some 0 }

/-- A mint is left to `LockCreated`, and a self-transfer changes nothing. -/
def handleTransfer (b : Block) (src dst : Address) (tokenId : ℕ) : Store :=
  if src = 0 then s
  else if src = dst then s
  else if dst = 0 then s.handleBurn b src tokenId
  else
    let l := s.loadOrCreateVeLock tokenId src
    let newVe := currentVeWei l.amountWei l.lockEnd b.timestamp l.autoMax
    let fromUser :=
      replaceUserVeContribution ((s.users src).subLocked l.amountWei)
        (lockVeSnapshot l b.timestamp) 0
    let toUser := replaceUserVeContribution ((s.users dst).addLocked l.amountWei) 0 newVe
    (((s.deactivateListing tokenId l).saveLock tokenId
      { l with owner := dst, listed := false, currentVeWei := some newVe }).saveUser src
      fromUser).saveUser dst toUser

/-- One event; the other events of the contract have no part in these entities. -/
def handle (b : Block) (s : Store) : Event → Store
  | .Transfer src dst tokenId => s.handleTransfer b src dst tokenId
  | .LockCreated user tokenId amount lockEnd autoMax =>
      s.handleLockCreated b.timestamp user tokenId amount lockEnd autoMax
  | .LockAmountIncreased user tokenId amount =>
      s.handleLockAmountIncreased b.timestamp user tokenId amount
  | .LockExtended user tokenId _ newEnd => s.handleLockExtended b.timestamp user tokenId newEnd
  | .LockMerged user fromTokenId intoTokenId amount =>
      s.handleLockMerged b.timestamp user fromTokenId intoTokenId amount
  | .LockUnlocked user tokenId amount => s.handleLockUnlocked b.timestamp user tokenId amount
  | .AutoMaxSet user tokenId enabled => s.handleAutoMaxSet b.timestamp user tokenId enabled
  | .FurnaceChanged _ newFurnace => s.handleFurnaceChanged newFurnace
  | _ => s

/-- The events of a transaction, in log order. -/
def replay (b : Block) (s : Store) (log : List Event) : Store := log.foldl (handle b) s

end Store

end ClaimRush.Subgraph
