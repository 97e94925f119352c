import ClaimRush.ClaimToken
import ClaimRush.Constants
import ClaimRush.Lib.IndexedHeap

/-!
# Storage of VeClaimNFT

The storage of the lock contract, the events it emits, and the surroundings it
reads: the block, the caller, and the getters of the contracts it is wired to.
The global accumulators are one record because checkpoints and deltas touch
nothing else.
-/

namespace ClaimRush.VeClaimNFT

/-- A veCLAIM lock; a burned token keeps the zero lock. -/
structure Lock where
  amount : ℕ := 0
  lockStart : ℕ := 0
  lockEnd : ℕ := 0
  autoMax : Bool := false
  listed : Bool := false
  deriving DecidableEq, Repr, Inhabited

/-- Accumulators of the total ve bias.  `slopeChanges` holds the slope that
leaves the total at each time, and `slopeTimes` the times with a non-zero
entry. -/
structure GlobalState where
  globalSlopeScaled : ℕ
  globalBiasScaled : ℕ
  globalLastTs : ℕ
  totalVeCached : ℕ
  slopeChanges : ℕ → ℕ
  slopeTimes : IndexedHeap ℕ

inductive Event
  | Transfer (src dst : Address) (tokenId : ℕ)
  | LockCreated (user : Address) (tokenId amount lockEnd : ℕ) (autoMax : Bool)
  | LockAmountIncreased (user : Address) (tokenId amount : ℕ)
  | LockExtended (user : Address) (tokenId oldEnd newEnd : ℕ)
  | LockMerged (user : Address) (fromTokenId intoTokenId fromAmount : ℕ)
  | LockUnlocked (owner : Address) (tokenId amount : ℕ)
  | AutoMaxSet (user : Address) (tokenId : ℕ) (enabled : Bool)
  | MetadataUpdate (tokenId : ℕ)
  | ShareholderCheckpointFailed (user royalties : Address)
  | SlopeDriftClamped (time change slope : ℕ)
  | DelegationSessionUsed (user delegate : Address)
      (actionType perms tokenId timestamp : ℕ)
  | MineMarketChanged (old new : Address)
  | FurnaceChanged (old new : Address)
  | ConfigFrozen
  deriving DecidableEq, Repr

/-- Contract storage, with the log of emitted events. -/
structure VeState where
  self : Address
  claimToken : Address
  owner : Address
  configFrozen : Bool
  mineMarket : Address
  furnace : Address
  totalLockedClaim : ℕ
  locks : ℕ → Lock
  nextTokenId : ℕ
  owners : ℕ → Address
  balances : Address → ℕ
  ownedTokens : Address → List ℕ
  ownedTokensIndex : ℕ → ℕ
  global : GlobalState
  events : List Event

/-- The getters that wiring checks staticcall. -/
inductive Selector
  | shareholderRoyalties | royalties | delegationHub | furnace | ve | claim | claimToken
  | mineCore | mineMarket | claimAllHelper
  deriving DecidableEq, Repr

/-- One call: its block, its caller, and the answers of the other contracts. -/
structure Call where
  timestamp : ℕ
  timestamp_pos : 0 < timestamp
  sender : Address
  codeLength : Address → ℕ
  /-- The account code starts with a delegation designator of 23 bytes. -/
  delegatedEOA : Address → Bool
  staticcallAddress : Address → Selector → Address
  /-- `IDelegationHub(hub).isAuthorized(user, delegate, perms)`. -/
  isAuthorized : Address → Address → Address → ℕ → Bool
  /-- `IERC721Receiver(to).onERC721Received` returned its selector. -/
  onERC721Received : Address → Bool

/-- A call `delay` seconds after the start by an account that no contract knows. -/
def plainCall (delay sender : ℕ) : Call where
  timestamp := delay + 1
  timestamp_pos := Nat.succ_pos delay
  sender := sender
  codeLength := fun _ ↦ 0
  delegatedEOA := fun _ ↦ false
  staticcallAddress := fun _ _ ↦ 0
  isAuthorized := fun _ _ _ _ ↦ false
  onERC721Received := fun _ ↦ false

/-- The two royalties functions that a lock mutation calls, at the address the
wiring resolves.  They read the lock contract and the block time, and cannot
re-enter a lock mutation because every one of them is `nonReentrant`; `none` is
a reverted call. -/
structure IShareholderRoyalties (S : Type) where
  checkpointUser : Address → ℕ → VeState → Address → S → Option S
  pinUserObservedMin : Address → ℕ → VeState → Address → S → Option S

/-- The lock contract together with the royalties storage and the CLAIM token. -/
structure World (S : Type) where
  ve : VeState
  royalties : S
  claim : ClaimToken

namespace VeState

variable (s : VeState)

def emit (e : Event) : VeState := { s with events := s.events ++ [e] }

def setLock (tokenId : ℕ) (l : Lock) : VeState :=
  { s with locks := Function.update s.locks tokenId l }

/-- `getLockInfo`: the amount, the end (an AutoMax lock always has the maximal
duration left), the mode and the listed flag. -/
def getLockInfo (nowTs tokenId : ℕ) : ℕ × ℕ × Bool × Bool :=
  let l := s.locks tokenId
  let effectiveEnd :=
    if l.autoMax ∧ l.amount ≠ 0 then nowTs + Constants.MAX_LOCK_DURATION else l.lockEnd
  (l.amount, effectiveEnd, l.autoMax, l.listed)

/-- Token ids that currently have an owner. -/
def IsLive (tokenId : ℕ) : Prop := s.owners tokenId ≠ 0

end VeState

/-- Storage after the constructor, at deployment time `deployedAt`. -/
def initial (self claimToken owner : Address) (deployedAt : ℕ) : VeState where
  self := self
  claimToken := claimToken
  owner := owner
  configFrozen := false
  mineMarket := 0
  furnace := 0
  totalLockedClaim := 0
  locks := fun _ ↦ {}
  nextTokenId := 1
  owners := fun _ ↦ 0
  balances := fun _ ↦ 0
  ownedTokens := fun _ ↦ []
  ownedTokensIndex := fun _ ↦ 0
  global :=
    { globalSlopeScaled := 0
      globalBiasScaled := 0
      globalLastTs := deployedAt
      totalVeCached := 0
      slopeChanges := fun _ ↦ 0
      slopeTimes := IndexedHeap.empty }
  events := []

end ClaimRush.VeClaimNFT
