import ClaimRush.MineCore.Helper

/-!
# Storage of MineCore

The storage of the game contract, grouped by the functions that write it: the
reign with the pause, the window of recent takeovers, the ETH owed to users and
the CLAIM owed to kings.  The game contract acts on the Furnace, the lock
contract and the token through their own functions.
-/

open Function

namespace ClaimRush.MineCore

open Constants

/-- The current reign and the pause. -/
structure Game where
  takeoversPaused : Bool
  currentKing : Address
  currentReignId : ℕ
  currentReignStartTime : ℕ
  currentReignLastAccrualTime : ℕ
  referencePrice : ℕ
  pausedSince : ℕ
  deriving DecidableEq, Repr

/-- The ring of the kings of the last takeovers, with their counts. -/
structure TakeoverWindow where
  takeoverWindow : ℕ → Address
  takeoverWindowCursor : ℕ
  takeoverWindowTakeovers : Address → ℕ

/-- ETH that could not be delivered. -/
structure EthBuckets where
  kingEthBalance : Address → ℕ
  totalKingEthOwed : ℕ
  refundEthBalance : Address → ℕ
  totalRefundEthOwed : ℕ
  shareholderEthPending : ℕ
  lastShareholderRetryTs : ℕ

structure KingAutoLockConfig where
  enabled : Bool := false
  createAutoMax : Bool := false
  durationSeconds : ℕ := 0
  targetTokenId : ℕ := 0
  pinnedTokenId : ℕ := 0
  minVeOut : ℕ := 0
  deriving DecidableEq, Repr, Inhabited

/-- CLAIM credited to kings, and the locks it goes to. -/
structure KingClaims where
  pendingKingClaim : Address → ℕ
  totalPendingKingClaim : ℕ
  kingAutoLockConfig : Address → KingAutoLockConfig

structure Genesis where
  emissionStartTime : ℕ
  GENESIS_ACCRUAL_DURATION : ℕ
  genesisKingClaimCollected : Bool
  genesisKingClaimMinted : ℕ
  deriving DecidableEq, Repr

structure Wiring where
  self : Address
  royalties : Address
  helper : Address
  owner : Address
  pendingOwner : Address
  guardian : Address
  furnace : Address
  entryTokenRegistry : Address
  claimAllHelper : Address
  delegationHub : Address
  configFrozen : Bool
  deriving DecidableEq, Repr

structure ReignInfo where
  king : Address := 0
  startTime : ℕ := 0
  endTime : ℕ := 0
  pricePaid : ℕ := 0
  referencePrice : ℕ := 0
  totalClaimMined : ℕ := 0
  totalEthToKing : ℕ := 0
  deriving DecidableEq, Repr, Inhabited

structure Reigns where
  reignEthRecipient : ℕ → Address
  reignClaimRecipient : ℕ → Address
  totalVeForReign : ℕ → ℕ
  reignInfo : ℕ → ReignInfo
  kingReigns : Address → List ℕ

inductive Event
  | GuardianChanged (old new : Address)
  | FurnaceChanged (old new : Address)
  | ConfigFrozen
  | EntryTokenRegistrySet (registry : Address)
  | ClaimAllHelperChanged (old new : Address)
  | DelegationHubChanged (old new : Address)
  | OwnershipTransferStarted (previousOwner newOwner : Address)
  | OwnershipTransferred (previousOwner newOwner : Address)
  | TakeoversPausedChanged (paused : Bool)
  | KingWithdrawal (user : Address) (amount : ℕ)
  | KingWithdrawalTo (user dst : Address) (amount : ℕ)
  | RefundWithdrawn (user dst : Address) (amount : ℕ)
  | PendingClaimWithdrawn (user dst : Address) (amount : ℕ)
  | KingAutoLockConfigured (user : Address) (enabled : Bool)
      (targetTokenId pinnedTokenId durationSeconds : ℕ) (createAutoMax : Bool) (minVeOut : ℕ)
  | DelegationSessionUsed (user delegate : Address) (actionType perms refId timestamp : ℕ)
  | KingClaimLiquidPaid (reignId : ℕ) (recipient : Address) (amount liquidBps : ℕ)
  | KingAutoLockSkipped (reignId : ℕ) (recipient : Address) (amount reason : ℕ)
  | KingAutoLockExecuted (reignId : ℕ) (recipient : Address) (amount tokenId : ℕ)
  | KingClaimCredited (recipient : Address) (amount : ℕ)
  | KingAutoLockFailed (reignId : ℕ) (recipient : Address) (amount : ℕ) (reason : Option Error)
  | KingEthPaid (recipient : Address) (amount : ℕ)
  | KingEthCredited (recipient : Address) (amount : ℕ)
  | ReignFinalized (reignId : ℕ) (king : Address) (startTime endTime claimMined ethToKing : ℕ)
  | ReignRecipientsSet (reignId : ℕ) (king ethRecipient claimRecipient : Address)
  | Takeover (reignId : ℕ) (prevKing newKing : Address) (pricePaid referencePrice timestamp : ℕ)
  | ShareholderRoyaltiesFlushFailed
  | ShareholderRoyaltiesTakeoverFailed (reignId amount : ℕ)
  | RefundCredited (dst : Address) (amount : ℕ)
  deriving DecidableEq, Repr

/-- Bookkeeping for the statements about runs.  No function of the contract
reads it. -/
structure Ghost where
  /-- CLAIM ever minted to the king stream. -/
  kingMinted : ℕ := 0
  /-- CLAIM ever minted to the Furnace. -/
  furnaceMinted : ℕ := 0
  /-- ETH transfers that succeeded. -/
  ethSent : List (Address × ℕ) := []
  /-- CLAIM of the king stream that was locked, by recipient. -/
  locked : List (Address × ℕ) := []

structure CoreState where
  wiring : Wiring
  game : Game
  window : TakeoverWindow
  buckets : EthBuckets
  kings : KingClaims
  genesis : Genesis
  reigns : Reigns
  events : List Event
  ghost : Ghost

def CoreState.emit (s : CoreState) (e : Event) : CoreState := { s with events := s.events ++ [e] }

/-- The game contract with its ETH, and the contracts that it acts on. -/
structure World (S : Type) where
  core : CoreState
  /-- `address(this).balance`. -/
  balance : ℕ
  furnace : Furnace.World S

namespace World

variable {S : Type} (w : World S)

def claim : ClaimToken := w.furnace.base.claim

def ve : VeClaimNFT.VeState := w.furnace.base.ve

def withClaim (claim : ClaimToken) : World S := { w with furnace := w.furnace.withClaim claim }

def emit (e : Event) : World S := { w with core := w.core.emit e }

/-- CLAIM held by the game contract. -/
def claimBalance : ℕ := w.claim.balanceOf w.core.wiring.self

/-- `_isReciprocallyWiredFurnace`. -/
def isReciprocallyWiredFurnace (call : Call) (furnace : Address) : Bool :=
  MineCore.isReciprocallyWiredFurnace call w.core.wiring.self w.claim.self w.ve.self
    w.core.wiring.royalties furnace

/-- `_isCanonicalGenesisGuardian`. -/
def isCanonicalGenesisGuardian (call : Call) (candidate : Address) : Bool :=
  MineCore.isCanonicalGenesisGuardian call w.core.wiring.self w.claim.self candidate

/-- `_resolveCanonicalDelegationHub`. -/
def resolveCanonicalDelegationHub (call : Call) : Except Error Address := do
  requireCanonicalDelegationHub call w.core.wiring.self w.claim.self w.ve.self
    w.core.wiring.royalties w.core.wiring.furnace w.core.wiring.delegationHub
  return w.core.wiring.delegationHub

end World

/-- The call that the game contract makes to another contract. -/
def Call.byCore (call : Call) (core : CoreState) : Furnace.Call :=
  { call.toFurnaceCall with sender := core.wiring.self, value := 0 }

/-- `_rejectDelegatedEOA`. -/
def rejectDelegatedEOA (call : Call) (account : Address) : Except Error Unit :=
  revertIf (call.delegatedEOA account) .NotAContract

/-- `onlyOwner`, with `_validateNewOwner` of the caller. -/
def onlyOwner (call : Call) (core : CoreState) : Except Error Unit := do
  revertIf (call.sender ≠ core.wiring.owner) .OwnableUnauthorizedAccount
  revertIf (call.delegatedEOA call.sender) .DelegatedEOAOwner

/-- `onlyGuardian`. -/
def onlyGuardian (call : Call) (core : CoreState) : Except Error Unit := do
  revertIf (call.sender ≠ core.wiring.guardian) .OnlyGuardian
  rejectDelegatedEOA call call.sender

/-- Storage after `initialize`; the genesis window has ten days on the main chain
and one day elsewhere. -/
def initial (self royalties helper owner : Address) (mainnet : Bool) (deployedAt : ℕ) :
    CoreState where
  wiring :=
    { self := self, royalties := royalties, helper := helper, owner := owner, pendingOwner := 0
      guardian := owner, furnace := 0, entryTokenRegistry := 0, claimAllHelper := 0
      delegationHub := 0, configFrozen := false }
  game :=
    { takeoversPaused := true, currentKing := 0, currentReignId := 0, currentReignStartTime := 0
      currentReignLastAccrualTime := 0, referencePrice := TAKEOVER_PRICE_FLOOR, pausedSince := 0 }
  window :=
    { takeoverWindow := fun _ ↦ 0, takeoverWindowCursor := 0, takeoverWindowTakeovers := fun _ ↦ 0 }
  buckets :=
    { kingEthBalance := fun _ ↦ 0, totalKingEthOwed := 0, refundEthBalance := fun _ ↦ 0
      totalRefundEthOwed := 0, shareholderEthPending := 0, lastShareholderRetryTs := 0 }
  kings :=
    { pendingKingClaim := fun _ ↦ 0, totalPendingKingClaim := 0, kingAutoLockConfig := fun _ ↦ {} }
  genesis :=
    { emissionStartTime := deployedAt
      GENESIS_ACCRUAL_DURATION := if mainnet then 10 * DAY else DAY
      genesisKingClaimCollected := false, genesisKingClaimMinted := 0 }
  reigns :=
    { reignEthRecipient := fun _ ↦ 0, reignClaimRecipient := fun _ ↦ 0, totalVeForReign := fun _ ↦ 0
      reignInfo := fun _ ↦ {}, kingReigns := fun _ ↦ [] }
  events := []
  ghost := {}

end ClaimRush.MineCore
