import ClaimRush.VeClaimNFT.Locks
import ClaimRush.Lib.LinearStream

/-!
# Storage of Furnace

The reserve of bonus CLAIM, the virtual depth of the bonus curve, the stream of
rewards to the LP vault and the per-lock bonus records.  The Furnace owns no
locks of its own: it creates and changes them through the lock contract, and
keeps its CLAIM in the token.  The helpers that the Furnace delegates to are
modelled in place, without the check that the caller is the wired Furnace.
-/

open Function

namespace ClaimRush.Furnace

open Constants

/-- `FurnaceGuardHelper.BonusAmmFrame`. -/
structure BonusAmmFrame where
  user : Address
  principalClaim : ℕ
  principalEff : ℕ
  lockDurationSec : ℕ
  reserveBefore : ℕ := 0
  userSpotBps : ℕ := 0
  lpRateBps : ℕ := 0
  grossSpotBps : ℕ := 0
  virtualDepthBefore : ℕ := 0
  quoteUserBps : ℕ := 0
  quoteLpBps : ℕ := 0
  grossBonus : ℕ := 0
  userBonus : ℕ := 0
  lpBonus : ℕ := 0
  deriving DecidableEq, Repr

inductive Event
  | LpStreamFunded (amount newRate newFinish : ℕ)
  | LpRewardsNotifyFailed (vault : Address) (amount : ℕ)
  | CarrySettlementFailed (vault : Address) (carry : ℕ)
  | LpOverflowDripPaid (dripAmount reserveBefore reserveAfter alphaBps gateBps capInflowPerDay
      capFixedPerDay reserveTarget excessBefore : ℕ)
  | ReserveClamped (caller : Address) (oldReserve newReserve balance liability : ℕ)
  | ReserveCredited (amount reserve : ℕ)
  | BonusPaid (frame : BonusAmmFrame) (reserveAfter virtualDepthAfter : ℕ)
  | FurnaceEnter (user : Address) (mode ethIn principalClaim bonusClaim tokenId : ℕ)
  | NearSlippageLimitEntry (user : Address) (tokenId minVeOut actualVeOut marginBps : ℕ)
  | FurnaceMergeWithBonus (user : Address) (fromTokenId intoTokenId fromAmount intoAmount
      newPrincipal newEnd : ℕ) (newAutoMax : Bool) (durationDelta bonusClaim : ℕ)
  | AutoMaxBonusClaimed (user : Address) (tokenId bonusClaim : ℕ)
  | LockSoldToFurnace (seller : Address) (tokenId lockAmount claimOut spreadBps cut
      lpSaleShareBps lpReward reserveAdd bonusBpsUsed : ℕ)
  | PendingSellNFTRescued (tokenId : ℕ) (seller : Address) (withdrawn : ℕ)
  | DelegationSessionUsed (user delegate : Address) (actionType perms refId timestamp : ℕ)
  | MineCoreChanged (old new : Address)
  | GuardianChanged (old new : Address)
  | ShareholderRoyaltiesChanged (old new : Address)
  | MineMarketChanged (old new : Address)
  | DelegationHubChanged (old new : Address)
  | EntryTokenRegistrySet (registry : Address)
  | FurnaceQuoterSet (old new : Address)
  | ConfigFrozen
  | LpRewardsVaultSet (old new : Address)
  | LockingPausedChanged (paused : Bool)
  | EmergencyVaultRewireRequested (vault : Address) (liability executeAfter : ℕ)
  | EmergencyVaultRewireCancelled
  | EmergencyVaultRewireExecuted (oldVault : Address) (stranded : ℕ)
  deriving DecidableEq, Repr

/-- Bookkeeping for the statements about runs.  No function of the contract
reads it. -/
structure Ghost where
  /-- CLAIM ever folded into the LP stream. -/
  funded : ℕ := 0
  /-- CLAIM ever paid by the LP stream. -/
  streamed : ℕ := 0
  /-- Time of the last funding. -/
  fundedAt : ℕ := 0

/-- Contract storage, with the log of emitted events.  `stream` holds the slots
`lpStreamRatePerSec`, `lpStreamPeriodFinish`, `lpStreamLastUpdate` and
`lpStreamCarry`. -/
structure FurnaceState where
  self : Address
  owner : Address
  deploymentTime : ℕ
  shareholderRoyalties : Address
  mineCore : Address
  mineMarket : Address
  lpRewardsVault : Address
  pendingSellSeller : ℕ → Address
  entryTokenRegistry : Address
  furnaceQuoter : Address
  configFrozen : Bool
  guardian : Address
  lockingPaused : Bool
  delegationHub : Address
  furnaceReserve : ℕ
  bonusVirtualDepth : ℕ
  lastBonusUpdate : ℕ
  sellImpactVolume : ℕ
  lastSellImpactUpdate : ℕ
  lastLpOverflowDripUpdate : ℕ
  stream : LinearStream
  emergencyVaultRewireExecuteAfter : ℕ
  emergencyVaultRewireTargetVault : Address
  lpSaleFundedDay : ℕ
  lpSaleFundedToday : ℕ
  lastAutoMaxBonusClaim : ℕ → ℕ
  bonusBasis : ℕ → ℕ
  events : List Event
  ghost : Ghost

def FurnaceState.emit (f : FurnaceState) (e : Event) : FurnaceState :=
  { f with events := f.events ++ [e] }

/-- `IEntryTokenRegistry.getRouterConfig()`. -/
structure RouterConfig where
  router : Address
  factory : Address
  weth : Address
  claimToken : Address

/-- One call: the block, the caller and the answers of the other contracts;
`none` is a reverted call. -/
structure Call extends VeClaimNFT.Call where
  /-- `msg.value`. -/
  value : ℕ
  /-- `IMineCore(core).emissionStartTime()`. -/
  emissionStartTime : Address → Option ℕ
  /-- `IMineCore(core).getFurnaceEmissionRateAt(timestamp)`. -/
  furnaceEmissionRateAt : Address → ℕ → Option ℕ
  routerConfig : Address → Option RouterConfig
  /-- `ILpStakingVault7D(vault).notifyRewards(amount)` succeeded. -/
  notifyRewards : Address → ℕ → Bool

/-- The Furnace with the lock contract, the royalties storage and the token. -/
structure World (S : Type) where
  furnace : FurnaceState
  base : VeClaimNFT.World S

namespace World

variable {S : Type} (w : World S)

def claim : ClaimToken := w.base.claim

def ve : VeClaimNFT.VeState := w.base.ve

def withClaim (claim : ClaimToken) : World S := { w with base := { w.base with claim := claim } }

def emit (e : Event) : World S := { w with furnace := w.furnace.emit e }

/-- CLAIM held by the Furnace. -/
def claimBalance : ℕ := w.base.claim.balanceOf w.furnace.self

end World

/-- The call that the Furnace makes to the lock contract. -/
def Call.byFurnace (call : Call) (f : FurnaceState) : VeClaimNFT.Call :=
  { call.toCall with sender := f.self }

/-- A delegatecall whose failure the Furnace reports as `InvariantViolation`. -/
def delegatecall {α : Type} (x : Except Error α) : Except Error α :=
  match x with
  | .ok a => .ok a
  | .error _ => .error .InvariantViolation

/-- `whenLockingEnabled`. -/
def whenLockingEnabled (f : FurnaceState) : Except Error Unit :=
  revertIf f.lockingPaused .LockingPaused

/-- Storage after the constructor. -/
def initial (self owner : Address) (deployedAt : ℕ) : FurnaceState where
  self := self
  owner := owner
  deploymentTime := deployedAt
  shareholderRoyalties := 0
  mineCore := 0
  mineMarket := 0
  lpRewardsVault := 0
  pendingSellSeller := fun _ ↦ 0
  entryTokenRegistry := 0
  furnaceQuoter := 0
  configFrozen := false
  guardian := owner
  lockingPaused := false
  delegationHub := 0
  furnaceReserve := 0
  bonusVirtualDepth := 0
  lastBonusUpdate := deployedAt
  sellImpactVolume := 0
  lastSellImpactUpdate := deployedAt
  lastLpOverflowDripUpdate := deployedAt
  stream := { last := deployedAt }
  emergencyVaultRewireExecuteAfter := 0
  emergencyVaultRewireTargetVault := 0
  lpSaleFundedDay := deployedAt / DAY
  lpSaleFundedToday := 0
  lastAutoMaxBonusClaim := fun _ ↦ 0
  bonusBasis := fun _ ↦ 0
  events := []
  ghost := {}

end ClaimRush.Furnace
