import ClaimRush.MineCore.Admin
import ClaimRush.Lib.Transition

/-!
# Runs of the game contract

A step executes one external function of the game contract in a block that is
not earlier, or lets the rest of the world act: the other contracts change their
own storage, ETH may be sent to the game contract, and time passes.
-/

namespace ClaimRush.MineCore

inductive Op
  | takeover (r : TakeoverReplies) (maxPrice : ℕ)
  | takeoverWithToken (r : TakeoverReplies) (swap : SwapReplies)
      (tokenIn amountIn minEthOut maxPrice : ℕ)
  | takeoverWithTokenAndDeadline (r : TakeoverReplies) (swap : SwapReplies)
      (tokenIn amountIn minEthOut maxPrice deadline : ℕ)
  | takeoverFor (r : TakeoverReplies) (newKing : Address) (maxPrice : ℕ)
  | withdrawKingBalance (accepted : Bool)
  | withdrawKingBalanceTo (dst : Address) (accepted : Bool × Bool)
  | withdrawKingBalanceFor (user : Address) (accepted : Bool)
  | withdrawRefundBalance (dst : Address) (accepted : Bool)
  | withdrawPendingClaim (gas : RouteGas)
  | withdrawPendingClaimTo (gas : RouteGas) (dst : Address)
  | retryPushShareholderEth (checkpointRounds : ℕ) (reply : RoyaltiesReply)
  | advanceVeCheckpoint (checkpointRounds : ℕ)
  | setKingAutoLockConfig (enabled : Bool) (targetTokenId durationSeconds : ℕ)
      (createAutoMax : Bool) (minVeOut : ℕ)
  | setKingAutoLockConfigForUser (user : Address) (enabled : Bool)
      (targetTokenId durationSeconds : ℕ) (createAutoMax : Bool) (minVeOut : ℕ)
  | setCurrentReignRecipients (ethRecipient claimRecipient : Address)
  | setTakeoversPaused (paused : Bool)
  | setLockingPaused (paused : Bool)
  | collectGenesisKingClaim (dst : Address)
  | rescueEth (dst : Address) (accepted : Bool)
  | rescueClaim (dst : Address)
  | setGuardian (guardian : Address)
  | setFurnace (furnace : Address)
  | freezeConfig
  | setEntryTokenRegistry (registry : Address)
  | setClaimAllHelper (helper : Address)
  | setDelegationHub (hub : Address)
  | transferOwnership (newOwner : Address)
  | acceptOwnership
  deriving DecidableEq, Repr

/-- The functions that accept ETH. -/
def Op.payable : Op → Bool
  | .takeover _ _ => true
  | .takeoverFor _ _ _ => true
  | _ => false

/-- The account that a call makes king. -/
def Op.newKing (call : Call) : Op → Option Address
  | .takeover _ _ => some call.sender
  | .takeoverWithToken _ _ _ _ _ _ => some call.sender
  | .takeoverWithTokenAndDeadline _ _ _ _ _ _ _ => some call.sender
  | .takeoverFor _ newKing _ => some newKing
  | _ => none

variable {S : Type}

/-- The function that a call selects. -/
def run (port : VeClaimNFT.IShareholderRoyalties S) (call : Call) (w : World S) :
    Op → Except Error (World S)
  | .takeover r maxPrice => takeover port call w r maxPrice
  | .takeoverWithToken r swap tokenIn amountIn minEthOut maxPrice =>
      takeoverWithToken port call w r swap tokenIn amountIn minEthOut maxPrice
  | .takeoverWithTokenAndDeadline r swap tokenIn amountIn minEthOut maxPrice deadline =>
      takeoverWithTokenAndDeadline port call w r swap tokenIn amountIn minEthOut maxPrice deadline
  | .takeoverFor r newKing maxPrice => takeoverFor port call w r newKing maxPrice
  | .withdrawKingBalance accepted => withdrawKingBalance call w accepted
  | .withdrawKingBalanceTo dst accepted => withdrawKingBalanceTo call w dst accepted
  | .withdrawKingBalanceFor user accepted => withdrawKingBalanceFor call w user accepted
  | .withdrawRefundBalance dst accepted => withdrawRefundBalance call w dst accepted
  | .withdrawPendingClaim gas => withdrawPendingClaim port call w gas
  | .withdrawPendingClaimTo gas dst => withdrawPendingClaimTo port call w gas dst
  | .retryPushShareholderEth rounds reply => retryPushShareholderEth call w rounds reply
  | .advanceVeCheckpoint rounds => advanceVeCheckpoint call w rounds
  | .setKingAutoLockConfig enabled target duration autoMax minVeOut =>
      setKingAutoLockConfig call w enabled target duration autoMax minVeOut
  | .setKingAutoLockConfigForUser user enabled target duration autoMax minVeOut =>
      setKingAutoLockConfigForUser call w user enabled target duration autoMax minVeOut
  | .setCurrentReignRecipients ethRecipient claimRecipient =>
      setCurrentReignRecipients call w ethRecipient claimRecipient
  | .setTakeoversPaused paused => setTakeoversPaused call w paused
  | .setLockingPaused paused => setLockingPaused call w paused
  | .collectGenesisKingClaim dst => collectGenesisKingClaim call w dst
  | .rescueEth dst accepted => rescueEth call w dst accepted
  | .rescueClaim dst => rescueClaim call w dst
  | .setGuardian guardian => setGuardian call w guardian
  | .setFurnace furnace => setFurnace call w furnace
  | .freezeConfig => freezeConfig call w
  | .setEntryTokenRegistry registry => setEntryTokenRegistry call w registry
  | .setClaimAllHelper helper => setClaimAllHelper call w helper
  | .setDelegationHub hub => setDelegationHub call w hub
  | .transferOwnership newOwner => transferOwnership call w newOwner
  | .acceptOwnership => acceptOwnership call w

/-- Execute one external call on the game contract. -/
def exec (port : VeClaimNFT.IShareholderRoyalties S) (call : Call) (w : World S) (op : Op) :
    Except Error (World S) := do
  revertIf (call.value ≠ 0 ∧ !op.payable) .NonPayable
  run port call w op

/-- The world and the time of its last block. -/
structure Config (S : Type) where
  now : ℕ
  world : World S

inductive Step (port : VeClaimNFT.IShareholderRoyalties S) : Config S → Config S → Prop
  | op {c : Config S} {w : World S} (call : Call) (op : Op) (hnow : c.now ≤ call.timestamp)
      (hexec : exec port call c.world op = .ok w) : Step port c ⟨call.timestamp, w⟩
  | outside {c : Config S} {now : ℕ} (received : ℕ) (furnace : Furnace.World S)
      (hnow : c.now ≤ now) : Step port c ⟨now, ⟨c.world.core, c.world.balance + received, furnace⟩⟩

/-- The game contract after `initialize`; its address may already hold ETH. -/
def Deployed (w : World S) (now : ℕ) : Prop :=
  0 < now ∧ ∃ self royalties helper owner mainnet,
    w.core = initial self royalties helper owner mainnet now

/-- The game contract from its initialization on. -/
def system (port : VeClaimNFT.IShareholderRoyalties S) : TransitionSystem (Config S) where
  init c := Deployed c.world c.now
  step := Step port

end ClaimRush.MineCore
