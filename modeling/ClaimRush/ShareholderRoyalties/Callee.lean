import ClaimRush.ShareholderRoyalties.Admin
import ClaimRush.VeClaimNFT.Runs

/-!
# External callees

An ETH push and a Furnace call hand control to foreign code.  The callee may
fail, which undoes everything it did, or succeed after any sequence of calls to
functions that are not guarded against re-entry, including lock mutations that
come back with royalties checkpoints.
-/

namespace ClaimRush.ShareholderRoyalties

open Constants VeClaimNFT

/-- The lock contract's view of this royalties contract, which its wiring
resolves to. -/
def royaltiesPort (call : Call) : IShareholderRoyalties RoyaltiesState where
  checkpointUser _ _ s user r := (checkpointUser call s r user).toOption
  pinUserObservedMin _ _ s user r := some (pinUserObservedMin s r user)

/-- Calls that need no guard: lock operations, the unguarded functions of the
royalties contract, ETH forced into its balance, and token movements. -/
inductive UnguardedOp
  | lock (op : VeClaimNFT.Op)
  | checkpointUser (user : Address)
  | checkpointUserBatch (users : List Address) (maxUsers : ℕ)
  | checkpointTransfer (src dst : Address)
  | pinUserObservedMin (user : Address)
  | setWiring (mineCore mineMarket furnace : Address) (gasLoops : ℕ)
  | freezeConfig
  | setClaimAllHelper (helper : Address)
  | setAutoCompoundKeeper (keeper : Address) (allowed : Bool)
  | setMinAutoCompoundEth (floor : ℕ)
  | forceSetOldestObservedNonAutoMaxLockEnd (newValue : ℕ)
  | seedWatermarkOnUpgrade
  | recomputeGlobalWatermark (candidates : List Address) (exhaustive : Bool)
  | setAutoCompoundConfig (cfg : AutoCompoundConfig)
  | setAutoCompoundConfigForUser (user : Address) (cfg : AutoCompoundConfig)
  | forceEth (amount : ℕ)
  | moveClaim (claim : ClaimToken)

/-- ETH that arrives outside the accounting paths. -/
def forceEth (amount : ℕ) (r : RoyaltiesState) : RoyaltiesState :=
  { r with
    balance := r.balance + amount
    ghost := { r.ghost with unaccountedEth := r.ghost.unaccountedEth + amount } }

def execUnguarded (call : Call) (w : Worlds) : UnguardedOp → Except Error Worlds
  | .lock op => VeClaimNFT.exec (royaltiesPort call) call w op
  | .checkpointUser user => do
      return { w with royalties := ← checkpointUser call w.ve w.royalties user }
  | .checkpointUserBatch users maxUsers =>
      .ok { w with royalties := checkpointUserBatch call w.ve w.royalties users maxUsers }
  | .checkpointTransfer src dst => do
      return { w with royalties := ← checkpointTransfer call w.ve w.royalties src dst }
  | .pinUserObservedMin user =>
      .ok { w with royalties := pinUserObservedMin w.ve w.royalties user }
  | .setWiring mineCore mineMarket furnace gasLoops =>
      setWiring call w mineCore mineMarket furnace gasLoops
  | .freezeConfig => freezeConfig call w
  | .setClaimAllHelper helper => setClaimAllHelper call w helper
  | .setAutoCompoundKeeper keeper allowed => setAutoCompoundKeeper call w keeper allowed
  | .setMinAutoCompoundEth floor => setMinAutoCompoundEth call w floor
  | .forceSetOldestObservedNonAutoMaxLockEnd newValue =>
      forceSetOldestObservedNonAutoMaxLockEnd call w newValue
  | .seedWatermarkOnUpgrade => seedWatermarkOnUpgrade call w
  | .recomputeGlobalWatermark candidates exhaustive =>
      recomputeGlobalWatermark call w candidates exhaustive
  | .setAutoCompoundConfig cfg => setAutoCompoundConfig call w cfg
  | .setAutoCompoundConfigForUser user cfg => setAutoCompoundConfigForUser call w user cfg
  | .forceEth amount => .ok { w with royalties := forceEth amount w.royalties }
  | .moveClaim claim => .ok { w with claim := claim }

/-- What a callee does with its turn. -/
structure Callee where
  succeeds : Bool
  reentries : List (Call × UnguardedOp)

/-- A nested call in the block of `outer`. -/
def inBlock (outer inner : Call) : Call :=
  { inner with timestamp := outer.timestamp, timestamp_pos := outer.timestamp_pos }

/-- A nested call; its revert is caught by the callee. -/
def reenter (call : Call) (w : Worlds) (step : Call × UnguardedOp) : Worlds :=
  (execUnguarded (inBlock call step.1) w step.2).toOption.getD w

/-- The external call with `value` attached. -/
def Callee.run (callee : Callee) (call : Call) (w : Worlds) (value : ℕ) : Option Worlds :=
  if callee.succeeds ∧ value ≤ w.royalties.balance then
    let royalties := { w.royalties with balance := w.royalties.balance - value }
    some (callee.reentries.foldl (reenter call) { w with royalties := royalties })
  else none

end ClaimRush.ShareholderRoyalties
