import ClaimRush.Furnace.State

/-!
# Wiring checks of the Furnace

Privileged callers are accepted only when the contracts they belong to agree on
the canonical bundle.  A check either passes or reverts; it never writes.
-/

namespace ClaimRush.Furnace

variable {S : Type} (call : Call) (w : World S)

/-- `_requireCanonicalMineMarketInternal`. -/
def requireCanonicalMineMarket : Except Error Unit := do
  let furnace := w.furnace.self
  let sr := w.furnace.shareholderRoyalties
  let core := w.furnace.mineCore
  let mm := w.furnace.mineMarket
  let claim := w.claim.self
  let ve := w.ve.self
  let get := call.staticcallAddress
  revertIf (mm = 0 ∨ call.codeLength mm = 0) .WiringMismatch
  revertIf (core = 0 ∨ call.codeLength core = 0) .WiringMismatch
  revertIf (sr = 0 ∨ call.codeLength sr = 0) .WiringMismatch
  revertIf (get mm .claim ≠ claim ∨ get mm .ve ≠ ve ∨ get mm .royalties ≠ sr ∨
    get ve .mineMarket ≠ mm ∨ get ve .furnace ≠ furnace ∨ get claim .mineCore ≠ core ∨
    get core .furnace ≠ furnace ∨ get core .royalties ≠ sr ∨ get core .claim ≠ claim ∨
    get core .ve ≠ ve ∨ get sr .furnace ≠ furnace ∨ get sr .ve ≠ ve ∨
    get sr .mineCore ≠ core ∨ get sr .mineMarket ≠ mm) .WiringMismatch

/-- `requireCanonicalMineMarketEntryCaller`. -/
def requireCanonicalMineMarketEntryCaller : Except Error Unit := do
  revertIf (call.sender ≠ w.furnace.mineMarket) .NotAuthorized
  requireCanonicalMineMarket call w

/-- `requireCanonicalMineCoreEntryCaller`. -/
def requireCanonicalMineCoreEntryCaller : Except Error Unit := do
  let furnace := w.furnace.self
  let core := w.furnace.mineCore
  let claim := w.claim.self
  let ve := w.ve.self
  let get := call.staticcallAddress
  revertIf (call.sender ≠ core) .NotAuthorized
  revertIf (core = 0 ∨ call.codeLength core = 0) .WiringMismatch
  revertIf (get claim .mineCore ≠ core ∨ get core .furnace ≠ furnace ∨ get core .claim ≠ claim ∨
    get core .ve ≠ ve ∨ get ve .furnace ≠ furnace) .WiringMismatch

/-- `requireOnlyShareholderRoyalties`. -/
def requireOnlyShareholderRoyalties : Except Error Unit := do
  let sr := w.furnace.shareholderRoyalties
  let core := w.furnace.mineCore
  let get := call.staticcallAddress
  revertIf (call.sender ≠ sr) .OnlyShareholderRoyalties
  revertIf (sr = 0 ∨ call.codeLength sr = 0) .WiringMismatch
  revertIf (core = 0 ∨ call.codeLength core = 0) .WiringMismatch
  revertIf (get sr .furnace ≠ w.furnace.self ∨ get sr .ve ≠ w.ve.self ∨ get sr .mineCore ≠ core ∨
    get core .royalties ≠ sr) .WiringMismatch

/-- `requireCanonicalDelegationHub`. -/
def requireCanonicalDelegationHub (hub : Address) : Except Error Unit := do
  let core := w.furnace.mineCore
  let get := call.staticcallAddress
  revertIf (hub = 0) .ZeroAddress
  revertIf (call.codeLength hub = 0) .WiringMismatch
  revertIf (core = 0 ∨ call.codeLength core = 0) .WiringMismatch
  revertIf (get core .furnace ≠ w.furnace.self ∨ get core .delegationHub ≠ hub ∨
    get core .claim ≠ w.claim.self ∨ get core .ve ≠ w.ve.self) .WiringMismatch

/-- `_requireDelegated`. -/
def requireDelegated (user : Address) (requiredPerms : ℕ) : Except Error Unit := do
  let hub := w.furnace.delegationHub
  requireCanonicalDelegationHub call w hub
  revertIf (!call.isAuthorized hub user call.sender requiredPerms) .NotAuthorized

/-- `_requireLpRewardsVaultCompatibleInternal`. -/
def requireLpRewardsVaultCompatible (vault : Address) (strictFurnaceError : Bool) :
    Except Error Unit := do
  revertIf (call.codeLength vault = 0) .NotAContract
  revertIf (call.delegatedEOA vault) .DelegatedEOA
  revertIf (call.staticcallAddress vault .furnace ≠ w.furnace.self)
    (if strictFurnaceError then .LpRewardsVaultFurnaceMismatch else .WiringMismatch)
  revertIf (call.staticcallAddress vault .claim ≠ w.claim.self) .WiringMismatch
  revertIf (call.staticcallAddress vault .ve ≠ w.ve.self) .WiringMismatch

end ClaimRush.Furnace
