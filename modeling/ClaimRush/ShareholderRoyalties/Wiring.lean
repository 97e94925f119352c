import ClaimRush.ShareholderRoyalties.State

/-!
# Wiring checks of ShareholderRoyalties

The hot paths fail closed unless the Furnace, the market, MineCore, the lock
contract and CLAIM all agree on one bundle.
-/

namespace ClaimRush.ShareholderRoyalties

open VeClaimNFT

variable (call : Call) (s : VeState) (r : RoyaltiesState)

/-- `_isReciprocallyWiredFurnace`. -/
def isReciprocallyWiredFurnace (f : Address) : Bool :=
  let core := r.mineCore
  let market := r.mineMarket
  let veAddr := s.self
  let claimToken := call.staticcallAddress veAddr .claimToken
  if f = 0 ∨ call.codeLength f = 0 then false
  else if core = 0 ∨ market = 0 ∨ claimToken = 0 ∨ call.codeLength core = 0 ∨
      call.codeLength market = 0 ∨ call.codeLength claimToken = 0 then false
  else
    call.staticcallAddress f .mineCore = core ∧
    call.staticcallAddress f .mineMarket = market ∧
    call.staticcallAddress f .shareholderRoyalties = r.self ∧
    call.staticcallAddress f .ve = veAddr ∧
    call.staticcallAddress f .claim = claimToken ∧
    call.staticcallAddress core .furnace = f ∧
    call.staticcallAddress core .royalties = r.self ∧
    call.staticcallAddress core .ve = veAddr ∧
    call.staticcallAddress core .claim = claimToken ∧
    call.staticcallAddress market .royalties = r.self ∧
    call.staticcallAddress market .ve = veAddr ∧
    call.staticcallAddress market .claim = claimToken ∧
    call.staticcallAddress veAddr .furnace = f ∧
    call.staticcallAddress veAddr .mineMarket = market ∧
    call.staticcallAddress veAddr .claimToken = claimToken ∧
    call.staticcallAddress claimToken .mineCore = core

/-- `_requireCanonicalBaronRuntimeBundle`. -/
def requireCanonicalBaronRuntimeBundle : Except Error Unit :=
  revertIf (!isReciprocallyWiredFurnace call s r r.furnace) .WiringMismatch

/-- `_requireCanonicalClaimAllHelperCaller`, the `onlyClaimAllHelper` modifier. -/
def requireCanonicalClaimAllHelperCaller : Except Error Unit := do
  let helper := r.claimAllHelper
  let core := r.mineCore
  revertIf (call.sender ≠ helper) .OnlyClaimAllHelper
  revertIf (helper = 0 ∨ core = 0 ∨ call.codeLength helper = 0 ∨ call.codeLength core = 0)
    .WiringMismatch
  revertIf (call.staticcallAddress core .claimAllHelper ≠ helper ∨
    call.staticcallAddress helper .mineCore ≠ core ∨
    call.staticcallAddress helper .royalties ≠ r.self) .WiringMismatch

/-- The `onlyAutoCompoundKeeper` modifier. -/
def requireAutoCompoundKeeper : Except Error Unit := do
  revertIf (call.sender ≠ r.owner ∧ !r.isAutoCompoundKeeper call.sender) .NotAuthorized
  revertIf (call.delegatedEOA call.sender) .DelegatedEOA

/-- `_requireDelegated`. -/
def requireDelegated (user : Address) (requiredPerms : ℕ) : Except Error Unit := do
  let f := r.furnace
  revertIf (f = 0) .ZeroAddress
  revertIf (!isReciprocallyWiredFurnace call s r f) .WiringMismatch
  let hub := call.staticcallAddress f .delegationHub
  revertIf (hub = 0) .ZeroAddress
  revertIf (call.codeLength hub = 0) .NotAContract
  revertIf (call.staticcallAddress r.mineCore .delegationHub ≠ hub) .WiringMismatch
  revertIf (!call.isAuthorized hub user call.sender requiredPerms) .NotAuthorized

end ClaimRush.ShareholderRoyalties
