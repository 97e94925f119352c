import ClaimRush.VeClaimNFT.Checkpoint

/-!
# Wiring checks and the royalties checkpoint

Every lock mutation first asks the contracts it is wired to whether they agree
on the canonical bundle.  A check either passes or reverts; it never writes.
-/

namespace ClaimRush.VeClaimNFT

variable (call : Call) (s : VeState)

/-- `_requireCanonicalMineCoreThroughFurnace`. -/
def requireCanonicalMineCoreThroughFurnace (f : Address) : Except Error Address := do
  let core := call.staticcallAddress f .mineCore
  revertIf (core = 0 ∨ call.codeLength core = 0) .WiringMismatch
  revertIf (call.staticcallAddress s.claimToken .mineCore ≠ core) .WiringMismatch
  revertIf (call.staticcallAddress core .ve ≠ s.self ∨
    call.staticcallAddress core .claim ≠ s.claimToken ∨
    call.staticcallAddress core .furnace ≠ f) .WiringMismatch
  return core

/-- `_resolveShareholderRoyaltiesFor`. -/
def resolveShareholderRoyaltiesFor (f mm : Address) : Except Error Address := do
  let srFromFurnace :=
    if f ≠ 0 ∧ call.codeLength f ≠ 0 then call.staticcallAddress f .shareholderRoyalties else 0
  let srFromMarket :=
    if mm ≠ 0 ∧ call.codeLength mm ≠ 0 then call.staticcallAddress mm .royalties else 0
  revertIf (srFromFurnace ≠ 0 ∧ srFromMarket ≠ 0 ∧ srFromFurnace ≠ srFromMarket)
    .WiringMismatch
  return if srFromFurnace ≠ 0 then srFromFurnace else srFromMarket

/-- `_resolveShareholderRoyalties`. -/
def resolveShareholderRoyalties : Except Error Address :=
  resolveShareholderRoyaltiesFor call s.furnace s.mineMarket

/-- `_tryResolveShareholderRoyalties`: a disagreement resolves to zero. -/
def tryResolveShareholderRoyalties : Address :=
  match resolveShareholderRoyalties call s with
  | .ok sr => sr
  | .error _ => 0

/-- `_requireCanonicalFurnaceCaller`, the `onlyFurnace` modifier. -/
def requireCanonicalFurnaceCaller : Except Error Unit := do
  let f := s.furnace
  revertIf (call.sender ≠ f) .NotAuthorized
  revertIf (f = 0 ∨ call.codeLength f = 0) .WiringMismatch
  revertIf (call.staticcallAddress f .ve ≠ s.self ∨
    call.staticcallAddress f .claim ≠ s.claimToken) .WiringMismatch
  let core ← requireCanonicalMineCoreThroughFurnace call s f
  let mm := s.mineMarket
  if mm ≠ 0 then
    revertIf (call.codeLength mm = 0) .WiringMismatch
    revertIf (call.staticcallAddress f .mineMarket ≠ mm ∨
      call.staticcallAddress mm .ve ≠ s.self ∨
      call.staticcallAddress mm .claim ≠ s.claimToken) .WiringMismatch
  let sr ← resolveShareholderRoyalties call s
  if sr ≠ 0 then
    revertIf (call.codeLength sr = 0) .WiringMismatch
    revertIf (call.staticcallAddress f .shareholderRoyalties ≠ sr) .WiringMismatch
    revertIf (call.staticcallAddress core .royalties ≠ sr) .WiringMismatch
    let srVe := call.staticcallAddress sr .ve
    revertIf (srVe ≠ 0 ∧ srVe ≠ s.self) .WiringMismatch
    let srFurnace := call.staticcallAddress sr .furnace
    revertIf (srFurnace ≠ 0 ∧ srFurnace ≠ f) .WiringMismatch
    if mm ≠ 0 then
      revertIf (call.staticcallAddress mm .royalties ≠ sr) .WiringMismatch
      let srMarket := call.staticcallAddress sr .mineMarket
      revertIf (srMarket ≠ 0 ∧ srMarket ≠ mm) .WiringMismatch

/-- `_requireCanonicalMineMarketCaller`. -/
def requireCanonicalMineMarketCaller : Except Error Unit := do
  let mm := s.mineMarket
  revertIf (call.sender ≠ mm) .OnlyMineMarket
  revertIf (mm = 0 ∨ call.codeLength mm = 0) .WiringMismatch
  revertIf (call.staticcallAddress mm .ve ≠ s.self ∨
    call.staticcallAddress mm .claim ≠ s.claimToken) .WiringMismatch
  let f := s.furnace
  revertIf (f = 0 ∨ call.codeLength f = 0) .WiringMismatch
  revertIf (call.staticcallAddress f .mineMarket ≠ mm ∨
    call.staticcallAddress f .ve ≠ s.self ∨
    call.staticcallAddress f .claim ≠ s.claimToken) .WiringMismatch
  let core ← requireCanonicalMineCoreThroughFurnace call s f
  let sr ← resolveShareholderRoyalties call s
  if sr ≠ 0 then
    revertIf (call.codeLength sr = 0) .WiringMismatch
    revertIf (call.staticcallAddress f .shareholderRoyalties ≠ sr) .WiringMismatch
    revertIf (call.staticcallAddress mm .royalties ≠ sr) .WiringMismatch
    revertIf (call.staticcallAddress core .royalties ≠ sr) .WiringMismatch
    let srVe := call.staticcallAddress sr .ve
    revertIf (srVe ≠ 0 ∧ srVe ≠ s.self) .WiringMismatch
    let srFurnace := call.staticcallAddress sr .furnace
    revertIf (srFurnace ≠ 0 ∧ srFurnace ≠ f) .WiringMismatch
    let srMarket := call.staticcallAddress sr .mineMarket
    revertIf (srMarket ≠ 0 ∧ srMarket ≠ mm) .WiringMismatch

/-- `_resolveCanonicalDelegationHub`. -/
def resolveCanonicalDelegationHub : Except Error Address := do
  let f := s.furnace
  let mm := s.mineMarket
  revertIf (f = 0 ∨ mm = 0) .WiringMismatch
  revertIf (call.codeLength f = 0 ∨ call.codeLength mm = 0) .WiringMismatch
  revertIf (call.staticcallAddress f .ve ≠ s.self ∨
    call.staticcallAddress f .claim ≠ s.claimToken ∨
    call.staticcallAddress f .mineMarket ≠ mm ∨
    call.staticcallAddress mm .ve ≠ s.self ∨
    call.staticcallAddress mm .claim ≠ s.claimToken) .WiringMismatch
  let core ← requireCanonicalMineCoreThroughFurnace call s f
  let hub := call.staticcallAddress f .delegationHub
  revertIf (hub = 0 ∨ call.codeLength hub = 0) .WiringMismatch
  revertIf (call.staticcallAddress core .delegationHub ≠ hub) .WiringMismatch
  return hub

/-- `_requireDelegated`. -/
def requireDelegated (user : Address) (requiredPerms : ℕ) : Except Error Unit := do
  revertIf (user = 0) .ZeroAddress
  let hub ← resolveCanonicalDelegationHub call s
  revertIf (!call.isAuthorized hub user call.sender requiredPerms) .NotAuthorized

/-- `_requireCanonicalSetterBundle`: candidate roots must not conflict with the
live bundle; getters that still answer zero are tolerated. -/
def requireCanonicalSetterBundle (f mm : Address) : Except Error Unit := do
  if mm ≠ 0 then
    revertIf (call.codeLength mm = 0) .WiringMismatch
    revertIf (call.staticcallAddress mm .ve ≠ s.self ∨
      call.staticcallAddress mm .claim ≠ s.claimToken) .WiringMismatch
  let core ←
    if f ≠ 0 then do
      revertIf (call.codeLength f = 0) .WiringMismatch
      revertIf (call.staticcallAddress f .ve ≠ s.self ∨
        call.staticcallAddress f .claim ≠ s.claimToken) .WiringMismatch
      let core ← requireCanonicalMineCoreThroughFurnace call s f
      let mmFromFurnace := call.staticcallAddress f .mineMarket
      revertIf (mm ≠ 0 ∧ mmFromFurnace ≠ 0 ∧ mmFromFurnace ≠ mm) .WiringMismatch
      pure core
    else pure 0
  let sr ← resolveShareholderRoyaltiesFor call f mm
  if sr ≠ 0 then
    revertIf (call.codeLength sr = 0) .WiringMismatch
    let srFromFurnace := call.staticcallAddress f .shareholderRoyalties
    revertIf (f ≠ 0 ∧ srFromFurnace ≠ 0 ∧ srFromFurnace ≠ sr) .WiringMismatch
    let srFromMarket := call.staticcallAddress mm .royalties
    revertIf (mm ≠ 0 ∧ srFromMarket ≠ 0 ∧ srFromMarket ≠ sr) .WiringMismatch
    let coreSr := call.staticcallAddress core .royalties
    revertIf (core ≠ 0 ∧ coreSr ≠ 0 ∧ coreSr ≠ sr) .WiringMismatch
    let srVe := call.staticcallAddress sr .ve
    revertIf (srVe ≠ 0 ∧ srVe ≠ s.self) .WiringMismatch
    let srFurnace := call.staticcallAddress sr .furnace
    revertIf (f ≠ 0 ∧ srFurnace ≠ 0 ∧ srFurnace ≠ f) .WiringMismatch
    let srMineMarket := call.staticcallAddress sr .mineMarket
    revertIf (mm ≠ 0 ∧ srMineMarket ≠ 0 ∧ srMineMarket ≠ mm) .WiringMismatch
    let srMineCore := call.staticcallAddress sr .mineCore
    revertIf (core ≠ 0 ∧ srMineCore ≠ 0 ∧ srMineCore ≠ core) .WiringMismatch

/-- The reciprocal checks that precede a fail-closed royalties checkpoint. -/
def requireCanonicalRoyalties (sr : Address) : Except Error Unit := do
  revertIf (sr = 0) .ShareholderRoyaltiesNotSet
  revertIf (call.codeLength sr = 0) .NotAContract
  let srVe := call.staticcallAddress sr .ve
  revertIf (srVe ≠ 0 ∧ srVe ≠ s.self) .WiringMismatch
  let f := s.furnace
  if f ≠ 0 ∧ call.codeLength f ≠ 0 then
    let core ← requireCanonicalMineCoreThroughFurnace call s f
    let srFromFurnace := call.staticcallAddress f .shareholderRoyalties
    revertIf (srFromFurnace ≠ 0 ∧ srFromFurnace ≠ sr) .WiringMismatch
    let coreSr := call.staticcallAddress core .royalties
    revertIf (coreSr ≠ 0 ∧ coreSr ≠ sr) .WiringMismatch
    let srFurnace := call.staticcallAddress sr .furnace
    revertIf (srFurnace ≠ 0 ∧ srFurnace ≠ f) .WiringMismatch
  let mm := s.mineMarket
  if mm ≠ 0 ∧ call.codeLength mm ≠ 0 then
    let srFromMarket := call.staticcallAddress mm .royalties
    revertIf (srFromMarket ≠ 0 ∧ srFromMarket ≠ sr) .WiringMismatch
    let srMineMarket := call.staticcallAddress sr .mineMarket
    revertIf (srMineMarket ≠ 0 ∧ srMineMarket ≠ mm) .WiringMismatch

section Royalties

variable {S : Type} (port : IShareholderRoyalties S) (w : World S)

/-- `_checkpointShareholderRoyalties`: fail-closed. -/
def checkpointShareholderRoyalties (user : Address) : Except Error (World S) :=
  if user = 0 then .ok w
  else do
    let sr ← resolveShareholderRoyalties call w.ve
    requireCanonicalRoyalties call w.ve sr
    let royalties ←
      externalCall (port.checkpointUser sr call.timestamp w.ve user w.royalties)
    return { w with royalties := royalties }

/-- `_checkpointShareholderRoyaltiesBestEffort`: a failure is logged. -/
def checkpointShareholderRoyaltiesBestEffort (user : Address) : World S :=
  let sr := tryResolveShareholderRoyalties call w.ve
  if user = 0 ∨ sr = 0 ∨ call.codeLength sr = 0 then w
  else
    match port.checkpointUser sr call.timestamp w.ve user w.royalties with
    | some royalties => { w with royalties := royalties }
    | none => { w with ve := w.ve.emit (.ShareholderCheckpointFailed user sr) }

/-- `_pinShareholderObservedMin`: best-effort. -/
def pinShareholderObservedMin (user : Address) : World S :=
  let sr := tryResolveShareholderRoyalties call w.ve
  if user = 0 ∨ sr = 0 ∨ call.codeLength sr = 0 then w
  else
    match port.pinUserObservedMin sr call.timestamp w.ve user w.royalties with
    | some royalties => { w with royalties := royalties }
    | none => w

end Royalties

end ClaimRush.VeClaimNFT
