import ClaimRush.Furnace.Sale

/-!
# Administration of the Furnace

Wiring setters, the pause, the rewire of the LP vault (ordinary and emergency)
and the rescue of a lock whose sale was never executed.
-/

open Function

namespace ClaimRush.Furnace

open Constants

variable {S : Type} (port : VeClaimNFT.IShareholderRoyalties S) (call : Call) (w : World S)

/-- `onlyOwner`. -/
def onlyOwner : Except Error Unit :=
  revertIf (call.sender ≠ w.furnace.owner) .OwnableUnauthorizedAccount

/-- `onlyOwner whenNotFrozen`. -/
def onlyConfigOwner : Except Error Unit := do
  onlyOwner call w
  revertIf w.furnace.configFrozen .ConfigFrozen

/-- The candidate must be a contract of its own. -/
def requireContract (account : Address) : Except Error Unit := do
  revertIf (account = 0) .ZeroAddress
  revertIf (call.codeLength account = 0) .NotAContract
  revertIf (call.delegatedEOA account) .DelegatedEOA

/-- `setShareholderRoyalties`. -/
def setShareholderRoyalties (sr : Address) : Except Error (World S) := do
  onlyConfigOwner call w
  requireContract call sr
  let srFurnace := call.staticcallAddress sr .furnace
  revertIf (srFurnace ≠ 0 ∧ srFurnace ≠ w.furnace.self) .WiringMismatch
  let srVe := call.staticcallAddress sr .ve
  revertIf (srVe ≠ 0 ∧ srVe ≠ w.ve.self) .WiringMismatch
  let f := { w.furnace with shareholderRoyalties := sr }
  return { w with
    furnace := f.emit (.ShareholderRoyaltiesChanged w.furnace.shareholderRoyalties sr) }

/-- `setMineCore`: rejected while the stream owes anything. -/
def setMineCore (mineCore : Address) : Except Error (World S) := do
  onlyConfigOwner call w
  requireContract call mineCore
  let coreFurnace := call.staticcallAddress mineCore .furnace
  revertIf (coreFurnace ≠ 0 ∧ coreFurnace ≠ w.furnace.self) .WiringMismatch
  let old := w.furnace
  let liability ← if old.mineCore ≠ mineCore then lpRewardsVaultLiability call old else pure 0
  revertIf (liability ≠ 0) .LpRewardsStreamActive
  let f :=
    if old.mineCore ≠ mineCore then
      { old with
        lastLpOverflowDripUpdate := call.timestamp
        sellImpactVolume := 0
        lastSellImpactUpdate := call.timestamp }
    else old
  let f := { f with mineCore := mineCore, guardian := mineCore }.emit
    (.MineCoreChanged old.mineCore mineCore)
  let f := if old.guardian ≠ mineCore then f.emit (.GuardianChanged old.guardian mineCore) else f
  return { w with furnace := f }

/-- `setMineMarket`. -/
def setMineMarket (mineMarket : Address) : Except Error (World S) := do
  onlyConfigOwner call w
  requireContract call mineMarket
  let f := { w.furnace with mineMarket := mineMarket }
  return { w with furnace := f.emit (.MineMarketChanged w.furnace.mineMarket mineMarket) }

/-- `setDelegationHub`. -/
def setDelegationHub (hub : Address) : Except Error (World S) := do
  onlyOwner call w
  revertIf (hub = 0) .ZeroAddress
  revertIf (call.codeLength hub = 0) .NotAContract
  requireCanonicalDelegationHub call w hub
  let f := { w.furnace with delegationHub := hub }
  return { w with furnace := f.emit (.DelegationHubChanged w.furnace.delegationHub hub) }

/-- `setEntryTokenRegistry`; `mineCoreRegistry` answers
`IMineCore(core).entryTokenRegistry()`. -/
def setEntryTokenRegistry (mineCoreRegistry registry : Address) : Except Error (World S) := do
  onlyOwner call w
  requireContract call registry
  let core := w.furnace.mineCore
  revertIf (core ≠ 0 ∧ call.codeLength core ≠ 0 ∧ mineCoreRegistry ≠ 0 ∧
    mineCoreRegistry = registry) .WiringMismatch
  let f := { w.furnace with entryTokenRegistry := registry }
  return { w with furnace := f.emit (.EntryTokenRegistrySet registry) }

/-- `setFurnaceQuoter`; the quoter must be bound to this Furnace. -/
def setFurnaceQuoter (quoter : Address) : Except Error (World S) := do
  onlyConfigOwner call w
  requireContract call quoter
  revertIf (call.staticcallAddress quoter .furnace ≠ w.furnace.self) .InvalidToken
  let f := { w.furnace with furnaceQuoter := quoter }
  return { w with furnace := f.emit (.FurnaceQuoterSet w.furnace.furnaceQuoter quoter) }

/-- `setLpRewardsVault`: a change settles the old vault first. -/
def setLpRewardsVault (vault : Address) : Except Error (World S) := do
  onlyConfigOwner call w
  let oldVault := w.furnace.lpRewardsVault
  if vault ≠ 0 then
    revertIf (call.codeLength vault = 0) .NotAContract
    requireLpRewardsVaultCompatible call w vault true
  if oldVault ≠ vault then
    let (w, _) ← accrueLpOverflowDrip call w
    let w := settleMaturedLpCarry call w oldVault
    let liability ← lpRewardsVaultLiability call w.furnace
    revertIf (liability ≠ 0) .LpRewardsStreamActive
    let f := { w.furnace with lastLpOverflowDripUpdate := call.timestamp, lpRewardsVault := vault }
    return { w with furnace := f.emit (.LpRewardsVaultSet oldVault vault) }
  else
    return w.emit (.LpRewardsVaultSet oldVault vault)

/-- `freezeConfig`. -/
def freezeConfig : Except Error (World S) := do
  onlyConfigOwner call w
  let f := w.furnace
  revertIf (f.shareholderRoyalties = 0 ∨ f.mineCore = 0 ∨ f.mineMarket = 0 ∨ f.furnaceQuoter = 0)
    .ZeroAddress
  requireCanonicalMineMarket call w
  revertIf (f.guardian ≠ f.mineCore) .WiringMismatch
  requireContract call f.furnaceQuoter
  revertIf (call.staticcallAddress f.furnaceQuoter .furnace ≠ f.self) .InvalidToken
  if f.lpRewardsVault ≠ 0 then
    requireLpRewardsVaultCompatible call w f.lpRewardsVault true
  return { w with furnace := { f with configFrozen := true }.emit .ConfigFrozen }

/-- `setGuardian`. -/
def setGuardian (guardian : Address) : Except Error (World S) := do
  let f := w.furnace
  revertIf (call.sender ≠ f.owner ∧ call.sender ≠ f.guardian) .NotAuthorized
  revertIf (guardian = 0) .ZeroAddress
  revertIf (guardian = f.self) .NotAuthorized
  revertIf (f.mineCore ≠ 0 ∧ guardian ≠ f.mineCore) .WiringMismatch
  let f := { f with guardian := guardian }
  return { w with furnace := f.emit (.GuardianChanged w.furnace.guardian guardian) }

/-- `setLockingPaused`. -/
def setLockingPaused (paused : Bool) : Except Error (World S) := do
  revertIf (call.sender ≠ w.furnace.guardian) .OnlyGuardian
  if paused = w.furnace.lockingPaused then return w
  else
    let f := { w.furnace with lockingPaused := paused }
    return { w with furnace := f.emit (.LockingPausedChanged paused) }

/-- `rescuePendingSellNFT`: the principal goes back to the observed seller. -/
def rescuePendingSellNFT (tokenId : ℕ) : Except Error (World S) := do
  onlyOwner call w
  let f := w.furnace
  let seller := f.pendingSellSeller tokenId
  revertIf (seller = 0) .ZeroAddress
  revertIf (w.ve.owners tokenId ≠ f.self) .NotAuthorized
  let withdrawn := (w.ve.locks tokenId).amount
  let f := { f with
    pendingSellSeller := update f.pendingSellSeller tokenId 0
    lastAutoMaxBonusClaim := update f.lastAutoMaxBonusClaim tokenId 0
    bonusBasis := update f.bonusBasis tokenId 0 }
  let base ← VeClaimNFT.furnaceBurnAndWithdraw port (call.byFurnace f) w.base tokenId seller
  return { furnace := f.emit (.PendingSellNFTRescued tokenId seller withdrawn), base := base }

/-! ## Emergency rewire of the LP vault -/

/-- `requestEmergencyVaultRewire`. -/
def requestEmergencyVaultRewire (newVault : Address) : Except Error (World S) := do
  onlyOwner call w
  let f := w.furnace
  revertIf (f.emergencyVaultRewireExecuteAfter ≠ 0) .EmergencyRewireAlreadyRequested
  revertIf (newVault = 0) .ZeroAddress
  revertIf (newVault = f.lpRewardsVault) .WiringMismatch
  let liability ← lpRewardsVaultLiability call f
  revertIf (liability = 0) .LpRewardsStreamActive
  requireLpRewardsVaultCompatible call w newVault true
  let executeAfter ← uint256 (call.timestamp + EMERGENCY_VAULT_REWIRE_DELAY)
  let f := { f with
    emergencyVaultRewireExecuteAfter := executeAfter
    emergencyVaultRewireTargetVault := newVault }
  return { w with
    furnace := f.emit (.EmergencyVaultRewireRequested newVault liability executeAfter) }

/-- `cancelEmergencyVaultRewire`. -/
def cancelEmergencyVaultRewire : Except Error (World S) := do
  onlyOwner call w
  revertIf (w.furnace.emergencyVaultRewireExecuteAfter = 0) .EmergencyRewireNotRequested
  let f := { w.furnace with
    emergencyVaultRewireExecuteAfter := 0
    emergencyVaultRewireTargetVault := 0 }
  return { w with furnace := f.emit .EmergencyVaultRewireCancelled }

/-- `executeEmergencyVaultRewire`: the stream is emptied without payment. -/
def executeEmergencyVaultRewire : Except Error (World S) := do
  onlyOwner call w
  let f := w.furnace
  let newVault := f.emergencyVaultRewireTargetVault
  revertIf (f.emergencyVaultRewireExecuteAfter = 0) .EmergencyRewireNotRequested
  revertIf (call.timestamp < f.emergencyVaultRewireExecuteAfter) .EmergencyRewireDelayNotMet
  revertIf (newVault = 0) .ZeroAddress
  revertIf (newVault = f.lpRewardsVault) .WiringMismatch
  requireLpRewardsVaultCompatible call w newVault true
  let stranded ← lpRewardsVaultLiability call f
  let oldVault := f.lpRewardsVault
  let f := { f with
    stream := { last := call.timestamp }
    lastLpOverflowDripUpdate := call.timestamp
    emergencyVaultRewireExecuteAfter := 0
    emergencyVaultRewireTargetVault := 0
    lpRewardsVault := newVault }
  let f := f.emit (.LpRewardsVaultSet oldVault newVault)
  return { w with furnace := f.emit (.EmergencyVaultRewireExecuted oldVault stranded) }

end ClaimRush.Furnace
