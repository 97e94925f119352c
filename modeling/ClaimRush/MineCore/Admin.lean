import ClaimRush.MineCore.Takeover

/-!
# Withdrawals, configuration and administration

The pull payments of the buckets, the retry of the shareholders' share, the lock
selection of a king, the pause, the genesis bucket, the rescues and the wiring.
-/

open Function

namespace ClaimRush.MineCore

open Constants

variable {S : Type} (port : VeClaimNFT.IShareholderRoyalties S) (call : Call) (w : World S)

/-! ## Pull payments -/

/-- `_withdrawKingBalanceTo`: a rejecting `dst` falls back to the user; `accepted`
are the answers of both. -/
def withdrawKingBalanceInternal (user dst : Address) (accepted : Bool × Bool) :
    Except Error (World S) := do
  revertIf (user = 0 ∨ dst = 0) .ZeroAddress
  let b := w.core.buckets
  let amount := b.kingEthBalance user
  if amount = 0 then return w
  else
    let total ← usub b.totalKingEthOwed amount
    let b := { b with
      kingEthBalance := update b.kingEthBalance user 0, totalKingEthOwed := total }
    let w := { w with core := { w.core with buckets := b } }
    let (w, sentToOriginal) := sendEth w dst amount accepted.1
    let (w, ok) :=
      if sentToOriginal = false ∧ dst ≠ user then sendEth w user amount accepted.2
      else (w, sentToOriginal)
    revertIf (ok = false) .EthTransferFailed
    let w := w.emit (.KingWithdrawal user amount)
    return if sentToOriginal = true ∧ dst ≠ user then
      w.emit (.KingWithdrawalTo user dst amount) else w

/-- `withdrawKingBalance`. -/
def withdrawKingBalance (accepted : Bool) : Except Error (World S) :=
  withdrawKingBalanceInternal w call.sender call.sender (accepted, accepted)

/-- `withdrawKingBalanceTo`. -/
def withdrawKingBalanceTo (dst : Address) (accepted : Bool × Bool) : Except Error (World S) :=
  withdrawKingBalanceInternal w call.sender dst accepted

/-- `withdrawKingBalanceFor`. -/
def withdrawKingBalanceFor (user : Address) (accepted : Bool) : Except Error (World S) := do
  revertIf (call.sender ≠ w.core.wiring.claimAllHelper) .OnlyClaimAllHelper
  withdrawKingBalanceInternal w user user (accepted, accepted)

/-- `withdrawRefundBalance`. -/
def withdrawRefundBalance (dst : Address) (accepted : Bool) : Except Error (World S) := do
  revertIf (dst = 0) .ZeroAddress
  let b := w.core.buckets
  let amount := b.refundEthBalance call.sender
  if amount = 0 then return w
  else
    let total ← usub b.totalRefundEthOwed amount
    let b := { b with
      refundEthBalance := update b.refundEthBalance call.sender 0, totalRefundEthOwed := total }
    let (w, ok) := sendEth { w with core := { w.core with buckets := b } } dst amount accepted
    revertIf (ok = false) .EthTransferFailed
    return w.emit (.RefundWithdrawn call.sender dst amount)

/-- `_withdrawPendingClaimTo`: the credit goes into a lock, or the call reverts. -/
def withdrawPendingClaimInternal (gas : RouteGas) (user dst : Address) :
    Except Error (World S) := do
  revertIf (dst = 0) .ZeroAddress
  let amount := w.core.kings.pendingKingClaim user
  if amount = 0 then return w
  else
    let (w, routed) := routeClaimToLock port call w gas dst amount
    match routed with
    | .failed _ => throw .LockRouteUnavailable
    | .locked _ =>
        let kings := w.core.kings
        let total ← usub kings.totalPendingKingClaim amount
        let kings := { kings with
          pendingKingClaim := update kings.pendingKingClaim user 0, totalPendingKingClaim := total }
        return { w with core := { w.core with kings := kings } }.emit
          (.PendingClaimWithdrawn user dst amount)

/-- `withdrawPendingClaim`. -/
def withdrawPendingClaim (gas : RouteGas) : Except Error (World S) :=
  withdrawPendingClaimInternal port call w gas call.sender call.sender

/-- `withdrawPendingClaimTo`. -/
def withdrawPendingClaimTo (gas : RouteGas) (dst : Address) : Except Error (World S) :=
  withdrawPendingClaimInternal port call w gas call.sender dst

/-- `retryPushShareholderEth`: cleared first, and restored when the call fails. -/
def retryPushShareholderEth (checkpointRounds : ℕ) (reply : RoyaltiesReply) :
    Except Error (World S) := do
  revertIf w.core.game.takeoversPaused .TakeoversPaused
  let cadence ← uint256 (w.core.buckets.lastShareholderRetryTs + 300)
  revertIf (call.timestamp < cadence) .CadenceNotMet
  let pending := w.core.buckets.shareholderEthPending
  if pending = 0 then return w
  else
    let stamped := { w.core.buckets with lastShareholderRetryTs := call.timestamp }
    let w := { w with core := { w.core with buckets := stamped } }
    let w ← checkpointVeLoop call checkpointRounds w
    requireFreshVeCheckpoint call w
    let cleared := { w.core.buckets with shareholderEthPending := 0 }
    match sendEth { w with core := { w.core with buckets := cleared } }
      w.core.wiring.royalties pending
        reply.accepted with
    | (w, true) => return if reply.flushed then w else w.emit .ShareholderRoyaltiesFlushFailed
    | (w, false) =>
        let restored := { w.core.buckets with shareholderEthPending := pending }
        return { w with core := { w.core with buckets := restored } }.emit
          (.ShareholderRoyaltiesTakeoverFailed 0 pending)

/-- `advanceVeCheckpoint`. -/
def advanceVeCheckpoint (checkpointRounds : ℕ) : Except Error (World S) := do
  let before := w.ve.global.globalLastTs
  let w ← checkpointVeLoop call checkpointRounds w
  revertIf (w.ve.global.globalLastTs ≤ before ∧ before ≠ call.timestamp) .VeCheckpointStale
  return w

/-! ## The lock selection of a king -/

/-- `_setKingAutoLockConfig`; returns the lock that the session event refers to. -/
def setKingAutoLockConfigInternal (user : Address) (enabled : Bool)
    (targetTokenId durationSeconds : ℕ) (createAutoMax : Bool) (minVeOut : ℕ) :
    Except Error (World S × ℕ) :=
  let cfg := w.core.kings.kingAutoLockConfig user
  let write (cfg : KingAutoLockConfig) : World S :=
    { w with core := { w.core with kings := { w.core.kings with
        kingAutoLockConfig := update w.core.kings.kingAutoLockConfig user cfg } } }
  if !enabled then
    .ok ((write {}).emit (.KingAutoLockConfigured user false 0 0 0 false 0), 0)
  else if targetTokenId = 0 then do
    revertIf (durationSeconds < MIN_LOCK_DURATION ∨ durationSeconds > MAX_LOCK_DURATION)
      .InvalidDuration
    revertIf (createAutoMax ∧ durationSeconds ≠ MAX_LOCK_DURATION) .InvalidDuration
    let cfg := { cfg with
      enabled := true, targetTokenId := 0, durationSeconds := durationSeconds
      createAutoMax := createAutoMax, minVeOut := minVeOut }
    return ((write cfg).emit (.KingAutoLockConfigured user true 0 cfg.pinnedTokenId durationSeconds
      createAutoMax minVeOut), cfg.pinnedTokenId)
  else do
    revertIf createAutoMax .AutoMaxMismatch
    revertIf (durationSeconds ≠ 0 ∧
      (durationSeconds < MIN_LOCK_DURATION ∨ durationSeconds > MAX_LOCK_DURATION)) .InvalidDuration
    validateKingAutoLockExistingTarget call.timestamp w.ve user targetTokenId durationSeconds
    let cfg := { cfg with
      enabled := true, targetTokenId := targetTokenId, durationSeconds := durationSeconds
      createAutoMax := false, minVeOut := minVeOut }
    return ((write cfg).emit (.KingAutoLockConfigured user true targetTokenId cfg.pinnedTokenId
      durationSeconds false minVeOut), targetTokenId)

/-- `setKingAutoLockConfig`. -/
def setKingAutoLockConfig (enabled : Bool) (targetTokenId durationSeconds : ℕ)
    (createAutoMax : Bool) (minVeOut : ℕ) : Except Error (World S) := do
  let (w, _) ← setKingAutoLockConfigInternal call w call.sender enabled targetTokenId
    durationSeconds createAutoMax minVeOut
  return w

/-- `DelegationPermissions.P_SET_KING_AUTO_LOCK_CONFIG_FOR`. -/
def P_SET_KING_AUTO_LOCK_CONFIG_FOR : ℕ := 2 ^ 15

/-- `DelegationActionTypes.MINECORE_SET_KING_AUTO_LOCK_CONFIG_FOR`. -/
def MINECORE_SET_KING_AUTO_LOCK_CONFIG_FOR : ℕ := 40

/-- `setKingAutoLockConfigForUser`. -/
def setKingAutoLockConfigForUser (user : Address) (enabled : Bool)
    (targetTokenId durationSeconds : ℕ) (createAutoMax : Bool) (minVeOut : ℕ) :
    Except Error (World S) := do
  revertIf (user = 0) .ZeroAddress
  let hub ← w.resolveCanonicalDelegationHub call
  revertIf (!call.isAuthorized hub user call.sender P_SET_KING_AUTO_LOCK_CONFIG_FOR) .NotAuthorized
  let (w, refId) ← setKingAutoLockConfigInternal call w user enabled targetTokenId durationSeconds
    createAutoMax minVeOut
  return w.emit (.DelegationSessionUsed user call.sender MINECORE_SET_KING_AUTO_LOCK_CONFIG_FOR
    P_SET_KING_AUTO_LOCK_CONFIG_FOR refId call.timestamp)

/-! ## Recipients of the current reign -/

/-- `DelegationPermissions.P_SET_REIGN_ETH_RECIPIENT`. -/
def P_SET_REIGN_ETH_RECIPIENT : ℕ := 2 ^ 2

/-- `DelegationPermissions.P_SET_REIGN_ETH_RECIPIENT_TO_CALLER_ONLY`. -/
def P_SET_REIGN_ETH_RECIPIENT_TO_CALLER_ONLY : ℕ := 2 ^ 3

/-- `DelegationPermissions.P_SET_REIGN_CLAIM_RECIPIENT`. -/
def P_SET_REIGN_CLAIM_RECIPIENT : ℕ := 2 ^ 4

/-- `DelegationPermissions.P_SET_REIGN_CLAIM_RECIPIENT_TO_USER_ONLY`. -/
def P_SET_REIGN_CLAIM_RECIPIENT_TO_USER_ONLY : ℕ := 2 ^ 5

/-- `DelegationActionTypes.MINECORE_SET_REIGN_RECIPIENTS`. -/
def MINECORE_SET_REIGN_RECIPIENTS : ℕ := 2

/-- The permission that one recipient change of a delegate uses: the broad one,
or the scoped one for the only account that it allows. -/
def recipientPerm (hub king recipient current allowed : Address) (broadPerm scopedPerm : ℕ) :
    Except Error ℕ :=
  if recipient = current then .ok 0
  else if call.isAuthorized hub king call.sender broadPerm then .ok broadPerm
  else do
    revertIf (recipient ≠ allowed ∨ !call.isAuthorized hub king call.sender scopedPerm)
      .NotAuthorized
    return scopedPerm

/-- The permissions that a delegate uses for a change of recipients. -/
def delegatedRecipientPerms (king ethRecipient claimRecipient : Address) : Except Error ℕ := do
  let reignId := w.core.game.currentReignId
  let hub ← w.resolveCanonicalDelegationHub call
  let ethPerm ← recipientPerm call hub king ethRecipient (w.core.reigns.reignEthRecipient reignId)
    call.sender P_SET_REIGN_ETH_RECIPIENT P_SET_REIGN_ETH_RECIPIENT_TO_CALLER_ONLY
  let claimPerm ← recipientPerm call hub king claimRecipient
    (w.core.reigns.reignClaimRecipient reignId) king P_SET_REIGN_CLAIM_RECIPIENT
    P_SET_REIGN_CLAIM_RECIPIENT_TO_USER_ONLY
  revertIf (ethPerm + claimPerm = 0) .NotAuthorized
  return ethPerm + claimPerm

/-- `setCurrentReignRecipients`. -/
def setCurrentReignRecipients (ethRecipient claimRecipient : Address) : Except Error (World S) := do
  let king := w.core.game.currentKing
  revertIf (king = 0) .NotAuthorized
  revertIf (ethRecipient = 0 ∨ claimRecipient = 0) .ZeroAddress
  rejectProtocolAddressAsRecipient w ethRecipient
  rejectProtocolAddressAsRecipient w claimRecipient
  let reignId := w.core.game.currentReignId
  let r := w.core.reigns
  let perms ←
    if call.sender ≠ king then delegatedRecipientPerms call w king ethRecipient claimRecipient
    else pure 0
  if ethRecipient = r.reignEthRecipient reignId ∧
      claimRecipient = r.reignClaimRecipient reignId then
    return w
  else
    let r := { r with
      reignEthRecipient := update r.reignEthRecipient reignId ethRecipient
      reignClaimRecipient := update r.reignClaimRecipient reignId claimRecipient }
    let core := { w.core with reigns := r }.emit
      (.ReignRecipientsSet reignId king ethRecipient claimRecipient)
    let session := core.emit (.DelegationSessionUsed king call.sender MINECORE_SET_REIGN_RECIPIENTS
      perms reignId call.timestamp)
    return { w with core := if perms ≠ 0 then session else core }

/-! ## Pause and genesis -/

/-- The accrual cursor after a change of the pause. -/
def Game.setPaused (g : Game) (nowTs : ℕ) (paused : Bool) : Except Error Game :=
  if paused then
    .ok { g with
      takeoversPaused := true
      pausedSince := if g.currentKing ≠ 0 then nowTs else g.pausedSince }
  else if g.pausedSince ≠ 0 then do
    let duration ← usub nowTs g.pausedSince
    let cursor ← uint256 (g.currentReignLastAccrualTime + duration)
    return { g with
      takeoversPaused := false, currentReignLastAccrualTime := cursor, pausedSince := 0 }
  else .ok { g with takeoversPaused := false }

/-- `setTakeoversPaused`. -/
def setTakeoversPaused (paused : Bool) : Except Error (World S) := do
  onlyGuardian call w.core
  let g := w.core.game
  if paused = g.takeoversPaused then return w
  else
    revertIf (paused = false ∧ w.core.genesis.genesisKingClaimCollected = false)
      .GenesisKingClaimNotCollected
    let game ← g.setPaused call.timestamp paused
    return { w with core := { w.core with game := game } }.emit (.TakeoversPausedChanged paused)

/-- `setLockingPaused`. -/
def setLockingPaused (paused : Bool) : Except Error (World S) := do
  onlyGuardian call w.core
  let furnace := w.core.wiring.furnace
  revertIf (furnace = 0) .ZeroAddress
  revertIf (!w.isReciprocallyWiredFurnace call furnace) .WiringMismatch
  revertIf (call.guardian furnace ≠ some w.core.wiring.self) .WiringMismatch
  let f ← Furnace.setLockingPaused (call.byCore w.core) w.furnace paused
  return { w with furnace := f }

/-- `collectGenesisKingClaim`. -/
def collectGenesisKingClaim (dst : Address) : Except Error (World S) := do
  onlyGuardian call w.core
  let g := w.core.genesis
  revertIf (dst = 0) .ZeroAddress
  revertIf (call.codeLength call.sender = 0) .NotAContract
  revertIf (!w.isCanonicalGenesisGuardian call call.sender) .WiringMismatch
  revertIf g.genesisKingClaimCollected .GenesisKingClaimAlreadyCollected
  let genesisEnd ← uint256 (g.emissionStartTime + g.GENESIS_ACCRUAL_DURATION)
  revertIf (call.timestamp < genesisEnd) .GenesisWindowNotEnded
  let claimMinted ← kingEmitted g.emissionStartTime g.emissionStartTime genesisEnd
  let g := { g with genesisKingClaimCollected := true, genesisKingClaimMinted := claimMinted }
  mintKingClaim { w with core := { w.core with genesis := g } } dst claimMinted

/-! ## Rescues -/

/-- `rescueEth`. -/
def rescueEth (dst : Address) (accepted : Bool) : Except Error (World S) := do
  onlyOwner call w.core
  revertIf (dst = 0) .ZeroAddress
  let b := w.core.buckets
  let tracked ← uint256 (b.shareholderEthPending + b.totalKingEthOwed + b.totalRefundEthOwed)
  if w.balance ≤ tracked then return w
  else
    let (w, ok) := sendEth w dst (w.balance - tracked) accepted
    revertIf (ok = false) .EthTransferFailed
    return w

/-- `rescueClaim`. -/
def rescueClaim (dst : Address) : Except Error (World S) := do
  onlyOwner call w.core
  revertIf (dst = 0) .ZeroAddress
  let tracked := w.core.kings.totalPendingKingClaim
  if w.claimBalance ≤ tracked then return w
  else
    let claim ← w.claim.transfer w.core.wiring.self dst (w.claimBalance - tracked)
    return w.withClaim claim

/-! ## Wiring -/

/-- Write the wiring, with the event. -/
def rewire (wiring : Wiring) (e : Event) : World S :=
  { w with core := { w.core with wiring := wiring } }.emit e

/-- A setter argument must be a contract that is not a delegated account. -/
def requireContract (account : Address) : Except Error Unit := do
  revertIf (account = 0) .ZeroAddress
  revertIf (call.codeLength account = 0) .NotAContract
  rejectDelegatedEOA call account

/-- The callers that may set the guardian. -/
def requireGuardianSetter : Except Error Unit :=
  let c := w.core.wiring
  if w.core.genesis.genesisKingClaimCollected = false then do
    revertIf (call.sender ≠ c.owner) .NotAuthorized
    revertIf (call.delegatedEOA call.sender) .DelegatedEOAOwner
  else if call.sender = c.owner then revertIf (call.delegatedEOA call.sender) .DelegatedEOAOwner
  else if call.sender = c.guardian then rejectDelegatedEOA call call.sender
  else .error .NotAuthorized

/-- `setGuardian`. -/
def setGuardian (guardian : Address) : Except Error (World S) := do
  requireGuardianSetter call w
  revertIf (guardian = 0) .ZeroAddress
  rejectDelegatedEOA call guardian
  let c := w.core.wiring
  let genesis := w.core.genesis.genesisKingClaimCollected = false
  revertIf (genesis ∧ w.isCanonicalGenesisGuardian call c.guardian) .GenesisGuardianLocked
  revertIf (genesis ∧ call.codeLength guardian = 0) .NotAContract
  revertIf (genesis ∧ !w.isCanonicalGenesisGuardian call guardian) .WiringMismatch
  return rewire w { c with guardian := guardian } (.GuardianChanged c.guardian guardian)

/-- `setFurnace`; a Furnace that does not answer `mineCore()` is accepted. -/
def setFurnace (furnace : Address) : Except Error (World S) := do
  onlyOwner call w.core
  let c := w.core.wiring
  revertIf c.configFrozen .ConfigFrozen
  requireContract call furnace
  revertIf (furnace = c.self) .WiringMismatch
  revertIf (c.entryTokenRegistry ≠ 0 ∧ sharesEntryTokenRegistry call furnace c.entryTokenRegistry)
    .WiringMismatch
  let furnaceMineCore := call.staticcallAddress furnace .mineCore
  revertIf (furnaceMineCore ≠ 0 ∧ furnaceMineCore ≠ c.self) .WiringMismatch
  return rewire w { c with furnace := furnace } (.FurnaceChanged c.furnace furnace)

/-- `freezeConfig`. -/
def freezeConfig : Except Error (World S) := do
  onlyOwner call w.core
  let c := w.core.wiring
  revertIf c.configFrozen .ConfigFrozen
  revertIf (c.furnace = 0) .ZeroAddress
  revertIf (call.codeLength c.furnace = 0) .NotAContract
  revertIf (c.claimAllHelper = 0) .ZeroAddress
  revertIf (call.codeLength c.claimAllHelper = 0) .NotAContract
  revertIf (call.staticcallAddress c.claimAllHelper .mineCore ≠ c.self) .WiringMismatch
  revertIf (call.staticcallAddress c.claimAllHelper .royalties ≠ c.royalties) .WiringMismatch
  revertIf (call.staticcallAddress c.royalties .claimAllHelper ≠ c.claimAllHelper) .WiringMismatch
  revertIf (!w.isReciprocallyWiredFurnace call c.furnace) .WiringMismatch
  return rewire w { c with configFrozen := true } .ConfigFrozen

/-- `setEntryTokenRegistry`. -/
def setEntryTokenRegistry (registry : Address) : Except Error (World S) := do
  onlyOwner call w.core
  requireContract call registry
  revertIf (sharesEntryTokenRegistry call w.core.wiring.furnace registry) .WiringMismatch
  return rewire w { w.core.wiring with entryTokenRegistry := registry }
    (.EntryTokenRegistrySet registry)

/-- `setClaimAllHelper`. -/
def setClaimAllHelper (helper : Address) : Except Error (World S) := do
  onlyOwner call w.core
  let c := w.core.wiring
  revertIf c.configFrozen .ConfigFrozen
  requireContract call helper
  return rewire w { c with claimAllHelper := helper }
    (.ClaimAllHelperChanged c.claimAllHelper helper)

/-- `setDelegationHub`. -/
def setDelegationHub (hub : Address) : Except Error (World S) := do
  onlyOwner call w.core
  let c := w.core.wiring
  revertIf c.configFrozen .ConfigFrozen
  requireContract call hub
  return rewire w { c with delegationHub := hub } (.DelegationHubChanged c.delegationHub hub)

/-- `transferOwnership`. -/
def transferOwnership (newOwner : Address) : Except Error (World S) := do
  onlyOwner call w.core
  let c := w.core.wiring
  revertIf (newOwner = 0) .OwnableInvalidOwner
  revertIf (call.delegatedEOA newOwner) .DelegatedEOAOwner
  return rewire w { c with pendingOwner := newOwner } (.OwnershipTransferStarted c.owner newOwner)

/-- `acceptOwnership`. -/
def acceptOwnership : Except Error (World S) := do
  let c := w.core.wiring
  revertIf (c.pendingOwner ≠ call.sender) .OwnableUnauthorizedAccount
  revertIf (call.delegatedEOA call.sender) .DelegatedEOAOwner
  return rewire w { c with owner := call.sender, pendingOwner := 0 }
    (.OwnershipTransferred c.owner call.sender)

end ClaimRush.MineCore
