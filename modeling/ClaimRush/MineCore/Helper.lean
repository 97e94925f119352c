import ClaimRush.Furnace.Admin
import ClaimRush.Furnace.Entry
import ClaimRush.Lib.MulDiv

/-!
# MineCoreHelper

The stateless helper of the game contract: the takeover price, the emission
schedules, the wiring checks and the choice of a lock for the CLAIM of a king.
-/

namespace ClaimRush.MineCore

open Constants

/-! ## Price -/

/-- `takeoverPrice`: linear decay from the reference price, clamped at the floor. -/
def takeoverPrice (currentKing : Address)
    (currentReignStartTime referencePrice timestamp : ℕ) : ℕ :=
  let floor := TAKEOVER_PRICE_FLOOR
  if currentKing = 0 then floor
  else
    let t := if timestamp ≤ currentReignStartTime then 0 else timestamp - currentReignStartTime
    if t ≥ TAKEOVER_DECAY_PERIOD then floor
    else if referencePrice ≤ floor then floor
    else
      let price := referencePrice - referencePrice * t / TAKEOVER_DECAY_PERIOD
      if price < floor then floor else price

/-! ## Emissions -/

/-- `_rateAt`. -/
def rateAt (elapsed launchRate floorRate : ℕ) : ℕ :=
  if launchRate ≤ floorRate then floorRate
  else if elapsed ≥ EMISSION_DECAY_PERIOD then floorRate
  else
    let diff := launchRate - floorRate
    let dec := diff * elapsed / EMISSION_DECAY_PERIOD
    let rate := launchRate - dec
    if rate < floorRate then floorRate else rate

/-- `_emitted`: the trapezoidal integral of the rate, across the floor kink. -/
def emitted (emissionStartTime ts0 ts1 launchRate floorRate : ℕ) : Except Error ℕ :=
  if ts1 ≤ ts0 then .ok 0
  else if ts1 ≤ emissionStartTime then .ok 0
  else do
    let ts0 := if ts0 < emissionStartTime then emissionStartTime else ts0
    let floorTs ← uint256 (emissionStartTime + EMISSION_DECAY_PERIOD)
    if ts0 ≥ floorTs then uint256 (floorRate * (ts1 - ts0))
    else if ts1 ≤ floorTs then
      let r0 := rateAt (ts0 - emissionStartTime) launchRate floorRate
      let r1 := rateAt (ts1 - emissionStartTime) launchRate floorRate
      mulDiv (r0 + r1) (ts1 - ts0) 2
    else
      let r0 := rateAt (ts0 - emissionStartTime) launchRate floorRate
      let decayPart ← mulDiv (r0 + floorRate) (floorTs - ts0) 2
      let floorPart ← uint256 (floorRate * (ts1 - floorTs))
      uint256 (decayPart + floorPart)

def kingEmitted (emissionStartTime ts0 ts1 : ℕ) : Except Error ℕ :=
  emitted emissionStartTime ts0 ts1 KING_EMISSION_LAUNCH_RATE KING_EMISSION_FLOOR

def furnaceEmitted (emissionStartTime ts0 ts1 : ℕ) : Except Error ℕ :=
  emitted emissionStartTime ts0 ts1 FURNACE_EMISSION_LAUNCH_RATE FURNACE_EMISSION_FLOOR

/-! ## Wiring -/

/-- One call, with the getters that only the game contract reads. -/
structure Call extends toFurnaceCall : Furnace.Call where
  /-- `entryTokenRegistry()` of a Furnace. -/
  entryTokenRegistry : Address → Address
  /-- `guardian()` of a Furnace; `none` is a failed call. -/
  guardian : Address → Option Address

section Wiring

variable (call : Call)

/-- `_isRealContract`. -/
def isRealContract (account : Address) : Bool :=
  call.codeLength account ≠ 0 && !call.delegatedEOA account

/-- `isCanonicalGenesisGuardian`. -/
def isCanonicalGenesisGuardian (mineCore claim candidate : Address) : Bool :=
  candidate ≠ 0 && isRealContract call candidate &&
    call.staticcallAddress candidate .mineCore = mineCore &&
    call.staticcallAddress candidate .claim = claim

/-- `isReciprocallyWiredFurnace`. -/
def isReciprocallyWiredFurnace (mineCore claim ve royalties furnace : Address) : Bool :=
  let get := call.staticcallAddress
  furnace ≠ 0 && ve ≠ 0 && royalties ≠ 0 &&
    isRealContract call furnace && isRealContract call ve && isRealContract call royalties &&
    get furnace .mineCore = mineCore && get furnace .claim = claim && get furnace .ve = ve &&
    get furnace .shareholderRoyalties = royalties &&
    get ve .furnace = furnace && get ve .claimToken = claim &&
    get royalties .ve = ve && get royalties .furnace = furnace && get royalties .mineCore = mineCore

/-- `sharesEntryTokenRegistry`. -/
def sharesEntryTokenRegistry (furnace mineCoreRegistry : Address) : Bool :=
  furnace ≠ 0 && mineCoreRegistry ≠ 0 && isRealContract call furnace &&
    call.entryTokenRegistry furnace ≠ 0 && call.entryTokenRegistry furnace = mineCoreRegistry

/-- `requireCanonicalDelegationHub`. -/
def requireCanonicalDelegationHub (mineCore claim ve royalties furnace hub : Address) :
    Except Error Unit := do
  revertIf (hub = 0) .ZeroAddress
  revertIf (!isRealContract call hub) .NotAContract
  revertIf (!isReciprocallyWiredFurnace call mineCore claim ve royalties furnace) .WiringMismatch
  revertIf (call.staticcallAddress furnace .delegationHub ≠ hub) .WiringMismatch

/-- `getValidatedRouterConfig`. -/
def getValidatedRouterConfig (registry claim : Address) : Except Error Furnace.RouterConfig := do
  revertIf (registry = 0 ∨ !isRealContract call registry) .RouterConfigNotSet
  match call.routerConfig registry with
  | none => throw .RouterConfigNotSet
  | some config =>
      revertIf (config.router = 0 ∨ config.factory = 0 ∨ config.weth = 0 ∨ config.claimToken = 0)
        .RouterConfigNotSet
      revertIf (!isRealContract call config.router ∨ !isRealContract call config.factory ∨
        !isRealContract call config.weth ∨ !isRealContract call config.claimToken) .NotAContract
      revertIf (config.claimToken ≠ claim) .InvalidToken
      return config

end Wiring

/-! ## Destinations -/

/-- Why a lock cannot take the CLAIM of a king. -/
inductive AutoLockReason
  | NOT_OWNER | LISTED | EXPIRED | INVALID_TOKEN_ID | INVALID_DURATION
  deriving DecidableEq, Repr

/-- Where the CLAIM of a king goes. -/
structure AutoLockDestination where
  tokenId : ℕ
  duration : ℕ
  createAutoMax : Bool
  deriving DecidableEq, Repr

section Destinations

variable (nowTs : ℕ) (ve : VeClaimNFT.VeState)

/-- `_resolveExistingToken`. -/
def resolveExistingToken (king : Address) (tokenId durationSeconds : ℕ) :
    Except AutoLockReason AutoLockDestination :=
  if ve.owners tokenId = 0 then .error .INVALID_TOKEN_ID
  else if ve.owners tokenId ≠ king then .error .NOT_OWNER
  else
    let (_, lockEnd, autoMaxExisting, listed) := ve.getLockInfo nowTs tokenId
    if listed then .error .LISTED
    else if lockEnd ≤ nowTs then .error .EXPIRED
    else if autoMaxExisting then .ok ⟨tokenId, MAX_LOCK_DURATION, false⟩
    else
      let remaining := lockEnd - nowTs
      if remaining < KING_FORCE_LOCK_MIN_DURATION then .error .INVALID_DURATION
      else
        let desired := if durationSeconds = 0 then remaining else durationSeconds
        .ok ⟨tokenId, if desired < remaining then remaining else desired, false⟩

/-- `resolveKingAutoLockDestination`. -/
def resolveKingAutoLockDestination (king : Address) (tokenId durationSeconds : ℕ)
    (createAutoMax : Bool) : Except AutoLockReason AutoLockDestination :=
  if tokenId ≠ 0 then resolveExistingToken nowTs ve king tokenId durationSeconds
  else if durationSeconds ≠ 0 ∧
      (durationSeconds < MIN_LOCK_DURATION ∨ durationSeconds > MAX_LOCK_DURATION) then
    .error .INVALID_DURATION
  else .ok ⟨0, durationSeconds, createAutoMax⟩

/-- `validateKingAutoLockExistingTarget`. -/
def validateKingAutoLockExistingTarget (user : Address) (targetTokenId durationSeconds : ℕ) :
    Except Error Unit := do
  revertIf (ve.owners targetTokenId = 0) .InvalidToken
  revertIf (ve.owners targetTokenId ≠ user) .NotAuthorized
  let (_, lockEnd, autoMaxExisting, listed) := ve.getLockInfo nowTs targetTokenId
  revertIf (listed) .LockListedOrFrozen
  revertIf (lockEnd ≤ nowTs) .LockExpired
  revertIf (autoMaxExisting ∧ durationSeconds ≠ 0 ∧ durationSeconds ≠ MAX_LOCK_DURATION)
    .InvalidDuration

end Destinations

end ClaimRush.MineCore
