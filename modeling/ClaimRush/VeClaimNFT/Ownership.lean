import ClaimRush.VeClaimNFT.Wiring

/-!
# Ownership, enumeration and transfers

The ERC721 base contract with the overridden `_update`: the owner enumeration,
the per-address cap, and the custody transfer from the market into the Furnace.
-/

open Function

namespace ClaimRush.VeClaimNFT

open Constants

namespace VeState

variable (s : VeState)

/-- `_addTokenToOwnerEnumeration`. -/
def addTokenToOwnerEnumeration (dst : Address) (tokenId : ℕ) : VeState :=
  let ids := s.ownedTokens dst
  { s with
    ownedTokensIndex := update s.ownedTokensIndex tokenId ids.length
    ownedTokens := update s.ownedTokens dst (ids ++ [tokenId]) }

/-- `_removeTokenFromOwnerEnumeration`: the last token takes the freed place. -/
def removeTokenFromOwnerEnumeration (src : Address) (tokenId : ℕ) :
    Except Error VeState := do
  let ids := s.ownedTokens src
  let lastIndex ← usub ids.length 1
  let index := s.ownedTokensIndex tokenId
  if index ≠ lastIndex then
    revertIf (ids.length ≤ index) .Panic
    let lastTokenId := ids.getD lastIndex 0
    return { s with
      ownedTokensIndex := update s.ownedTokensIndex lastTokenId index
      ownedTokens := update s.ownedTokens src (ids.set index lastTokenId).dropLast }
  else
    return { s with ownedTokens := update s.ownedTokens src ids.dropLast }

/-- The base-contract `_update`: balances, owner and the `Transfer` event. -/
def baseUpdate (dst : Address) (tokenId : ℕ) : VeState :=
  let src := s.owners tokenId
  let debited := if src ≠ 0 then update s.balances src (s.balances src - 1) else s.balances
  let credited := if dst ≠ 0 then update debited dst (debited dst + 1) else debited
  { s with
    balances := credited
    owners := update s.owners tokenId dst
    events := s.events ++ [.Transfer src dst tokenId] }

/-- The receive cap and the enumeration that follow the base `_update`. -/
def updateEnumeration (src dst : Address) (tokenId : ℕ) : Except Error VeState := do
  revertIf (dst ≠ 0 ∧ s.balances dst > MAX_VE_NFTS_PER_USER) .TooManyVeNFTs
  let s ← if src ≠ 0 then s.removeTokenFromOwnerEnumeration src tokenId else pure s
  return if dst ≠ 0 then s.addTokenToOwnerEnumeration dst tokenId else s

/-- `_mint`. -/
def mint (dst : Address) (tokenId : ℕ) : Except Error VeState := do
  revertIf (dst = 0) .ERC721InvalidReceiver
  let previousOwner := s.owners tokenId
  let s ← (s.baseUpdate dst tokenId).updateEnumeration previousOwner dst tokenId
  revertIf (previousOwner ≠ 0) .ERC721InvalidSender
  return s

/-- `_burn`, followed by `delete _locks[tokenId]` as in every caller. -/
def burn (tokenId : ℕ) : Except Error VeState := do
  let previousOwner := s.owners tokenId
  let s ← (s.baseUpdate 0 tokenId).updateEnumeration previousOwner 0 tokenId
  revertIf (previousOwner = 0) .ERC721NonexistentToken
  return s.setLock tokenId {}

/-- `_requireMutable` for the lock `l`. -/
def requireMutable (nowTs : ℕ) (l : Lock) : Except Error Unit := do
  revertIf (l.listed) .LockListedOrFrozen
  revertIf (!l.autoMax ∧ nowTs ≥ l.lockEnd) .LockExpired

/-- `_requireOwnedLock`. -/
def requireOwnedLock (tokenId : ℕ) (user : Address) : Except Error Lock := do
  revertIf (s.owners tokenId ≠ user) .NotAuthorized
  return s.locks tokenId

end VeState

section Transfers

variable {S : Type} (port : IShareholderRoyalties S) (call : Call) (w : World S)

/-- `transferFrom(from, to, tokenId)` through `_transferRestricted`. -/
def transferFrom (src dst : Address) (tokenId : ℕ) : Except Error (World S) := do
  revertIf (dst = 0) .ERC721InvalidReceiver
  let currentOwner := w.ve.owners tokenId
  -- A token without an owner fails the base authorisation check.
  revertIf (currentOwner = 0) .ERC721NonexistentToken
  let w := { w with ve := ← w.ve.checkpointGlobalStateInternal call.timestamp }
  revertIf (w.ve.global.globalLastTs ≠ call.timestamp) .CheckpointStale
  let w ← checkpointShareholderRoyalties call port w currentOwner
  let w ← checkpointShareholderRoyalties call port w dst
  requireCanonicalMineMarketCaller call w.ve
  revertIf (dst ≠ w.ve.furnace) .MarketMustTransferToFurnace
  revertIf ((w.ve.locks tokenId).listed) .LockListedOrFrozen
  let ve ← (w.ve.baseUpdate dst tokenId).updateEnumeration currentOwner dst tokenId
  let w := pinShareholderObservedMin call port { w with ve := ve } currentOwner
  let w := pinShareholderObservedMin call port w dst
  revertIf (currentOwner ≠ src) .ERC721IncorrectOwner
  return w

/-- `safeTransferFrom(from, to, tokenId, data)`. -/
def safeTransferFrom (src dst : Address) (tokenId : ℕ) : Except Error (World S) := do
  let w ← transferFrom port call w src dst tokenId
  revertIf (call.codeLength dst ≠ 0 ∧ !call.onERC721Received dst) .ERC721InvalidReceiver
  return w

end Transfers

end ClaimRush.VeClaimNFT
