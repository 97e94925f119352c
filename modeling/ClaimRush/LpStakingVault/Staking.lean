import ClaimRush.LpStakingVault.Rewards

/-!
# Staking and unbonding

Every change of a stake first indexes what has reached the vault at the old
total and settles the user.  LP tokens under unbonding earn nothing and can be
withdrawn seven days later.
-/

open Function

namespace ClaimRush.LpStakingVault

open Constants VeClaimNFT

variable (call : Call) (s : VaultState)

/-- `stake`; `transferred` tells whether the LP token transfer went through. -/
def stake (amount : ℕ) (transferred : Bool) : Except Error VaultState := do
  revertIf (amount = 0) .AmountZero
  revertIf (amount < MIN_UNBOND_AMOUNT) .AmountTooSmall
  let s ← checkpoint s call.sender
  revertIf (!transferred) .ExternalCallFailed
  let totalStaked ← uint256 (s.totalStaked + amount)
  let staked ← uint256 (s.stakedBalance call.sender + amount)
  let s := { s with
    totalStaked := totalStaked
    stakedBalance := update s.stakedBalance call.sender staked }
  let s ←
    if s.queuedRewards ≠ 0 ∧ s.totalStaked ≠ 0 then
      s.emptyQueue.indexRewardsWithCarry s.queuedRewards
    else pure s
  return s.emit (.LpStaked call.sender amount)

/-- The amount that `beginUnbond` really unbonds: no dust stays staked. -/
def unbondAmount (staked amount : ℕ) : ℕ :=
  if staked - amount ≠ 0 ∧ staked - amount < MIN_UNBOND_AMOUNT then staked else amount

/-- `beginUnbond`. -/
def beginUnbond (amount : ℕ) : Except Error VaultState := do
  let user := call.sender
  revertIf (amount = 0) .AmountZero
  revertIf (amount < MIN_UNBOND_AMOUNT ∧ amount ≠ s.stakedBalance user) .AmountTooSmall
  revertIf (s.stakedBalance user < amount) .InsufficientStake
  let amount := unbondAmount (s.stakedBalance user) amount
  revertIf ((s.unbonds user).length ≥ MAX_UNBONDS_PER_USER) .TooManyUnbonds
  let s ← checkpoint s user
  let staked ← usub (s.stakedBalance user) amount
  let totalStaked ← usub s.totalStaked amount
  let unlockTime ← uint256 (call.timestamp + UNBONDING_PERIOD)
  let id := s.nextUnbondId user
  let nextUnbondId ← uint256 (id + 1)
  let entry : Unbond := { id := id, amount := amount, unlockTime := unlockTime }
  return { s with
    stakedBalance := update s.stakedBalance user staked
    totalStaked := totalStaked
    nextUnbondId := update s.nextUnbondId user nextUnbondId
    unbonds := update s.unbonds user (s.unbonds user ++ [entry]) }.emit
    (.LpUnbondStarted user id amount unlockTime)

/-- The loop of `withdrawMatured`: matured entries are swapped with the last one
and popped. -/
def withdrawLoop (nowTs : ℕ) (user : Address) :
    ℕ → List Unbond → ℕ → ℕ → List Event → Except Error (List Unbond × ℕ × List Event)
  | 0, arr, _, totalOut, events => .ok (arr, totalOut, events)
  | fuel + 1, arr, i, totalOut, events =>
      if i < arr.length then
        let u := arr.getD i {}
        if nowTs ≥ u.unlockTime then do
          let total ← uint256 (totalOut + u.amount)
          let events := if u.amount ≠ 0 then events ++ [.LpUnbondWithdrawn user u.id u.amount]
            else events
          withdrawLoop nowTs user fuel (arr.set i (arr.getD (arr.length - 1) {})).dropLast i
            total events
        else withdrawLoop nowTs user fuel arr (i + 1) totalOut events
      else .ok (arr, totalOut, events)

/-- `withdrawMatured`; each round of the loop passes or drops one entry. -/
def withdrawMatured (transferred : Bool) : Except Error VaultState := do
  let user := call.sender
  let arr := s.unbonds user
  let (rest, totalOut, events) ← withdrawLoop call.timestamp user arr.length arr 0 0 s.events
  let s := { s with unbonds := update s.unbonds user rest, events := events }
  if totalOut = 0 then return s
  else
    revertIf (!transferred) .ExternalCallFailed
    return s

end ClaimRush.LpStakingVault
