import Mathlib.Tactic.Common

/-!
# The transaction manager of the agents

`writeContract` broadcasts a request with a managed nonce, polls for its receipt,
and replaces it with higher fees after a timeout.  The manager is a state machine
that stops at each `await`; what it does next is a function of the answer.
-/

namespace ClaimRush.TxManager

/-! ## Fees -/

inductive FeeParams
  | legacy (gasPrice : ℕ)
  | dynamic (maxFeePerGas maxPriorityFeePerGas : ℕ)
  deriving DecidableEq, Repr

structure TxReplacementPolicy where
  enabled : Bool
  maxAttempts : ℕ
  feeBumpBps : ℕ
  deriving DecidableEq, Repr

/-- `bumpByBps`: rounded up, and strictly increasing. -/
def bumpByBps (v bps : ℕ) : ℕ :=
  let out := (v * bps + 9999) / 10000
  if out > v then out else v + 1

/-- `bumpFees`. -/
def bumpFees (policy : TxReplacementPolicy) : FeeParams → FeeParams
  | .legacy gasPrice => .legacy (bumpByBps gasPrice policy.feeBumpBps)
  | .dynamic maxFeePerGas maxPriorityFeePerGas =>
      .dynamic (bumpByBps maxFeePerGas policy.feeBumpBps)
        (bumpByBps maxPriorityFeePerGas policy.feeBumpBps)

/-- A contract write, with the fees that it fixes. -/
structure Request where
  id : ℕ
  fees : Option FeeParams
  deriving DecidableEq, Repr

/-- `getInitialFees`: the fees of the request, else the estimate of the network. -/
def getInitialFees (request : Request) (estimate : Option FeeParams) : Option FeeParams :=
  request.fees <|> estimate

/-! ## Nonces -/

/-- What one nonce client answers; `none` is a failed read. -/
structure NonceAnswer where
  pending : Option ℕ
  latest : Option ℕ
  deriving DecidableEq, Repr

/-- `getNetworkPendingNonce`: the greatest answer. -/
def getNetworkPendingNonce (answers : List NonceAnswer) : ℕ :=
  answers.foldl (fun max a ↦
    match a.pending <|> a.latest with
    | some n => if n > max then n else max
    | none => max) 0

/-- `syncNonce`: the cached nonce after a read of the network. -/
def syncNonce (nextNonce : Option ℕ) (net : ℕ) : ℕ :=
  match nextNonce with
  | none => net
  | some next => if net > next then net else next

/-! ## Calls -/

/-- A broadcast error, by what `isNonceTooLowError`, `isNonceTooHighError` and
`isReplacementUnderpricedError` say of its message. -/
structure BroadcastError where
  nonceTooLow : Bool
  nonceTooHigh : Bool
  replacementUnderpriced : Bool
  deriving DecidableEq, Repr

/-- How a call of `writeContract` ends. -/
inductive CallOutcome
  | returned (hash nonce attempts : ℕ) (hashes : List ℕ)
  /-- `TxRevertedError`. -/
  | reverted (hash : ℕ)
  /-- `TxTimeoutError`. -/
  | timeout (nonce : ℕ) (hashes : List ℕ)
  /-- The last broadcast error is thrown. -/
  | broadcastFailed (e : Option BroadcastError)
  /-- The error of a receipt read is thrown. -/
  | readFailed
  deriving DecidableEq, Repr

/-- What a call waits for. -/
inductive Await
  /-- `allocateNonce`. -/
  | allocate
  /-- `getInitialFees` before the first attempt. -/
  | initialFees
  /-- `walletClient.writeContract(req)`. -/
  | broadcast
  /-- `syncNonce` after a nonce error. -/
  | resync (e : BroadcastError)
  /-- `getInitialFees` after an underpriced replacement. -/
  | underpricedFees
  /-- `getTransactionReceipt`. -/
  | receipt (hash : ℕ)
  /-- `getInitialFees` before the next attempt. -/
  | nextFees
  deriving DecidableEq, Repr

/-- The local variables of a call that holds the lock. -/
structure Running where
  /-- The number of the call, in the order in which the lock is taken. -/
  ticket : ℕ
  request : Request
  nonceAttempt : ℕ := 1
  nonce : ℕ := 0
  fees : Option FeeParams := none
  attempt : ℕ := 1
  hashes : List ℕ := []
  lastBroadcastError : Option BroadcastError := none
  await : Await := .allocate
  deriving DecidableEq, Repr

/-- The manager with its cached nonce: the call goes on, or it ends. -/
inductive Next
  | running (nextNonce : Option ℕ) (c : Running)
  | done (nextNonce : Option ℕ) (o : CallOutcome)
  deriving DecidableEq, Repr

section Calls

variable (policy : TxReplacementPolicy) (nextNonce : Option ℕ) (c : Running)

/-- `maxNonceResyncAttempts`. -/
def maxNonceResyncAttempts : ℕ := 2

/-- All attempts of this nonce are used. -/
def exhausted : Next :=
  if c.hashes = [] then .done none (.broadcastFailed c.lastBroadcastError)
  else .done none (.timeout c.nonce c.hashes)

/-- The head of the loop over the attempts. -/
def nextAttempt (fees : Option FeeParams) : Next :=
  if c.attempt + 1 ≤ max 1 policy.maxAttempts then
    .running nextNonce { c with fees := fees, attempt := c.attempt + 1, await := .broadcast }
  else exhausted { c with fees := fees, attempt := c.attempt + 1 }

/-- `allocateNonce` with the answers of the nonce clients. -/
def onAllocate (net : ℕ) : Next :=
  let nonce := syncNonce nextNonce net
  .running (some nonce) { c with
    nonce := nonce, fees := none, attempt := 1, hashes := [], lastBroadcastError := none
    await := .initialFees }

/-- The fees of the first attempt. -/
def onInitialFees (estimate : Option FeeParams) : Next :=
  .running nextNonce { c with fees := getInitialFees c.request estimate, await := .broadcast }

/-- The broadcast returned a hash; the nonce is committed with the first one. -/
def onSent (hash : ℕ) : Next :=
  let hashes := c.hashes ++ [hash]
  .running (if hashes.length = 1 then some (c.nonce + 1) else nextNonce)
    { c with hashes := hashes, await := .receipt hash }

/-- A broadcast error that is no reason for a fresh nonce. -/
def onOtherError (e : BroadcastError) : Next :=
  if e.replacementUnderpriced then
    match c.fees with
    | none => .running nextNonce { c with await := .underpricedFees }
    | some fees => nextAttempt policy nextNonce c (some (bumpFees policy fees))
  else .done none (.broadcastFailed (some e))

/-- The broadcast failed. -/
def onRejected (e : BroadcastError) : Next :=
  let c := { c with lastBroadcastError := some e }
  if e.nonceTooLow || e.nonceTooHigh then .running none { c with await := .resync e }
  else onOtherError policy nextNonce c e

/-- The nonce was read again after a nonce error. -/
def onResync (e : BroadcastError) (net : ℕ) : Next :=
  let nextNonce := some (syncNonce nextNonce net)
  if c.nonceAttempt < maxNonceResyncAttempts then
    .running nextNonce { c with nonceAttempt := c.nonceAttempt + 1, await := .allocate }
  else onOtherError policy nextNonce c e

/-- The fees were read again. -/
def onBumpedFees (estimate : Option FeeParams) : Next :=
  nextAttempt policy nextNonce c ((getInitialFees c.request estimate).map (bumpFees policy))

/-- A receipt was found. -/
def onReceipt (hash : ℕ) (success : Bool) : Next :=
  if success then
    let next := match nextNonce with
      | some next => if next ≤ c.nonce then some (c.nonce + 1) else some next
      | none => none
    .done next (.returned hash c.nonce c.attempt c.hashes)
  else .done nextNonce (.reverted hash)

/-- No receipt was found; the polling goes on until the timeout. -/
def onNotFound (timedOut : Bool) : Next :=
  if !timedOut then .running nextNonce c
  else if !policy.enabled then .done none (.timeout c.nonce c.hashes)
  else
    match c.fees with
    | none => .running nextNonce { c with await := .nextFees }
    | some fees => nextAttempt policy nextNonce c (some (bumpFees policy fees))

end Calls

/-! ## What a call keeps -/

/-- The call waits for a nonce. -/
def Running.wantsNonce (c : Running) : Prop := c.await = .allocate ∨ ∃ e, c.await = .resync e

/-- The call goes on with the same nonce and the same transactions. -/
structure SameTxs (c c' : Running) : Prop where
  ticket : c'.ticket = c.ticket
  nonce : c'.nonce = c.nonce
  hashes : c'.hashes = c.hashes

/-- The cached nonce. -/
def Next.cache : Next → Option ℕ
  | .running nextNonce _ => nextNonce
  | .done nextNonce _ => nextNonce

/-- Between the reads of the nonce a call that goes on keeps the cache, and a call that
ends clears it. -/
def Next.KeepsCache (cache : Option ℕ) : Next → Prop
  | .running nextNonce _ => nextNonce = cache
  | .done nextNonce _ => nextNonce = none

/-- A continuation that goes on with `P`. -/
def Next.Goes (P : Running → Prop) : Next → Prop
  | .running _ c => P c
  | .done _ _ => True

section Calls

variable (policy : TxReplacementPolicy) (nextNonce : Option ℕ) (c : Running)

/-- The call goes on as before, and polls for no other transaction. -/
def Onwards (c c' : Running) : Prop :=
  SameTxs c c' ∧ ¬ c'.wantsNonce ∧ ∀ hash, c'.await = .receipt hash → c.await = .receipt hash

theorem nextAttempt_onwards (fees : Option FeeParams) :
    (nextAttempt policy nextNonce c fees).Goes (Onwards c) := by
  unfold nextAttempt exhausted
  split_ifs
  · exact ⟨⟨rfl, rfl, rfl⟩, by simp [Running.wantsNonce], nofun⟩
  · trivial
  · trivial

theorem onOtherError_onwards (e : BroadcastError) :
    (onOtherError policy nextNonce c e).Goes (Onwards c) := by
  unfold onOtherError
  split_ifs
  · split
    · exact ⟨⟨rfl, rfl, rfl⟩, by simp [Running.wantsNonce], nofun⟩
    · exact nextAttempt_onwards policy nextNonce c _
  · trivial

theorem onBumpedFees_onwards (estimate : Option FeeParams) :
    (onBumpedFees policy nextNonce c estimate).Goes (Onwards c) :=
  nextAttempt_onwards policy nextNonce c _

theorem onInitialFees_onwards (estimate : Option FeeParams) :
    (onInitialFees nextNonce c estimate).Goes (Onwards c) :=
  ⟨⟨rfl, rfl, rfl⟩, by simp [Running.wantsNonce], nofun⟩

theorem onNotFound_onwards (hreceipt : ¬ c.wantsNonce) (timedOut : Bool) :
    (onNotFound policy nextNonce c timedOut).Goes (Onwards c) := by
  unfold onNotFound
  split_ifs
  · exact ⟨⟨rfl, rfl, rfl⟩, hreceipt, fun _ h ↦ h⟩
  · trivial
  · split
    · exact ⟨⟨rfl, rfl, rfl⟩, by simp [Running.wantsNonce], nofun⟩
    · exact nextAttempt_onwards policy nextNonce c _

theorem nextAttempt_cache (fees : Option FeeParams) :
    (nextAttempt policy nextNonce c fees).KeepsCache nextNonce := by
  unfold nextAttempt exhausted
  split_ifs <;> rfl

theorem onOtherError_cache (e : BroadcastError) :
    (onOtherError policy nextNonce c e).KeepsCache nextNonce := by
  unfold onOtherError
  split_ifs
  · split
    · rfl
    · exact nextAttempt_cache policy nextNonce c _
  · rfl

theorem onNotFound_cache (timedOut : Bool) :
    (onNotFound policy nextNonce c timedOut).KeepsCache nextNonce := by
  unfold onNotFound
  split_ifs
  · rfl
  · rfl
  · split
    · rfl
    · exact nextAttempt_cache policy nextNonce c _

end Calls

end ClaimRush.TxManager
