import Mathlib.Algebra.Ring.Nat
import Mathlib.Data.List.Infix
import Mathlib.Data.Prod.Lex

/-!
# Logs of a block range

`getLogsWithAutoSplit` asks the provider for the logs of a range and bisects the
ranges that the provider finds too large.  Waiting and console messages are left
out: they change no result.
-/

namespace ClaimRush.Keeper.RpcLogs

/-! ## Errors of the provider -/

/-- The field `code` of an error, where it is present. -/
inductive ErrorCode
  | number (code : ℤ)
  | other
  deriving DecidableEq, Repr

/-- What a provider throws: an error object with the fields that are read, or a
value that is not an object. -/
inductive RpcError
  | object (shortMessage message details responseBody body reason : Option String)
      (code dataCode : Option ErrorCode) (cause : Option RpcError)
  | primitive (text : String)

def RpcError.code : RpcError → Option ErrorCode
  | .object _ _ _ _ _ _ code _ _ => code
  | .primitive _ => none

/-- `String.prototype.includes`. -/
def includes (text part : String) : Bool := decide (part.toList <:+: text.toList)

/-- `fmtErr`. -/
def fmtErr : RpcError → String
  | .object shortMessage message .. => shortMessage.getD (message.getD "[object Object]")
  | .primitive text => text

/-- `allErrorText`, on the levels of causes that are left. -/
def allErrorText : ℕ → RpcError → String
  | 0, _ => ""
  | _, .primitive text => text
  | levels + 1, .object shortMessage message details responseBody body reason _ _ cause =>
      let parts := [shortMessage, message, details, responseBody, body, reason].filterMap
        fun part ↦ part.filter (· ≠ "")
      let parts := match cause with
        | some cause => parts ++ [allErrorText levels cause]
        | none => parts
      " | ".intercalate parts

/-- `allErrorText(e)` from the top. -/
def errorText (e : RpcError) : String := allErrorText 5 e

/-- `allErrorText(e) || fmtErr(e)`. -/
def errorMessage (e : RpcError) : String :=
  if errorText e = "" then fmtErr e else errorText e

def isRateLimitMessage (msg : String) : Bool :=
  let m := msg.toLower
  includes m "rate limit" || includes m "too many requests" || includes m "http 429" ||
    includes m "status code 429"

/-- `extractJsonRpcErrorCode`. -/
def extractJsonRpcErrorCode : RpcError → Option ℤ
  | .object _ _ _ _ _ _ code dataCode cause =>
      match (code.or (cause.bind RpcError.code)).or dataCode with
      | some (.number code) => some code
      | _ => none
  | .primitive _ => none

def shouldSplitGetLogsErrorMessage (msg : String) : Bool :=
  let m := msg.toLower
  if isRateLimitMessage m then false
  else if includes m "query returned more than" || includes m "more than 10000" ||
      includes m "too many results" || includes m "too many logs" ||
      includes m "log response size exceeded" || includes m "response size exceeded" ||
      includes m "payload too large" || includes m "request too large" ||
      (includes m "block range" &&
        (includes m "too large" || includes m "too wide" || includes m "exceed")) ||
      includes m "exceeds max block range" ||
      (includes m "eth_getlogs" &&
        (includes m "limit" || includes m "exceed" || includes m "too large")) then true
  else if includes m "upstream_http_400" || includes m "upstream_http_413" then true
  else if includes m "up to a" && includes m "block range" then true
  else false

def shouldSplitGetLogsError (e : RpcError) : Bool :=
  if extractJsonRpcErrorCode e = some (-32005) ∨ extractJsonRpcErrorCode e = some (-32602) then
    !isRateLimitMessage (errorText e).toLower
  else shouldSplitGetLogsErrorMessage (errorText e)

/-! ## Logs -/

/-- A log as the function reads it; `τ` is what else it carries. -/
structure RpcLog (τ : Type) where
  blockNumber : ℕ
  logIndex : ℕ
  transactionHash : String
  payload : τ

variable {τ : Type}

/-- The key by which duplicates are dropped, the three parts that it joins. -/
def RpcLog.key (l : RpcLog τ) : ℕ × ℕ × String := (l.blockNumber, l.logIndex, l.transactionHash)

/-- The order of the final sort. -/
def RpcLog.le (l l' : RpcLog τ) : Bool :=
  decide (l.blockNumber < l'.blockNumber ∨
    l.blockNumber = l'.blockNumber ∧ l.logIndex ≤ l'.logIndex)

/-- The loop that drops duplicates. -/
def dedupLogs : List (ℕ × ℕ × String) → List (RpcLog τ) → List (RpcLog τ)
  | _, [] => []
  | seen, l :: logs =>
      if l.key ∈ seen then dedupLogs seen logs else l :: dedupLogs (l.key :: seen) logs

/-! ## The bisection -/

/-- A provider: the reply to each query, given how many queries came before. -/
abbrev Provider (τ : Type) := ℕ → ℕ → ℕ → Except RpcError (List (RpcLog τ))

inductive GetLogsError
  | splitBudgetExceeded (maxSplits fromBlock toBlock : ℕ) (msg : String)
  | singleBlockFailed (fromBlock : ℕ) (msg : String)
  | provider (e : RpcError)
  /-- Not an error of the source: the fuel of the model. -/
  | outOfFuel

/-- `getLogsRange`, with the retries that are left, and the number of queries. -/
def getLogsRange (query : Provider τ) (fromBlock toBlock : ℕ) :
    ℕ → ℕ → Except RpcError (List (RpcLog τ)) × ℕ
  | 0, queries => (query queries fromBlock toBlock, queries + 1)
  | retries + 1, queries =>
      match query queries fromBlock toBlock with
      | .ok logs => (.ok logs, queries + 1)
      | .error e =>
          if isRateLimitMessage (errorMessage e) then
            getLogsRange query fromBlock toBlock retries (queries + 1)
          else (.error e, queries + 1)

/-- The block where a range is cut. -/
def midBlock (fromBlock toBlock : ℕ) : ℕ := fromBlock + (toBlock - fromBlock) / 2

/-- The loop over the stack of ranges: the logs found and the number of splits. -/
def splitLoop (query : Provider τ) (maxSplits retries : ℕ) :
    ℕ → ℕ → ℕ → List (ℕ × ℕ) → List (RpcLog τ) → Except GetLogsError (List (RpcLog τ) × ℕ)
  | _, _, splits, [], out => .ok (out, splits)
  | 0, _, _, _ :: _, _ => .error .outOfFuel
  | fuel + 1, queries, splits, (fromBlock, toBlock) :: stack, out =>
      match getLogsRange query fromBlock toBlock retries queries with
      | (.ok logs, queries) =>
          splitLoop query maxSplits retries fuel queries splits stack (out ++ logs)
      | (.error e, queries) =>
          if fromBlock < toBlock ∧ shouldSplitGetLogsError e then
            let splits := splits + 1
            if splits > maxSplits then
              .error (.splitBudgetExceeded maxSplits fromBlock toBlock (errorMessage e))
            else
              let mid := midBlock fromBlock toBlock
              if mid = fromBlock ∨ mid = toBlock then
                .error (.singleBlockFailed fromBlock (errorMessage e))
              else
                -- The lower range is processed first.
                splitLoop query maxSplits retries fuel queries splits
                  ((fromBlock, mid) :: (mid + 1, toBlock) :: stack) out
          else .error (.provider e)

/-- Rounds of the loop that a range can take. -/
def rounds (fromBlock toBlock : ℕ) : ℕ := 2 * (toBlock - fromBlock) + 1

/-- `getLogsWithAutoSplit`, for a request with both block bounds. -/
def getLogsWithAutoSplit (query : Provider τ) (fromBlock toBlock : ℕ) (maxSplits : ℕ := 256)
    (rateLimitRetries : ℕ := 5) : Except GetLogsError (List (RpcLog τ)) := do
  let (out, splits) ← splitLoop query maxSplits rateLimitRetries (rounds fromBlock toBlock) 0 0
    [(fromBlock, toBlock)] []
  let out := if splits > 0 ∧ out.length > 1 then out.mergeSort RpcLog.le else out
  return if out.length > 1 then dedupLogs [] out else out

end ClaimRush.Keeper.RpcLogs
