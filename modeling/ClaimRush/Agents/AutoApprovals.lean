import Mathlib.Algebra.Ring.Nat
import Mathlib.Logic.Function.Basic
import ClaimRush.Agents.Plan

/-!
# Automatic approvals

`expandPlanWithAutoApprovals` goes through a plan and puts an approval before each
action that spends through one, as far as the allowance that it tracks does not cover
the action already.  An allowance is read once for each pair of a token and a spender,
so that its reading is a function of the pair.
-/

namespace ClaimRush.Agents.AutoApprovals

inductive AutoApproveMode
  | exact
  | max
  deriving DecidableEq

inductive PrivateRpcMode
  | off
  | route
  | only
  deriving DecidableEq

structure AutoApproveOptions where
  enabled : Bool
  mode : Option AutoApproveMode := none
  includeNftApprovals : Option Bool := none

def AutoApproveOptions.modeUsed (o : AutoApproveOptions) : AutoApproveMode := o.mode.getD .exact

/-- The contracts, and which of those that may be missing the manifest lists. -/
structure Manifest where
  furnace : Address
  mineCore : Address
  marketRouter : Address
  claimToken : Address
  veClaimNFT : Address
  listsMarketRouter : Bool := true
  listsClaimToken : Bool := true
  listsVeClaimNFT : Bool := true

def Manifest.addrMarketRouter (m : Manifest) : Option Address :=
  if m.listsMarketRouter then some m.marketRouter else none

def Manifest.addrClaimToken (m : Manifest) : Option Address :=
  if m.listsClaimToken then some m.claimToken else none

def Manifest.addrVe (m : Manifest) : Option Address :=
  if m.listsVeClaimNFT then some m.veClaimNFT else none

/-- A token and a spender. -/
abbrev Pair := String × String

/-- `allowanceKey`, the two parts that it joins. -/
def allowanceKey (token spender : Address) : Pair := (token.toLower, spender.toLower)

def sameAddress (a b : Address) : Bool := a.toLower = b.toLower

/-- What the chain answers, or nothing where a read fails; those of the veNFT come with
the position in the plan. -/
structure Reads where
  allowance : Pair → Option ℕ
  ownerOf : ℕ → ℕ → Option Address
  isApprovedForAll : ℕ → Address → Address → Option Bool
  getApproved : ℕ → ℕ → Option Address

inductive Note
  | skippedPrivateOnly
  | cannotReadAllowance (label : String) (token spender : Address)
  | grantingMax (label : String) (token spender : Address)
  | approve (label : String) (token spender : Address) (min : ℕ) (mode : AutoApproveMode)
  | veMissing (label : String)
  | cannotReadOwner (tokenId : ℕ) (label : String)
  | notOwned (tokenId : ℕ) (label : String)
  | approveVe (tokenId : ℕ) (operator : Address) (label : String)
  | claimTokenMissing (label : String)
  | marketRouterMissing (label : String)

/-- The state of the loop over the plan. -/
structure Planned where
  allowances : Pair → Option ℕ
  veApprovals : List (String × ℕ × String)
  notes : List Note

def Planned.init : Planned := ⟨fun _ ↦ none, [], []⟩

def Planned.note (n : Note) (st : Planned) : Planned := { st with notes := st.notes ++ [n] }

def Planned.allow (k : Pair) (amount : ℕ) (st : Planned) : Planned :=
  { st with allowances := Function.update st.allowances k (some amount) }

def maxUint256 : ℕ := 2 ^ 256 - 1

/-- What the context of the run gives to its parts. -/
structure Context where
  caller : Address
  manifest : Manifest
  reads : Reads
  options : AutoApproveOptions
  privateRpcMode : PrivateRpcMode

variable (c : Context)

def approveAmountFor (mode : AutoApproveMode) (minAllowance : ℕ) : ℕ :=
  match mode with
  | .max => maxUint256
  | .exact => minAllowance

/-- The allowance that the code takes a pair to have. -/
def effective (c : Context) (st : Planned) (k : Pair) : ℕ :=
  (st.allowances k).getD ((c.reads.allowance k).getD 0)

/-- `ensureAllowance`. -/
def ensureAllowance (token spender : Address) (minAllowance : ℕ) (label : String) (st : Planned) :
    Planned × List AgentAction :=
  let k := allowanceKey token spender
  if ∃ planned ∈ st.allowances k, minAllowance ≤ planned then (st, [])
  else
    let st := if c.reads.allowance k = none then st.note (.cannotReadAllowance label token spender)
      else st
    if minAllowance ≤ effective c st k then (st, [])
    else
      let mode := c.options.modeUsed
      let approveAmount := approveAmountFor mode minAllowance
      let st := if mode = .max then st.note (.grantingMax label token spender) else st
      let st := (st.allow k approveAmount).note (.approve label token spender minAllowance mode)
      (st, [.erc20EnsureAllowance token spender minAllowance approveAmount])

/-- `ensureVeApprove`, at a position of the plan. -/
def ensureVeApprove (i tokenId : ℕ) (operator : Address) (label : String) (st : Planned) :
    Planned × List AgentAction :=
  if c.options.includeNftApprovals.getD true = false then (st, [])
  else
    match c.manifest.addrVe with
    | none => (st.note (.veMissing label), [])
    | some ve =>
        let key := (ve.toLower, tokenId, operator.toLower)
        if key ∈ st.veApprovals then (st, [])
        else
          match c.reads.ownerOf i tokenId with
          | none => (st.note (.cannotReadOwner tokenId label), [])
          | some owner =>
              if ¬ sameAddress owner c.caller then (st.note (.notOwned tokenId label), [])
              else
                let seen := { st with veApprovals := key :: st.veApprovals }
                if c.reads.isApprovedForAll i owner operator = some true then (seen, [])
                else if ∃ approved ∈ c.reads.getApproved i tokenId, sameAddress approved operator
                  then (seen, [])
                else (seen.note (.approveVe tokenId operator label), [.veApprove operator tokenId])

/-- The veNFT approval of the three actions that sell or list a lock. -/
def ensureRouterApprove (i tokenId : ℕ) (label : String) (st : Planned) :
    Planned × List AgentAction :=
  match c.manifest.addrMarketRouter with
  | none => (st.note (.marketRouterMissing label), [])
  | some router => ensureVeApprove c i tokenId router label st

/-- The CLAIM approval of the two entries with CLAIM. -/
def ensureClaimToFurnace (claimIn : ℕ) (kind : String) (st : Planned) :
    Planned × List AgentAction :=
  match c.manifest.addrClaimToken with
  | none => (st.note (.claimTokenMissing kind), [])
  | some claim => ensureAllowance c claim c.manifest.furnace claimIn "CLAIM->Furnace" st

/-- What an action adds to the state, and what is inserted before it. -/
def inserts (i : ℕ) (st : Planned) : AgentAction → Planned × List AgentAction
  | .erc20Approve token spender amount => (st.allow (allowanceKey token spender) amount, [])
  | .erc20EnsureAllowance token spender _ approveAmount =>
      let k := allowanceKey token spender
      (st.allow k (max approveAmount ((st.allowances k).getD 0)), [])
  | .veApprove spender tokenId =>
      match c.manifest.addrVe with
      | none => (st, [])
      | some ve =>
          ({ st with
            veApprovals := (ve.toLower, tokenId, spender.toLower) :: st.veApprovals }, [])
  | .furnaceEnterWithClaim claimIn _ _ _ _ =>
      ensureClaimToFurnace c claimIn "furnace.enterWithClaim" st
  | .furnaceEnterWithClaimFromCallerFor _ claimIn _ _ _ _ =>
      ensureClaimToFurnace c claimIn "furnace.enterWithClaimFromCallerFor" st
  | .furnaceEnterWithToken tokenIn amountIn _ _ _ _ =>
      ensureAllowance c tokenIn c.manifest.furnace amountIn "token->Furnace" st
  | .furnaceEnterWithTokenFromCallerFor _ tokenIn amountIn _ _ _ _ =>
      ensureAllowance c tokenIn c.manifest.furnace amountIn "token->Furnace" st
  | .mineCoreTakeoverWithToken tokenIn amountIn _ =>
      ensureAllowance c tokenIn c.manifest.mineCore amountIn "token->MineCore" st
  | .marketRouterCreateBonusTargetEscrowWithTarget _ budgetClaim _ _ _ _ _ =>
      match c.manifest.addrMarketRouter, c.manifest.addrClaimToken with
      | none, _ => (st.note (.marketRouterMissing "offer budget"), [])
      | some _, none => (st.note (.claimTokenMissing "offer budget"), [])
      | some router, some claim =>
          ensureAllowance c claim router budgetClaim "CLAIM->MarketRouter" st
  | .marketRouterListLock tokenId _ _ => ensureRouterApprove c i tokenId "listLock" st
  | .marketRouterSellLockToFurnace tokenId _ _ =>
      ensureRouterApprove c i tokenId "marketRouter.sellLockToFurnace" st
  | .marketRouterSellListedLockToFurnace tokenId _ =>
      ensureRouterApprove c i tokenId "marketRouter.sellListedLockToFurnace" st
  | _ => (st, [])

/-- The loop over the plan, from a position on. -/
def expandActions (i : ℕ) (st : Planned) : List AgentAction → Planned × List AgentAction
  | [] => (st, [])
  | action :: rest =>
      let (st, before) := inserts c i st action
      let (st, after) := expandActions (i + 1) st rest
      (st, before ++ action :: after)

structure ExpandPlanResult where
  plan : AgentPlan
  notes : List Note
  inserted : ℕ

def expandPlanWithAutoApprovals (plan : AgentPlan) : ExpandPlanResult :=
  if ¬ c.options.enabled then ⟨plan, [], 0⟩
  else if c.privateRpcMode = .only then ⟨plan, [.skippedPrivateOnly], 0⟩
  else
    let (st, expanded) := expandActions c 0 .init plan.actions
    if expanded.length = plan.actions.length then ⟨plan, st.notes, 0⟩
    else ⟨{ plan with actions := expanded }, st.notes, expanded.length - plan.actions.length⟩

end ClaimRush.Agents.AutoApprovals
