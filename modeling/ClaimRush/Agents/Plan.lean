import Mathlib.Data.Nat.Notation

/-!
# Plans of agent actions

The actions an agent may take, under the fields of their kinds, and a plan: a list
of them with the block that it was made for.
-/

namespace ClaimRush.Agents

abbrev Address := String

/-- `AgentAction`; the constructor is the kind. -/
inductive AgentAction
  | furnaceEnterWithEth (ethIn targetTokenId durationSeconds : ℕ) (createAutoMax : Bool)
      (slippageBps : ℕ)
  | furnaceEnterWithEthFor (user : Address) (ethIn targetTokenId durationSeconds : ℕ)
      (createAutoMax : Bool) (slippageBps : ℕ)
  | furnaceEnterWithClaim (claimIn targetTokenId durationSeconds : ℕ) (createAutoMax : Bool)
      (slippageBps : ℕ)
  | furnaceEnterWithClaimFromCallerFor (user : Address)
      (claimIn targetTokenId durationSeconds : ℕ) (createAutoMax : Bool) (slippageBps : ℕ)
  | furnaceEnterWithToken (tokenIn : Address) (amountIn targetTokenId durationSeconds : ℕ)
      (createAutoMax : Bool) (slippageBps : ℕ)
  | furnaceEnterWithTokenFromCallerFor (user tokenIn : Address)
      (amountIn targetTokenId durationSeconds : ℕ) (createAutoMax : Bool) (slippageBps : ℕ)
  | mineCoreTakeover (price : ℕ)
  | mineCoreTakeoverFor (newKing : Address) (price : ℕ)
  | mineCoreTakeoverWithToken (tokenIn : Address) (amountIn slippageBps : ℕ)
  | mineCoreSetCurrentReignRecipients (ethRecipient claimRecipient : Address)
  | mineCoreSetKingAutoLockConfig (enabled : Bool) (targetTokenId durationSeconds : ℕ)
      (createAutoMax : Bool) (minVeOut : ℕ)
  | royaltiesClaimShareholderEth (claimable : ℕ)
  | royaltiesClaimShareholderLock (targetTokenId durationSeconds : ℕ) (createAutoMax : Bool)
      (slippageBps : ℕ)
  | royaltiesSetAutoCompoundConfig (enabled : Bool)
      (tokenId durationSeconds minCadenceSeconds minEthToCompound : ℕ)
  | claimAllHelperClaimShareholderForUser (user : Address)
      (claimable mode targetTokenId durationSeconds : ℕ) (createAutoMax : Bool) (minVeOut : ℕ)
  | claimAllHelperWithdrawKingBalanceForUser (user : Address) (amount : ℕ)
  | claimAllHelperClaimAllFor (user : Address) (claimable mode targetTokenId durationSeconds : ℕ)
      (createAutoMax : Bool) (minVeOut : ℕ)
  | mineCoreWithdrawKingBalance (amount : ℕ)
  | mineCoreWithdrawRefundBalance (amount : ℕ) (dst : Address)
  | marketRouterSellLockToFurnace (tokenId slippageBps deadlineSeconds : ℕ)
  | marketRouterSellListedLockToFurnace (tokenId deadlineSeconds : ℕ)
  | marketRouterListLock (tokenId minClaimOut ttlSeconds : ℕ)
  | marketRouterDelistLock (tokenId : ℕ)
  | marketRouterCancelExpiredListing (tokenId : ℕ)
  | marketRouterCreateBonusTargetEscrowWithTarget (targetBonusBps budgetClaim durationSeconds : ℕ)
      (createAutoMax : Bool) (escrowTtlSeconds destinationLockId slippageBps : ℕ)
  | marketRouterCancelBonusTargetEscrow (offerId : ℕ)
  | marketRouterExtendBonusTargetEscrowExpiry (offerId ttlSecondsFromNow : ℕ)
  | marketRouterCancelExpiredBonusTargetEscrow (offerId : ℕ)
  | marketRouterExecuteAutoFurnace (offerId : ℕ)
  | erc20Approve (token spender : Address) (amount : ℕ)
  | erc20EnsureAllowance (token spender : Address) (minAllowance approveAmount : ℕ)
  | veApprove (spender : Address) (tokenId : ℕ)
  | veSetApprovalForAll (operator : Address) (approved : Bool)
  | furnaceExtendWithBonus (tokenId durationSeconds minBonusOut : ℕ)
  | furnaceExtendWithBonusFor (user : Address) (tokenId durationSeconds minBonusOut : ℕ)
  | furnaceMergeLocksWithBonus (fromTokenId intoTokenId minBonusOut : ℕ)
  | veUnlock (tokenId : ℕ)
  | veSetAutoMax (tokenId : ℕ) (enabled : Bool)
  | veCheckpointGlobalState
  | veCheckpointTotalVe
  | furnaceMergeLocksWithBonusFor (user : Address) (fromTokenId intoTokenId minBonusOut : ℕ)
  | veUnlockExpiredForUser (user : Address) (tokenId : ℕ)
  | mineCoreSetKingAutoLockConfigForUser (user : Address) (enabled : Bool)
      (targetTokenId durationSeconds : ℕ) (createAutoMax : Bool) (minVeOut : ℕ)
  | royaltiesSetAutoCompoundConfigForUser (user : Address) (enabled : Bool)
      (tokenId durationSeconds minCadenceSeconds minEthToCompound : ℕ)
  | lpVaultSetAutoCompoundConfigForUser (user : Address) (enabled : Bool)
      (tokenId durationSeconds : ℕ)

structure AgentPlan where
  chain : String
  chainId : ℕ
  blockNumber : ℕ
  blockTimestamp : ℕ
  agent : Address
  actions : List AgentAction

end ClaimRush.Agents
