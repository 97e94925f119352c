import ClaimRush.Lib.Outcome

/-!
# Custom errors

The errors raised by the modelled contracts, under the names of `lib/Errors.sol`.
`Panic` is the checked-arithmetic panic, `SafeCastOverflow` a failed width
conversion, `ExternalCallFailed` a revert of another contract that the caller
does not catch, `NonPayable` the revert of a function that takes no ETH, and the
`ERC20…`/`ERC721…` errors come from the token base contracts.
-/

namespace ClaimRush

inductive Error
  | NotAuthorized
  | InvariantViolation
  | OnlyMineCore
  | OnlyMineMarket
  | MarketMustTransferToFurnace
  | TransfersRestricted
  | OnlyShareholderRoyalties
  | OnlyClaimAllHelper
  | ZeroAddress
  | ShareholderRoyaltiesNotSet
  | ConfigFrozen
  | InvalidDuration
  | LockExpired
  | LockListedOrFrozen
  | AmountZero
  | AmountTooLarge
  | EthTransferFailed
  | InvalidMode
  | AutoCompoundNotEnabled
  | AutoCompoundPaused
  | CadenceNotMet
  | CompoundQuoteFailed
  | SlippageTooHigh
  | PendingEthNotDrained
  | TooManyVeNFTs
  | InvalidToken
  | NotAContract
  | DelegatedEOA
  | WiringMismatch
  | MinLockAmountNotMet
  | CheckpointStale
  | AmountTooSmall
  | InsufficientStake
  | TooManyUnbonds
  | MinVeOutRequired
  | AutoMaxMismatch
  | NotRewardNotifier
  | RewardIndexOverflow
  | LockCooldown
  | NoFeesToHarvest
  | DeadlineTooFar
  | MinClaimOutRequired
  | MinClaimFloorNotMet
  | HarvestQuoteFailed
  | CallerQuoteDivergence
  | LockingPaused
  | RouterConfigNotSet
  | MinVeOutNotMet
  | LpRewardsStreamActive
  | QuoteCallFailed
  | EthValueMismatch
  | TransferFailed
  | OnlyGuardian
  | LpRewardsVaultFurnaceMismatch
  | EmergencyRewireAlreadyRequested
  | EmergencyRewireNotRequested
  | EmergencyRewireDelayNotMet
  | DeadlineExpired
  | NonPayable
  | TakeoversPaused
  | PriceExceeded
  | GenesisKingClaimNotCollected
  | GenesisKingClaimAlreadyCollected
  | GenesisWindowNotEnded
  | GenesisGuardianLocked
  | InsufficientEthBalance
  | VeCheckpointStale
  | LockRouteUnavailable
  | MinEthOutNotMet
  | InvalidPool
  | ExternalCallFailed
  | Panic
  | SafeCastOverflow
  | ERC20InvalidSender
  | ERC20InvalidReceiver
  | ERC20InsufficientBalance
  | ERC20InsufficientAllowance
  | ERC721NonexistentToken
  | ERC721InvalidReceiver
  | ERC721InvalidSender
  | ERC721IncorrectOwner
  | OwnableUnauthorizedAccount
  | OwnableInvalidOwner
  | DelegatedEOAOwner
  | TradingPaused
  | InvalidListingExpiry
  | ListingCooldown
  | ListingNotActive
  | ListingNotExpired
  | ListingExpired
  | SettlementKeeperGracePeriod
  | EmergencyDelistTooSoon
  | BudgetTooSmall
  | BudgetTooHigh
  | DiscountTooHigh
  | DecreaseNotAllowed
  | InvalidOfferTtl
  | InvalidOfferExpiry
  | OfferNotActive
  | OfferNotExpired
  | OfferExpired
  | OfferInsufficientFunds
  | BonusTargetNotConfigured
  | BonusTargetNotMet
  deriving DecidableEq, Repr

instance : HasPanic Error := ⟨.Panic⟩

@[simp] theorem hasPanic_arithmetic : (HasPanic.arithmetic : Error) = .Panic := rfl

/-- The result of an external call whose revert is not caught. -/
def externalCall {α : Type} : Option α → Except Error α
  | some a => .ok a
  | none => .error .ExternalCallFailed

@[simp] theorem outcome_externalCall {α : Type} {Q : α → Prop} {E : Error → Prop}
    (x : Option α) :
    Outcome Q E (externalCall x) ↔
      (∀ a, x = some a → Q a) ∧ (x = none → E .ExternalCallFailed) := by
  cases x <;> simp [externalCall]

theorem externalCall_eq_ok {α : Type} {x : Option α} {a : α} :
    externalCall x = .ok a ↔ x = some a := by
  cases x <;> simp [externalCall]

/-- `SafeCast.toInt256`. -/
def toInt256 (n : ℕ) : Except Error ℤ :=
  if n < int256Bound then .ok n else .error .SafeCastOverflow

@[simp] theorem outcome_toInt256 {Q : ℤ → Prop} {E : Error → Prop} (n : ℕ) :
    Outcome Q E (toInt256 n) ↔
      (n < int256Bound → Q n) ∧ (¬ n < int256Bound → E .SafeCastOverflow) := by
  by_cases h : n < int256Bound <;> simp [toInt256, h]

theorem Outcome.toInt256_bind {β : Type} {R : β → Prop} {E : Error → Prop} {n : ℕ}
    {f : ℤ → Except Error β} (hE : E .SafeCastOverflow)
    (h : n < int256Bound → Outcome R E (f n)) : Outcome R E (toInt256 n >>= f) := by
  rw [Outcome.bind_iff, outcome_toInt256]
  exact ⟨h, fun _ ↦ hE⟩

end ClaimRush
