import Mathlib.Algebra.Ring.Nat

/-!
# Protocol constants

The values of `lib/Constants.sol` that the modelled functions read.  Token
amounts are in wei, times in seconds.  They are irreducible so that no proof
unfolds a large literal by accident; the kernel still evaluates them.
-/

namespace ClaimRush.Constants

/-! ## veCLAIM locks -/

@[irreducible] def MAX_LOCK_DURATION : ℕ := 31536000
@[irreducible] def MIN_LOCK_DURATION : ℕ := 604800
@[irreducible] def MIN_LOCK_AMOUNT : ℕ := 1000 * 10 ^ 18
@[irreducible] def MIN_TOPUP_AMOUNT : ℕ := 10 ^ 18
@[irreducible] def MAX_VE_NFTS_PER_USER : ℕ := 32
@[irreducible] def MAX_SLOPE_CHANGES_PER_CALL : ℕ := 250

/-- `VeClaimNFT.SLOPE_SCALE`. -/
@[irreducible] def SLOPE_SCALE : ℕ := 10 ^ 18

/-! ## Shareholder royalties -/

@[irreducible] def SHAREHOLDER_WEIGHT_SCALE : ℕ := 10 ^ 18
@[irreducible] def SHAREHOLDER_ACC : ℕ := 10 ^ 36
@[irreducible] def MIN_VE_FLUSH : ℕ := 100 * 10 ^ 18
@[irreducible] def MAX_REWARD_CHECKPOINTS : ℕ := 50000
@[irreducible] def MAX_OVERFLOW_CHECKPOINTS : ℕ := 50000
@[irreducible] def UINT40_MAX : ℕ := 2 ^ 40 - 1
@[irreducible] def MAX_SHAREHOLDER_COMPOUND_USERS_PER_CALL : ℕ := 50
@[irreducible] def MAX_WATERMARK_RECOMPUTE_CANDIDATES : ℕ := 256
@[irreducible] def MAX_AUTOCOMPOUND_SLIPPAGE_BPS : ℕ := 2000
@[irreducible] def DEFAULT_AUTOCOMPOUND_MAX_SLIPPAGE_BPS : ℕ := 500
@[irreducible] def BPS_DENOM : ℕ := 10000

/-! ## Marketplace -/

@[irreducible] def EMERGENCY_DELIST_MIN_AGE : ℕ := 604800
@[irreducible] def SETTLEMENT_KEEPER_GRACE_SECONDS : ℕ := 1800
@[irreducible] def DEFAULT_MIN_BONUS_TARGET_ESCROW_BUDGET : ℕ := 10000 * 10 ^ 18
@[irreducible] def DEFAULT_MAX_BONUS_TARGET_ESCROW_DISCOUNT_BPS : ℕ := 8000
@[irreducible] def DEFAULT_BONUS_TARGET_ESCROW_TTL_SECONDS : ℕ := 2592000
@[irreducible] def MIN_BONUS_TARGET_ESCROW_TTL_SECONDS : ℕ := 300
@[irreducible] def MAX_BONUS_TARGET_ESCROW_TTL_SECONDS : ℕ := 7776000
def LOCK_DELIST_REASON_NORMAL : ℕ := 0
def LOCK_DELIST_REASON_EMERGENCY : ℕ := 1
def LOCK_DELIST_REASON_SOLD_TO_FURNACE : ℕ := 3
def LOCK_DELIST_REASON_EXPIRED : ℕ := 4

/-- `MarketRouter.MAX_BONUS_TARGET_ESCROW_BUDGET_CAP`. -/
@[irreducible] def MAX_BONUS_TARGET_ESCROW_BUDGET_CAP : ℕ := 1000000 * 10 ^ 18

/-! ## LP staking -/

@[irreducible] def ACC : ℕ := 10 ^ 18
@[irreducible] def UNBONDING_PERIOD : ℕ := 604800
@[irreducible] def MAX_UNBONDS_PER_USER : ℕ := 25
@[irreducible] def MIN_UNBOND_AMOUNT : ℕ := 10 ^ 15
@[irreducible] def HARVEST_MAX_SLIPPAGE_BPS : ℕ := 100
@[irreducible] def CALLER_QUOTE_MIN_FLOOR_PCT : ℕ := 90
@[irreducible] def MAX_LP_COMPOUND_USERS_PER_CALL : ℕ := 50
@[irreducible] def DEFAULT_LP_AUTOCOMPOUND_MAX_SLIPPAGE_BPS : ℕ := 300

/-- `LpStakingVault7D.MIN_COMPOUND_INTERVAL`. -/
@[irreducible] def MIN_COMPOUND_INTERVAL : ℕ := 86400

/-- `LpStakingVault7D.MAX_HARVEST_DEADLINE`. -/
@[irreducible] def MAX_HARVEST_DEADLINE : ℕ := 600

/-- `LpStakingVault7D.MAX_MIN_HARVEST_CLAIM_FLOOR`. -/
@[irreducible] def MAX_MIN_HARVEST_CLAIM_FLOOR : ℕ := 100000 * 10 ^ 18

/-- `LpStakingVault7D.MAX_MIN_COMPOUND_REWARD`. -/
@[irreducible] def MAX_MIN_COMPOUND_REWARD : ℕ := 1000 * 10 ^ 18

/-! ## Furnace bonuses -/

/-- One day, the unit of the Solidity literals `… days`. -/
@[irreducible] def DAY : ℕ := 86400

@[irreducible] def WEIGHT_PRECISION : ℕ := 10 ^ 8
@[irreducible] def WEIGHT_DENOM : ℕ := 10 ^ 12
@[irreducible] def MAX_USER_BONUS_BPS : ℕ := 10000
@[irreducible] def LP_TOPUP_RATE_MIN_BPS : ℕ := 750
@[irreducible] def LP_TOPUP_RATE_MAX_BPS : ℕ := 1500
@[irreducible] def MAX_GROSS_BONUS_BPS : ℕ := 12500
@[irreducible] def LOCK_PCT_TARGET_BPS : ℕ := 700
@[irreducible] def LOCK_PCT_MIN_FOR_BOOST_CAP_BPS : ℕ := 500
@[irreducible] def LOCK_PCT_FULL_BOOST_CAP_BPS : ℕ := 2000
@[irreducible] def RESERVE_FACTOR_MAX_BPS_LOWLOCK : ℕ := 15000
@[irreducible] def RESERVE_FACTOR_MAX_BPS : ℕ := 20000
@[irreducible] def RESERVE_TARGET_FINAL : ℕ := 20000000 * 10 ^ 18
@[irreducible] def SWING_TIME : ℕ := 5184000
@[irreducible] def BONUS_DECAY_WINDOW : ℕ := 10800
@[irreducible] def MAX_AUTOMAX_BONUS_BATCH : ℕ := 200

/-! ## Furnace sales -/

@[irreducible] def SELL_SPREAD_MIN_BPS : ℕ := 500
@[irreducible] def SELL_SPREAD_MAX_BPS : ℕ := 9900
@[irreducible] def SELL_SPREAD_FLOOR_7D_BPS : ℕ := 120
@[irreducible] def SELL_ROUND_TRIP_LOSS_MAX_BPS : ℕ := 9900
@[irreducible] def SELL_IMPACT_BPS_PER_STEP : ℕ := 100
@[irreducible] def SELL_IMPACT_MAX_BPS : ℕ := 1500
@[irreducible] def LP_SALE_MIN_BPS : ℕ := 500
@[irreducible] def LP_SALE_MAX_BPS : ℕ := 1500
@[irreducible] def LP_SALE_REWARD_CAP_INFLOW_SHARE_BPS : ℕ := 2500
@[irreducible] def LP_SALE_REWARD_CAP_FIXED_CAP_PER_DAY : ℕ := 150000 * 10 ^ 18

/-! ## Furnace LP stream -/

@[irreducible] def LP_STREAM_WINDOW : ℕ := 1209600
@[irreducible] def LP_OVERFLOW_DRIP_START : ℕ := 46656000
@[irreducible] def LP_OVERFLOW_DRIP_RAMP : ℕ := 15552000
@[irreducible] def LP_OVERFLOW_DRIP_INFLOW_SHARE_CAP_BPS : ℕ := 1000
@[irreducible] def LP_OVERFLOW_DRIP_FIXED_CAP_PER_DAY : ℕ := 30000 * 10 ^ 18
@[irreducible] def LP_OVERFLOW_DRIP_GATE_K : ℕ := 2000000 * 10 ^ 18

/-- `FurnaceGuardHelper._EMERGENCY_VAULT_REWIRE_DELAY`. -/
@[irreducible] def EMERGENCY_VAULT_REWIRE_DELAY : ℕ := 604800

/-! ## Takeovers -/

@[irreducible] def TAKEOVER_DECAY_PERIOD : ℕ := 3600
@[irreducible] def TAKEOVER_PRICE_FLOOR : ℕ := 10 ^ 15
@[irreducible] def KING_ETH_SHARE_PCT : ℕ := 75
@[irreducible] def KING_ETH_SHARE_DENOM : ℕ := 100
@[irreducible] def KING_LIQUID_SHARE_MAX_BPS : ℕ := 5000
@[irreducible] def KING_FORCE_LOCK_MIN_DURATION : ℕ := 31536000

/-- `MineCore.TAKEOVER_WINDOW_LEN`, equal to `KING_LIQUID_WINDOW`. -/
@[irreducible] def TAKEOVER_WINDOW_LEN : ℕ := 100

/-! ## Emissions -/

@[irreducible] def EMISSION_DECAY_PERIOD : ℕ := 63072000
@[irreducible] def KING_EMISSION_LAUNCH_RATE : ℕ := 50 * 10 ^ 18
@[irreducible] def KING_EMISSION_FLOOR : ℕ := 5555555555555555555
@[irreducible] def FURNACE_EMISSION_LAUNCH_RATE : ℕ := 5 * 10 ^ 18
@[irreducible] def FURNACE_EMISSION_FLOOR : ℕ := 555555555555555555

theorem ACC_pos : 0 < ACC := by
  simp [ACC]

theorem MIN_TOPUP_AMOUNT_pos : 0 < MIN_TOPUP_AMOUNT := by
  simp [MIN_TOPUP_AMOUNT]

theorem MIN_LOCK_AMOUNT_pos : 0 < MIN_LOCK_AMOUNT := by
  simp [MIN_LOCK_AMOUNT]

theorem SHAREHOLDER_ACC_pos : 0 < SHAREHOLDER_ACC := by
  simp [SHAREHOLDER_ACC]

theorem MAX_LOCK_DURATION_pos : 0 < MAX_LOCK_DURATION := by
  simp [MAX_LOCK_DURATION]

theorem MIN_LOCK_DURATION_pos : 0 < MIN_LOCK_DURATION := by
  simp [MIN_LOCK_DURATION]

theorem SLOPE_SCALE_pos : 0 < SLOPE_SCALE := by
  simp [SLOPE_SCALE]

theorem LP_STREAM_WINDOW_pos : 0 < LP_STREAM_WINDOW := by
  simp [LP_STREAM_WINDOW]

theorem BPS_DENOM_pos : 0 < BPS_DENOM := by
  simp [BPS_DENOM]

theorem BPS_DENOM_le_RESERVE_FACTOR_MAX_BPS : BPS_DENOM ≤ RESERVE_FACTOR_MAX_BPS := by
  simp [BPS_DENOM, RESERVE_FACTOR_MAX_BPS]

theorem LOCK_PCT_TARGET_BPS_pos : 0 < LOCK_PCT_TARGET_BPS := by
  simp [LOCK_PCT_TARGET_BPS]

theorem MAX_GROSS_BONUS_BPS_pos : 0 < MAX_GROSS_BONUS_BPS := by
  simp [MAX_GROSS_BONUS_BPS]

/-- Shareholder weights and lock slopes have the same scale. -/
theorem SHAREHOLDER_WEIGHT_SCALE_eq : SHAREHOLDER_WEIGHT_SCALE = SLOPE_SCALE := by
  simp [SHAREHOLDER_WEIGHT_SCALE, SLOPE_SCALE]

end ClaimRush.Constants
