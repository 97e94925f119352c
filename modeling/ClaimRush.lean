import ClaimRush.DelegationHub
import ClaimRush.Furnace.Admin
import ClaimRush.Furnace.BonusCaps
import ClaimRush.Furnace.Extend
import ClaimRush.Furnace.Sale
import ClaimRush.LpStakingVault.Custody
import ClaimRush.LpStakingVault.ProRata
import ClaimRush.LpStakingVault.Preview
import ClaimRush.LpStakingVault.IndexBound
import ClaimRush.MineCore.Admin
import ClaimRush.MineCore.EthConservation
import ClaimRush.MineCore.LiquidWindow
import ClaimRush.MineCore.LockDestinations
import ClaimRush.MineCore.PauseAccounting
import ClaimRush.MineCore.EmissionDrift
import ClaimRush.ShareholderRoyalties.Buckets
import ClaimRush.ShareholderRoyalties.Eviction
import ClaimRush.ShareholderRoyalties.PagedSweep
import ClaimRush.ShareholderRoyalties.Timing
import ClaimRush.ShareholderRoyalties.WatermarkRuns
import ClaimRush.TxManager.Nonces
import ClaimRush.VeClaimNFT.Backlog
import ClaimRush.VeClaimNFT.SlopeHeap
import ClaimRush.VeClaimNFT.Denominator
import ClaimRush.VeClaimNFT.Principal
import ClaimRush.Agents.CursorRuns
import ClaimRush.Keeper.CircuitBreaker
import ClaimRush.Keeper.FailureBounds
import ClaimRush.Keeper.PayoutBound
import ClaimRush.Keeper.Settlement
import ClaimRush.Keeper.SettlementRuns
import ClaimRush.Subgraph.Aggregates
import ClaimRush.Furnace.Rewire
import ClaimRush.Furnace.StreamRuns
import ClaimRush.Furnace.Splitting
import ClaimRush.Furnace.Payers
import ClaimRush.Furnace.Slices
import ClaimRush.Keeper.LogRanges
import ClaimRush.Agents.CacheRuns
import ClaimRush.Agents.ApprovalBalance
import ClaimRush.Keeper.DeferredUsers
import ClaimRush.MarketRouter.IndexMaps
import ClaimRush.Agents.ResolvedAddress
import ClaimRush.MarketRouter.Settlements
import ClaimRush.Furnace.ReserveRuns
import ClaimRush.MarketRouter.FrozenListings
import ClaimRush.Furnace.BatchClaims
import ClaimRush.Furnace.BasisRuns
