import OverUnder.Backend.Auth
import OverUnder.Backend.CancelRuns
import OverUnder.Backend.Emissions
import OverUnder.Backend.Fees
import OverUnder.Backend.FillRuns
import OverUnder.Backend.InFlight
import OverUnder.Backend.Indexer
import OverUnder.Backend.ListingGates
import OverUnder.Backend.Listings
import OverUnder.Backend.Matcher
import OverUnder.Backend.NonceManager
import OverUnder.Backend.OperatorCreate
import OverUnder.Backend.OrderBook
import OverUnder.Backend.Preflight
import OverUnder.Backend.Ramps
import OverUnder.Backend.RelayNonces
import OverUnder.Backend.Sponsored
import OverUnder.Contracts.ConditionalTokens
import OverUnder.Contracts.ConsensusOracle
import OverUnder.Contracts.EntryPoint
import OverUnder.Contracts.Exchange
import OverUnder.Contracts.FeeVault
import OverUnder.Contracts.MarketAMM
import OverUnder.Contracts.MarketFactory
import OverUnder.Contracts.MockUSDC
import OverUnder.Contracts.NormalMath
import OverUnder.Contracts.Paymaster
import OverUnder.Contracts.RevenueToken
import OverUnder.Library.Backtrack
import OverUnder.Library.Enclosure
import OverUnder.Library.Endings
import OverUnder.Library.Escalation
import OverUnder.Library.FixedWindow
import OverUnder.Library.Floating
import OverUnder.Library.Greedy
import OverUnder.Library.Interaction
import OverUnder.Library.Keyed
import OverUnder.Library.Ledger
import OverUnder.Library.NonceChain
import OverUnder.Library.Occurrences
import OverUnder.Library.Reachable
import OverUnder.Library.Reservations
import OverUnder.Library.Rounding
import OverUnder.Library.Splitting
import OverUnder.Library.Transcripts
import OverUnder.Oracles.Candidates
import OverUnder.Oracles.Chain
import OverUnder.Oracles.Listing
import OverUnder.Oracles.Prompt
import OverUnder.Oracles.Resolve
import OverUnder.Oracles.Schedule
import OverUnder.Oracles.Scores
import OverUnder.Oracles.TickLease
import OverUnder.Oracles.Winner
import OverUnder.Proofs.AuditParity
import OverUnder.Proofs.CancelExposure
import OverUnder.Proofs.CloseTimes
import OverUnder.Proofs.Collateral
import OverUnder.Proofs.ConsensusRelays
import OverUnder.Proofs.CurveBounds
import OverUnder.Proofs.EmissionPayouts
import OverUnder.Proofs.ExchangeFills
import OverUnder.Proofs.FactoryRows
import OverUnder.Proofs.FallbackDecision
import OverUnder.Proofs.FeeBumps
import OverUnder.Proofs.FillAccounts
import OverUnder.Proofs.FullCollateral
import OverUnder.Proofs.InFlightJobs
import OverUnder.Proofs.IndexedHistory
import OverUnder.Proofs.KycThreshold
import OverUnder.Proofs.ListingSessions
import OverUnder.Proofs.ListingStage
import OverUnder.Proofs.MakerReceipts
import OverUnder.Proofs.MarketCreation
import OverUnder.Proofs.MarketFrames
import OverUnder.Proofs.MarketRows
import OverUnder.Proofs.Migration
import OverUnder.Proofs.NearDuplicates
import OverUnder.Proofs.NoWraps
import OverUnder.Proofs.OperatorCreates
import OverUnder.Proofs.OperatorFunds
import OverUnder.Proofs.OracleAgreement
import OverUnder.Proofs.OracleResolution
import OverUnder.Proofs.OracleSteps
import OverUnder.Proofs.OracleVotes
import OverUnder.Proofs.OutcomeTokens
import OverUnder.Proofs.PaymasterFees
import OverUnder.Proofs.PoolCalls
import OverUnder.Proofs.PoolQuotes
import OverUnder.Proofs.PoolRoundTrips
import OverUnder.Proofs.PoolShares
import OverUnder.Proofs.PoolSteps
import OverUnder.Proofs.PreflightMatches
import OverUnder.Proofs.PriceBounds
import OverUnder.Proofs.PriceTime
import OverUnder.Proofs.PromptFences
import OverUnder.Proofs.PublicListings
import OverUnder.Proofs.Redemptions
import OverUnder.Proofs.RelayNonces
import OverUnder.Proofs.ResolvedOutcomes
import OverUnder.Proofs.ScheduleAgreement
import OverUnder.Proofs.ScoutFairness
import OverUnder.Proofs.ShareLedger
import OverUnder.Proofs.SignIns
import OverUnder.Proofs.SingleFlight
import OverUnder.Proofs.Solvency
import OverUnder.Proofs.SponsoredBatches
import OverUnder.Proofs.SponsoredCalls
import OverUnder.Proofs.SupportedSends
import OverUnder.Proofs.Wildcards
import OverUnder.Proofs.Winners
import OverUnder.Scripts.AuditMarkets
import OverUnder.Scripts.DeployV2
import OverUnder.Vyper.Abi
import OverUnder.Vyper.Checked
import OverUnder.Vyper.Ranges
import OverUnder.Vyper.Signatures
