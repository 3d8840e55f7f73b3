import Blive.Misc.Transition
import Blive.Misc.Dict
import Blive.Misc.DictTotal
import Blive.Misc.Py
import Blive.Misc.AverageCost
import Blive.Misc.TokenBucket
import Blive.Misc.Numeral
import Blive.Misc.Semaphore
import Blive.Misc.Json
import Blive.Misc.Lines
import Blive.Misc.JsonText
import Blive.Misc.JsonCanonical
import Blive.Misc.Handler
import Blive.Misc.Machine
import Blive.Misc.Series
import Blive.Misc.Scan
import Blive.Misc.Binary64
import Blive.Misc.FloatDigits
import Blive.Misc.Timeline
import Blive.Misc.DecimalContext
import Blive.Misc.DecimalValue
import Blive.Misc.Coroutine
import Blive.Misc.Tasks
import Blive.Misc.Permits
import Blive.Domain.Types
import Blive.Domain.Events
import Blive.Domain.WireTypes
import Blive.Domain.Proofs.WireTypes
import Blive.Domain.OrderFsm
import Blive.Domain.Positions
import Blive.Domain.Proofs.PositionHistory
import Blive.Domain.Proofs.PositionSplit
import Blive.Strategy.Config
import Blive.Strategy.Loader
import Blive.Strategy.Proofs.Loader
import Blive.Sizing.Sizer
import Blive.Sizing.Proofs.CapitalCap
import Blive.Sizing.Proofs.Precision
import Blive.Sizing.Proofs.Convergence
import Blive.Sizing.Proofs.Exit
import Blive.Risk.Checks
import Blive.Risk.Proofs.Verdict
import Blive.Adapters.Memory.Bus
import Blive.Adapters.Memory.Proofs.Bus
import Blive.Adapters.Paper.Broker
import Blive.Adapters.Paper.MarketData
import Blive.Adapters.Paper.Proofs.LatestBar
import Blive.Adapters.Paper.Proofs.HistoryWindow
import Blive.Adapters.Paper.Proofs.Step
import Blive.Adapters.Paper.Proofs.Resubmit
import Blive.Adapters.Paper.Proofs.Trace
import Blive.Adapters.Paper.Proofs.Conservation
import Blive.Adapters.Paper.Proofs.Replace
import Blive.Adapters.Shared.PriceGrid
import Blive.Adapters.Shared.RateLimiter
import Blive.Adapters.Shared.Proofs.PacedCalls
import Blive.Adapters.Shared.Proofs.PriceGrid
import Blive.Adapters.Shared.Proofs.BandSelection
import Blive.Adapters.Shared.Proofs.SnapDistance
import Blive.Adapters.Shared.Proofs.SnapPrice
import Blive.Adapters.Shared.Proofs.RateLimiter
import Blive.Adapters.Shared.Proofs.WindowCap
import Blive.Adapters.Shared.Proofs.Observation
import Blive.Adapters.Shared.Proofs.Acquire
import Blive.Adapters.Shared.LimitedTasks
import Blive.Adapters.Shared.Proofs.LimitedTasks
import Blive.Adapters.Eodhd.Conventions
import Blive.Adapters.Ib.RateLimiter
import Blive.Adapters.Ib.InstrumentResolver
import Blive.Adapters.Ib.Broker
import Blive.Adapters.Ib.Proofs.Step
import Blive.Adapters.Ib.Proofs.WirePrices
import Blive.Adapters.Ib.Proofs.Pacing
import Blive.Adapters.Ib.Proofs.Placement
import Blive.Adapters.Ib.Proofs.Trace
import Blive.Adapters.Ib.Proofs.Executions
import Blive.Adapters.Ib.Proofs.ErrorCodes
import Blive.Adapters.Ib.Proofs.AtomicFill
import Blive.Adapters.Ib.Proofs.ErrorStash
import Blive.Adapters.Ib.Account
import Blive.Adapters.Ib.Proofs.BaseCurrency
import Blive.Adapters.Ib.Proofs.AccountSnapshot
import Blive.Adapters.Ib.Proofs.AccountComparison
import Blive.Adapters.Ib.Proofs.AccountUpdates
import Blive.Adapters.Ib.Proofs.Origin
import Blive.Adapters.Ib.Positions
import Blive.Adapters.Ib.Proofs.PoisonedPositions
import Blive.Adapters.Ib.MarketData
import Blive.Adapters.Ib.Proofs.DurationCoverage
import Blive.Adapters.Ib.Connection
import Blive.Adapters.Ib.Proofs.ConnectionRaces
import Blive.Adapters.Ib.PriceRules
import Blive.Adapters.Ib.Proofs.RuleSourcing
import Blive.Adapters.Ib.CachedServices
import Blive.Adapters.Ib.Proofs.CachedServices
import Blive.Adapters.Ib.Proofs.PaidRequests
import Blive.Adapters.Ib.OpenOrders
import Blive.Adapters.Ib.Proofs.OrderRoundTrip
import Blive.Adapters.Ib.Proofs.ReadBack
import Blive.Adapters.Ib.Proofs.FailedSubmit
import Blive.Adapters.Ig.Client
import Blive.Adapters.Ig.Proofs.ClientStep
import Blive.Adapters.Ig.Proofs.SessionRecovery
import Blive.Adapters.Ig.Proofs.ConcurrentRecovery
import Blive.Adapters.Ig.Payload
import Blive.Adapters.Ig.Broker
import Blive.Adapters.Ig.MarketData
import Blive.Adapters.Ig.Proofs.MergeMode
import Blive.Adapters.Ig.Proofs.SubscriptionBudget
import Blive.Adapters.Ig.Proofs.PoisonedEntries
import Blive.Adapters.Ig.Proofs.Submission
import Blive.Adapters.Ig.Proofs.OrderIdentity
import Blive.Adapters.Ig.Proofs.UtcTimestamps
import Blive.Adapters.Shared.Credentials
import Blive.Adapters.Shared.Proofs.SecretsFile
import Blive.Adapters.Ig.InstrumentResolver
import Blive.Adapters.Ig.Proofs.ResolvedEpic
import Blive.Adapters.Ig.ResolverTasks
import Blive.Adapters.Ig.Proofs.ResolverTasks
import Blive.Adapters.Shared.Proofs.EntryIsolation
import Blive.Runtime.IbPipeline
import Blive.Runtime.SingleLeg
import Blive.Runtime.Proofs.Step
import Blive.Runtime.Proofs.Coherence
import Blive.Runtime.Proofs.KillSwitch
import Blive.Runtime.Proofs.RiskGate
import Blive.Runtime.Proofs.Ledger
import Blive.Runtime.Proofs.SingleLeg
import Blive.Runtime.Course
import Blive.Runtime.Proofs.Course
import Blive.Runtime.Proofs.Agreement
import Blive.Runtime.PaperPipeline
import Blive.Runtime.Proofs.PaperPipeline
import Blive.Runtime.Proofs.Simulation
import Blive.Runtime.Proofs.ProfitAndLoss
import Blive.Runtime.Proofs.Tracking
import Blive.Runtime.Proofs.DrainAgreement
import Blive.Runtime.Signals
import Blive.Runtime.Proofs.Eligibility
import Blive.Runtime.Proofs.SignalCausality
import Blive.Runtime.M32Record
import Blive.Runtime.RunLog
import Blive.Runtime.Proofs.RunLog
import Blive.Runtime.Proofs.Settlement
import Blive.Runtime.Proofs.RunAccounting
import Blive.Runtime.Proofs.CourseAgreement
import Blive.Runtime.Proofs.NoLookAhead
import Blive.Runtime.Proofs.EngineCancel
import Blive.Runtime.Proofs.IbAccounts
