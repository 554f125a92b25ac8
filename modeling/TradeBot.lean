import TradeBot.Lib.KeyedPass
import TradeBot.Lib.BucketMap
import TradeBot.Lib.Runs
import TradeBot.Lib.Histories
import TradeBot.Lib.SlidingWindow
import TradeBot.Lib.Grid
import TradeBot.Lib.Ledger
import TradeBot.Lib.Lots
import TradeBot.Lib.Enrolments
import TradeBot.Lib.SecondaryIndex
import TradeBot.Lib.SortedSlices
import TradeBot.Lib.SortedMap
import TradeBot.Lib.LastWrite
import TradeBot.Lib.RingBuffer
import TradeBot.Lib.SquareRoot
import TradeBot.Lib.Moments
import TradeBot.Lib.PositiveDefinite
import TradeBot.Lib.FirstMaximum
import TradeBot.Lib.BinarySearch
import TradeBot.Lib.WeightedPoints
import TradeBot.Lib.Json
import TradeBot.Lib.Files
import TradeBot.Domain.Types
import TradeBot.Domain.Signals
import TradeBot.Utils.TickerSymbol
import TradeBot.Utils.Numeric
import TradeBot.Utils.TickBoundaries
import TradeBot.Lib.DensityClusters
import TradeBot.Utils.Clustering
import TradeBot.Utils.ClusteredPoints
import TradeBot.Utils.ZigZag
import TradeBot.Utils.Welford
import TradeBot.Utils.TDigest
import TradeBot.Utils.DigestQuantiles
import TradeBot.Utils.Timestamp
import TradeBot.Lib.Calendar
import TradeBot.MarketData.OrderBook
import TradeBot.MarketData.BookLevels
import TradeBot.MarketData.UncrossedBook
import TradeBot.MarketData.RealLevels
import TradeBot.MarketData.BatchUpdates
import TradeBot.MarketData.RangeVolume
import TradeBot.Lib.LockStep
import TradeBot.MarketData.BookConsistency
import TradeBot.MarketData.TradeStream
import TradeBot.MarketData.RollingVolumes
import TradeBot.MarketData.SizeQuantile
import TradeBot.MarketData.KalmanLagEstimator
import TradeBot.MarketData.LeaderTracker
import TradeBot.MarketData.LagShifts
import TradeBot.Universe.TickerUniverse
import TradeBot.Universe.Affinity
import TradeBot.Lib.Switches
import TradeBot.Lib.FlagReplay
import TradeBot.Lib.ReportingPass
import TradeBot.Lib.TopSelection
import TradeBot.Lib.Wildcards
import TradeBot.Universe.UniverseFilters
import TradeBot.Universe.TickerPool
import TradeBot.Universe.AffinityNotifications
import TradeBot.Universe.PoolMembership
import TradeBot.Universe.BoostEvents
import TradeBot.Universe.PoolSelection
import TradeBot.App.LiveControllers
import TradeBot.Signals.SignalBus
import TradeBot.Signals.DeliveredSignals
import TradeBot.Signals.DensityDetector
import TradeBot.Signals.DensityStacks
import TradeBot.Utils.CircularBuffer
import TradeBot.Utils.BoundedQueue
import TradeBot.Lib.Numbered
import TradeBot.Signals.IcebergDetector
import TradeBot.Signals.IcebergVolume
import TradeBot.Signals.TapeAnalyzer
import TradeBot.Signals.TapeBursts
import TradeBot.Lib.BackwardSearch
import TradeBot.Signals.LevelDetector
import TradeBot.Signals.RecordedExtremes
import TradeBot.Signals.LevelStories
import TradeBot.Signals.LevelAges
import TradeBot.Signals.ApproachOutcomes
import TradeBot.Signals.DensityWatch
import TradeBot.Signals.DetectedDensities
import TradeBot.Signals.DensityEating
import TradeBot.Signals.SignalLevelBridge
import TradeBot.Signals.LevelExchange
import TradeBot.Signals.MirroredLevels
import TradeBot.Signals.ServerLevels
import TradeBot.Risk.NewsCalendar
import TradeBot.Risk.RiskManager
import TradeBot.Risk.Evaluation
import TradeBot.Risk.AcceptedSizes
import TradeBot.Risk.RiskBounds
import TradeBot.Risk.RateLimit
import TradeBot.Risk.LossBreaker
import TradeBot.Risk.FreshBreaker
import TradeBot.Risk.Blackouts
import TradeBot.Risk.UniverseGate
import TradeBot.Trading.OrderReconciliator
import TradeBot.Trading.SingleIntent
import TradeBot.Trading.IntentOutcomes
import TradeBot.Trading.DistinctOrders
import TradeBot.Executor.Trace
import TradeBot.Executor.TradeActions
import TradeBot.Executor.OrderUpdates
import TradeBot.Executor.Effects
import TradeBot.Executor.UpdateEffects
import TradeBot.Executor.LiveExecutor
import TradeBot.Executor.Lifecycle
import TradeBot.Executor.Simulation
import TradeBot.Executor.Invariants
import TradeBot.Executor.Outcomes
import TradeBot.Executor.Snapshot
import TradeBot.Executor.LiveStops
import TradeBot.Executor.SingleStop
import TradeBot.Executor.FullClose
import TradeBot.Executor.EmergencyClosing
import TradeBot.Executor.ExitAccounting
import TradeBot.Executor.Remainder
import TradeBot.Executor.StopCover
import TradeBot.Executor.SubmitRace
import TradeBot.Executor.OpenTrades
import TradeBot.Executor.Books
import TradeBot.Executor.UnknownSubmits
import TradeBot.Executor.ReconciledTrades
import TradeBot.Executor.Reservations
import TradeBot.Executor.QuietSteps
import TradeBot.Executor.EntryReports
import TradeBot.Executor.Releases
import TradeBot.Executor.KnownIds
import TradeBot.Executor.CumulativeFills
import TradeBot.Executor.StartupRecovery
import TradeBot.Executor.RecoveredStops
import TradeBot.Executor.AutoAck
import TradeBot.Risk.AccountStatePersister
import TradeBot.Risk.StateFile
import TradeBot.Risk.StateRecovery
import TradeBot.Executor.RestartedTrades
import TradeBot.Executor.PaperExecutor
import TradeBot.Executor.PaperConservation
import TradeBot.Executor.PaperPrices
import TradeBot.Transport.MetaScalpCodec
import TradeBot.Transport.MarketDataFeed
import TradeBot.Transport.ListenerCalls
import TradeBot.Transport.ReplayFeed
import TradeBot.Transport.ReplayedCalls
import TradeBot.Transport.SurvivingReplay
import TradeBot.Transport.BeastWsClient
import TradeBot.Transport.WrittenMessages
import TradeBot.Transport.ComingMessages
import TradeBot.Transport.Subscriptions
import TradeBot.Transport.SubscribedTickers
import TradeBot.Strategy.StrategyContext
import TradeBot.Strategy.SignalHistory
import TradeBot.Signals.LeaderSignal
import TradeBot.Strategy.FlushReversal
import TradeBot.Strategy.BounceFromDensity
import TradeBot.Strategy.BreakoutEatThrough
import TradeBot.Strategy.BreakoutGate
import TradeBot.Strategy.FlushGate
import TradeBot.Strategy.LeaderLag
import TradeBot.Strategy.StrategyEngine
import TradeBot.Strategy.EngineSteps
import TradeBot.Strategy.Strategies
import TradeBot.Strategy.RegimeGate
import TradeBot.Strategy.Registration
import TradeBot.Strategy.PlanSelection
import TradeBot.Strategy.PostEntryEvidence
import TradeBot.Strategy.Monitoring
import TradeBot.Strategy.PlanPrices
import TradeBot.Features.FeatureExtractor
import TradeBot.Features.WindowReference
import TradeBot.App.OnDemand
import TradeBot.App.PipelineProcessor
import TradeBot.App.TwoPaths
import TradeBot.Control.TickerController
import TradeBot.Strategy.MoveUnits
import TradeBot.App.TriggerFrames
import TradeBot.App.StrategyLifecycle
import TradeBot.App.HandOver
import TradeBot.App.KillSwitch
import TradeBot.App.BotApp
import TradeBot.App.PlanGate
import TradeBot.App.TickRounding
import TradeBot.App.PositionLimits
import TradeBot.App.Accounting
import TradeBot.App.FundingAnnouncements
import TradeBot.Lib.ForwardAlgorithm
import TradeBot.Lib.Cusum
import TradeBot.Signals.TapeFades
import TradeBot.Signals.ApproachAnalyzer
import TradeBot.Lib.Lanes
import TradeBot.Signals.LevelScores
import TradeBot.Control.DashboardSession
import TradeBot.Control.Conflation
import TradeBot.Control.ClockDriftMonitor
import TradeBot.Logger.TradeJournal
