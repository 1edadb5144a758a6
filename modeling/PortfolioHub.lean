import PortfolioHub.Transition
import PortfolioHub.Decimal
import PortfolioHub.Sha1
import PortfolioHub.Symbols
import PortfolioHub.Published
import PortfolioHub.StreamUpdates
import PortfolioHub.FillsReconcile
import PortfolioHub.FutuRows
import PortfolioHub.IbkrTicks
import PortfolioHub.IbkrPortfolio
import PortfolioHub.EquitySnapshot
import PortfolioHub.IndexRoute
import PortfolioHub.DisplayCoverage
import PortfolioHub.IbkrAgreementRun
import PortfolioHub.SymbolForms
import PortfolioHub.LiveRows
import PortfolioHub.IbkrAdapter
import PortfolioHub.IbkrFeedSteps
import PortfolioHub.IbkrTickHandlers
import PortfolioHub.IbkrStale
import PortfolioHub.BrokerFrame
import PortfolioHub.RowCoherence
import PortfolioHub.IbkrCoherence
import PortfolioHub.CoherentRows
import PortfolioHub.FeedRows
import PortfolioHub.PolledRows
import PortfolioHub.PolledFetch
import PortfolioHub.PollRefresh
import PortfolioHub.FxWrites
import PortfolioHub.FxFeed
import PortfolioHub.SessionCalendar
import PortfolioHub.SnapshotLoop
import PortfolioHub.SnapshotCoverage
import PortfolioHub.EquityHistory
import PortfolioHub.FillCapture
import PortfolioHub.FillsCounted
import PortfolioHub.FirstWrite
import PortfolioHub.FillsIsolation
import PortfolioHub.FxCache
import PortfolioHub.FxFreshness
import PortfolioHub.WriteBehind
import PortfolioHub.FxRestart
import PortfolioHub.FxSubscriptions
import PortfolioHub.FxSoundness
import PortfolioHub.IbkrLifecycle
import PortfolioHub.IbkrReconnect
import PortfolioHub.IbkrDisconnect
import PortfolioHub.IbkrSessions
import PortfolioHub.MaximalRun
import PortfolioHub.IbkrRetry
import PortfolioHub.PollingLifecycle
import PortfolioHub.PollingWorkers
import PortfolioHub.PollingSteps
import PortfolioHub.PollingTasks
import PortfolioHub.PollingFetches
import PortfolioHub.FxCoverage
import PortfolioHub.FxOverlap
import PortfolioHub.FutuRefresh
import PortfolioHub.FutuIdle
import PortfolioHub.TickAgreement
import PortfolioHub.ClosePrices
import PortfolioHub.ReseedCoverage
import PortfolioHub.TigerQuotes
import PortfolioHub.FiniteNumbers
import PortfolioHub.FinitePayloads
import PortfolioHub.FillNames
import PortfolioHub.ConnectionMonitor
import PortfolioHub.ConnectionOutages
import PortfolioHub.ConnectionAttention
import PortfolioHub.ConnectionDelivery
import PortfolioHub.TimeZone
import PortfolioHub.MarketCalendar
import PortfolioHub.MarketStates
import PortfolioHub.MarketCountdown
import PortfolioHub.NextClose
import PortfolioHub.TotalSigns
import PortfolioHub.Timestamps
import PortfolioHub.Grouping
import PortfolioHub.StoredHistory
import PortfolioHub.ReconcileSchedule
import PortfolioHub.PageStream
import PortfolioHub.CompositeFailures
import PortfolioHub.WindowQuery
import PortfolioHub.StoredFills
import PortfolioHub.IbkrCash
import PortfolioHub.StreamPacing
import PortfolioHub.PreviousCloseCalls
import PortfolioHub.UrlQuoting
import PortfolioHub.UrlQuery
import PortfolioHub.LinkText
import PortfolioHub.FilterLinks
import PortfolioHub.CivilDates
import PortfolioHub.Closures
import PortfolioHub.NameLookups
import PortfolioHub.JsNumbers
import PortfolioHub.ClientTable
import PortfolioHub.Tally
import PortfolioHub.ClientAllocation
import PortfolioHub.IbkrBackoff
import PortfolioHub.FormEncoding
import PortfolioHub.Sparkline
import PortfolioHub.ShellWords
import PortfolioHub.GatewayRestart
import PortfolioHub.SharedConnection
import PortfolioHub.StoreDurability
import PortfolioHub.HealthBadge
import PortfolioHub.BoundedGather
import PortfolioHub.PreviousCloseSources
