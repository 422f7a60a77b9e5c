import TradingSim.Exchange.OcoGroups
import TradingSim.Bot.SignalCache
import TradingSim.Shm.RingFifo
import TradingSim.Shm.Seqlock
import TradingSim.Bot.WirePrices
import TradingSim.Bot.OrderExpiry
import TradingSim.Bot.ClosingMarks
import TradingSim.Bot.ExposureCap
import TradingSim.Gateway.ClientBroadcasts
import TradingSim.Feed.SequenceNumbers
import TradingSim.Gateway.OrderSync
import TradingSim.RawOrders.Messages
import TradingSim.Bot.SignalCopies
import TradingSim.Shm.FillRing
import TradingSim.Exchange.Arbitrage
import TradingSim.Feed.Observers
import TradingSim.Bot.SignalValidator
import TradingSim.Bot.ClosedTrades
import TradingSim.Exchange.Economics
import TradingSim.Exchange.TriggeredPositions
import TradingSim.Bot.Equity
import TradingSim.Feed.SimulatorAdapter
import TradingSim.Gateway.AdapterReplies
import TradingSim.Feed.GapRequests
import TradingSim.Dashboard.FormulaParser
import TradingSim.Dashboard.IndicatorAgreement
import TradingSim.Dashboard.ParabolicSar
import TradingSim.Dashboard.Stochastic
import TradingSim.Dashboard.TrendIndicators
import TradingSim.Dashboard.WebSocketHook
import TradingSim.Exchange.LiquidationLevels
import TradingSim.Exchange.TrailingStops
import TradingSim.Exchange.CountedRuns
import TradingSim.Exchange.OpeningBalance
import TradingSim.Bot.SpscQueue
import TradingSim.Bot.FillAccounting
import TradingSim.Exchange.HonouredInstructions
import TradingSim.Bot.CurrentPrices
import TradingSim.Bot.CompleteFrames
import TradingSim.Bot.OrderThrottle
import TradingSim.Feed.BookLadders
import TradingSim.Bot.GhostPositions
import TradingSim.Bot.LatencyHistogram
import TradingSim.Gateway.RateLimit
import TradingSim.Market.ReplayRange
import TradingSim.Bot.BreakerBlocks
import TradingSim.Market.BookQuantities
import TradingSim.Backtest.ExitPrices
import TradingSim.Backtest.Ledger
import TradingSim.Backtest.RuleLedger
import TradingSim.Backtest.StopRatchet
import TradingSim.Bot.Ensemble
import TradingSim.Bot.MarketQuotes
import TradingSim.Bot.RealAccount
import TradingSim.Bot.MarketDataFeed
import TradingSim.Bot.ConditionalVar
import TradingSim.Bot.KellySizing
import TradingSim.Bot.RiskParityBounds
import TradingSim.Backtest.ParallelSearch
import TradingSim.Bot.ArrayReads
import TradingSim.Bot.WellFormedSignals
