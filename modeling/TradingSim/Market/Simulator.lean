import Mathlib.Data.List.Sort
import Mathlib.Logic.Function.Basic
import Mathlib.Algebra.Order.AbsoluteValue.Basic
import TradingSim.Exchange.Models

/-!
# The market simulator

Geometric Brownian motion moves one base price per symbol; each exchange derives its own
candle from it, and an order book is drawn around the last close. A read of a cached book
scales its prices to the current close and perturbs its quantities in place.

The random generator and the transcendental functions are those of the host language,
collected in `Library`: every book and every candle draws from one generator state.
-/

namespace TradingSim.Market

open Exchange (Numerics OrderBook OrderBookLevel)

/-- One OHLCV candle. -/
structure Candle where
  timestamp : ℤ
  openP : ℚ
  highP : ℚ
  lowP : ℚ
  closeP : ℚ
  volume : ℚ
  symbol : String
  exchange : String
  deriving DecidableEq

/-- The host functions the simulator calls, over a generator state. -/
structure Library (σ : Type) where
  numerics : Numerics
  exp : ℚ → ℚ
  sqrt : ℚ → ℚ
  /-- A draw from `[0, 1)`. -/
  random : σ → ℚ × σ
  /-- A standard normal draw. -/
  gauss : σ → ℚ × σ
  /-- A draw from the natural numbers below a bound. -/
  below : ℕ → σ → ℕ × σ

/-- A draw between two bounds. -/
def Library.uniform {σ : Type} (L : Library σ) (a b : ℚ) (rng : σ) : ℚ × σ :=
  let (u, rng) := L.random rng
  (a + (b - a) * u, rng)

/-- The market's universe and parameters. The validator requires the mappings of symbols and exchanges to be
non-empty; no exchange is named with the separator of `bookKey`. -/
structure MarketConfig where
  symbols : List String
  exchanges : List String
  initialPrices : String → ℚ
  volatility : String → ℚ
  symbolCorr : String → ℚ
  timeframeSeconds : ℕ := 300
  drift : ℚ := 1 / 10000
  warmupCandles : ℕ := 200
  orderBookDepth : ℕ := 20
  symbols_nodup : symbols.Nodup
  exchanges_nodup : exchanges.Nodup
  symbols_ne_nil : symbols ≠ []
  exchanges_ne_nil : exchanges ≠ []
  timeframe_pos : 0 < timeframeSeconds
  separator_free : ∀ exchange ∈ exchanges, '|' ∉ exchange.toList

theorem oneExchange_ne_nil : (["binance"] : List String) ≠ [] := by decide

theorem oneExchange_separator_free : ∀ exchange ∈ ["binance"], '|' ∉ exchange.toList := by decide

/-- A news event and the candles it still lasts. -/
structure NewsEvent where
  symbol : String
  intensity : ℚ
  remaining : ℤ
  direction : ℚ
  deriving DecidableEq

/-- The simulator's state. Maps from exchange and symbol are total, absent keys reading as
the default that the source passes to `get`. -/
structure MarketSimulator (σ : Type) where
  rng : σ
  prices : String → ℚ
  candleHistory : String × String → List Candle := fun _ => []
  exchangeDev : String × String → ℚ := fun _ => 1
  obCache : String × String → Option OrderBook := fun _ => none
  currentTs : ℤ := 1704067200
  candleCount : ℕ := 0
  fundingRates : String → ℚ := fun _ => 0
  newsEvent : Option NewsEvent := none
  lastNewsCandle : ℕ := 0
  weekendMode : Bool := false

/-- Every exchange with every symbol, in the order of the source's nested loops. -/
def MarketConfig.pairs (c : MarketConfig) : List (String × String) := c.exchanges.product c.symbols

/-- The fixed venue premium by position. -/
def MarketConfig.exchangeOffset (c : MarketConfig) (exchange : String) : ℚ :=
  1 + c.exchanges.idxOf exchange * (2 / 10000)

/-- The venue's volatility multiplier by position. -/
def MarketConfig.exchangeVolMult (c : MarketConfig) (exchange : String) : ℚ :=
  1 + ((c.exchanges.idxOf exchange : ℚ) - 1) * (5 / 100)

def newsInterval : ℕ := 200

def fundingInterval : ℕ := 96

def maxCandleHistory : ℕ := 1000

def devKappa : ℚ := 12 / 100

def devSigma : ℚ := 6 / 10000

def weekendVolMult : ℚ := 3 / 10

/-- The slice `xs[-n:]`. -/
def lastN {α : Type*} (n : ℕ) (xs : List α) : List α := if n = 0 then xs else xs.drop (xs.length - n)

namespace MarketSimulator

variable {σ : Type} (L : Library σ) (c : MarketConfig)

/-- Randomly trigger a news event for a symbol. -/
def maybeTriggerNews (m : MarketSimulator σ) : MarketSimulator σ :=
  if newsInterval ≤ m.candleCount - m.lastNewsCandle then
    let (u, rng) := L.random m.rng
    if u < 2 / 100 then
      let (i, rng) := L.below c.symbols.length rng
      let (intensity, rng) := L.uniform 3 8 rng
      let (extra, rng) := L.below 11 rng
      let (way, rng) := L.below 2 rng
      { m with
        rng := rng
        newsEvent := some
          { symbol := c.symbols.getD i ""
            intensity := intensity
            remaining := 5 + extra
            direction := if way = 0 then -1 else 1 }
        lastNewsCandle := m.candleCount }
    else { m with rng := rng }
  else m

/-- Count a running news event down and end it at zero. -/
def ageNews (m : MarketSimulator σ) : MarketSimulator σ :=
  { m with
    newsEvent := m.newsEvent.bind fun news =>
      if news.remaining - 1 ≤ 0 then none else some { news with remaining := news.remaining - 1 } }

/-- Append one exchange's candle of a symbol whose base price moved. -/
def generateExchangeCandle (symbol : String) (basePrice newBasePrice ret : ℚ)
    (m : MarketSimulator σ) (exchange : String) : MarketSimulator σ :=
  let volMult := c.exchangeVolMult exchange
  let (z, rng) := L.gauss m.rng
  let dev := m.exchangeDev (exchange, symbol)
  let dev := dev + devKappa * (1 - dev) + devSigma * z
  let effOffset := c.exchangeOffset exchange * dev
  let openP := basePrice * effOffset
  let closeP := newBasePrice * effOffset
  let (u, rng) := L.random rng
  let wickRange := |closeP - openP| * (1 / 2 + u * (1 / 2)) * volMult
  let (u, rng) := L.random rng
  let highP := max openP closeP + wickRange * u
  let (u, rng) := L.random rng
  let lowP := min openP closeP - wickRange * u
  let (base, rng) := L.uniform 50 2000 rng
  let volume := base * (1 + |ret| * 100) * volMult
  let volume := match m.newsEvent with
    | some news => if news.symbol = symbol then volume * news.intensity else volume
    | none => volume
  let candle : Candle :=
    { timestamp := m.currentTs
      openP := L.numerics.roundPrice openP
      highP := L.numerics.roundPrice highP
      lowP := L.numerics.roundPrice lowP
      closeP := L.numerics.roundPrice closeP
      volume := L.numerics.round volume 2
      symbol := symbol
      exchange := exchange }
  { m with
    rng := rng
    exchangeDev := Function.update m.exchangeDev (exchange, symbol) dev
    candleHistory := Function.update m.candleHistory (exchange, symbol)
      (m.candleHistory (exchange, symbol) ++ [candle]) }

/-- Move a symbol's base price and generate its candle on every exchange. -/
def generateSymbolCandles (zShared sqrtCpy : ℚ) (m : MarketSimulator σ) (symbol : String) :
    MarketSimulator σ :=
  let basePrice := m.prices symbol
  let sigma := c.volatility symbol / sqrtCpy
  let sigma := if m.weekendMode then sigma * weekendVolMult else sigma
  let (zIdio, rng) := L.gauss m.rng
  let corr := c.symbolCorr symbol
  let z := corr * zShared + L.sqrt (1 - corr * corr) * zIdio
  let (newsMult, newsDrift) := match m.newsEvent with
    | some news =>
      if news.symbol = symbol then (news.intensity, news.direction * (2 / 1000)) else (1, 0)
    | none => ((1 : ℚ), (0 : ℚ))
  let ret := c.drift + newsDrift + sigma * newsMult * z
  let newBasePrice := basePrice * L.exp ret
  let m := c.exchanges.foldl (generateExchangeCandle L c symbol basePrice newBasePrice ret)
    { m with rng := rng }
  { m with prices := Function.update m.prices symbol newBasePrice }

/-- Draw a new funding rate for every exchange. -/
def updateFundingRates (m : MarketSimulator σ) : MarketSimulator σ :=
  c.exchanges.foldl (fun m exchange =>
    let (z, rng) := L.gauss m.rng
    { m with
      rng := rng
      fundingRates := Function.update m.fundingRates exchange
        (L.numerics.round (z * (2 / 10000)) 6) }) m

/-- Advance the clock by one timeframe, dropping candles beyond the kept history. -/
def advanceClock (m : MarketSimulator σ) : MarketSimulator σ :=
  { m with
    currentTs := m.currentTs + c.timeframeSeconds
    candleCount := m.candleCount + 1
    candleHistory := fun key =>
      let history := m.candleHistory key
      if maxCandleHistory < history.length then lastN maxCandleHistory history else history }

/-- Generate one candle per symbol per exchange. -/
def generateCandlesInner (m : MarketSimulator σ) : MarketSimulator σ :=
  let m := ageNews (maybeTriggerNews L c m)
  let (zShared, rng) := L.gauss m.rng
  let sqrtCpy := L.sqrt (365 * 24 * 3600 / c.timeframeSeconds)
  let m := c.symbols.foldl (generateSymbolCandles L c zShared sqrtCpy) { m with rng := rng }
  let m := advanceClock c m
  if m.candleCount % fundingInterval = 0 then updateFundingRates L c m else m

/-- Whether a time is on a Saturday or Sunday, counted from Thursday, the first of January 1970. -/
def isWeekend (timestamp : ℤ) : Bool := 5 ≤ (timestamp / 86400 + 3) % 7

/-- Set the weekend mode from the clock. -/
def autoCheckWeekend (m : MarketSimulator σ) : MarketSimulator σ :=
  { m with weekendMode := isWeekend m.currentTs }

/-- A simulator warmed up with candles. -/
def init (rng : σ) : MarketSimulator σ :=
  (generateCandlesInner L c)^[c.warmupCandles] { rng := rng, prices := c.initialPrices }

variable {L c}

/-- The most recent candle of each exchange and symbol that has one. -/
def getLatestCandles (c : MarketConfig) (m : MarketSimulator σ) : List Candle :=
  c.pairs.filterMap fun pair => (m.candleHistory pair).getLast?

/-- The last candles of an exchange and symbol. -/
def getHistory (m : MarketSimulator σ) (pair : String × String) (n : ℕ) : List Candle :=
  let history := m.candleHistory pair
  if n ≤ history.length then lastN n history else history

/-- The last close, zero without a candle. -/
def getPrice (m : MarketSimulator σ) (pair : String × String) : ℚ :=
  match (m.candleHistory pair).getLast? with
  | some candle => candle.closeP
  | none => 0

variable (L c)

/-- Scale paired levels to a new price and perturb their quantities; the rest of a longer
side is left alone. -/
def perturbLevels (ratio : ℚ) :
    List OrderBookLevel → List OrderBookLevel → σ → (List OrderBookLevel × List OrderBookLevel) × σ
  | bid :: bids, ask :: asks, rng =>
    let (u, rng) := L.random rng
    let perturb := 9 / 10 + u * (2 / 10)
    let move := fun level : OrderBookLevel =>
      { price := L.numerics.roundPrice (level.price * ratio)
        quantity := L.numerics.round (level.quantity * perturb) 4 : OrderBookLevel }
    let ((bids, asks), rng) := perturbLevels ratio bids asks rng
    ((move bid :: bids, move ask :: asks), rng)
  | bids, asks, rng => ((bids, asks), rng)

/-- Move a cached book to the current price, unless its own mid price is not positive. -/
def incrementalUpdateOb (m : MarketSimulator σ) (cached : OrderBook) (midPrice : ℚ) :
    Option (OrderBook × σ) :=
  match cached.bids, cached.asks with
  | bid :: _, ask :: _ =>
    let oldMid := (bid.price + ask.price) / 2
    if oldMid ≤ 0 then none
    else
      let ((bids, asks), rng) := perturbLevels L (midPrice / oldMid) cached.bids cached.asks m.rng
      some ({ cached with timestamp := m.currentTs, bids := bids, asks := asks }, rng)
  | _, _ => none

/-- Draw the levels of a book from the inside out. -/
def drawLevels (midPrice halfSpread : ℚ) : ℕ → ℕ → σ → (List OrderBookLevel × List OrderBookLevel) × σ
  | _, 0, rng => (([], []), rng)
  | i, count + 1, rng =>
    let (u, rng) := L.random rng
    let bidPrice := midPrice - halfSpread * (1 + i * (1 + u * (3 / 10)))
    let (u, rng) := L.random rng
    let askPrice := midPrice + halfSpread * (1 + i * (1 + u * (3 / 10)))
    let (baseQty, rng) := L.uniform (1 / 10) 5 rng
    let decay := L.exp (-(i : ℚ) * (15 / 100))
    let (u, rng) := L.random rng
    let bidQty := baseQty * decay * (1 / 2 + u)
    let (u, rng) := L.random rng
    let askQty := baseQty * decay * (1 / 2 + u)
    let ((bids, asks), rng) := drawLevels midPrice halfSpread (i + 1) count rng
    (({ price := L.numerics.roundPrice bidPrice, quantity := L.numerics.round bidQty 4 } :: bids,
      { price := L.numerics.roundPrice askPrice, quantity := L.numerics.round askQty 4 } :: asks),
      rng)

/-- Best bids first. -/
def sortBids (levels : List OrderBookLevel) : List OrderBookLevel :=
  levels.insertionSort fun a b => b.price ≤ a.price

/-- Best asks first. -/
def sortAsks (levels : List OrderBookLevel) : List OrderBookLevel :=
  levels.insertionSort fun a b => a.price ≤ b.price

/-- Draw a full book around a price. -/
def generateFullOb (m : MarketSimulator σ) (pair : String × String) (midPrice : ℚ) : OrderBook × σ :=
  let spreadBps := max 1 (c.volatility pair.2 * 10)
  let halfSpread := midPrice * spreadBps / 10000
  let ((bids, asks), rng) := drawLevels L midPrice halfSpread 0 c.orderBookDepth m.rng
  ({ symbol := pair.2
     exchange := pair.1
     bids := sortBids bids
     asks := sortAsks asks
     timestamp := m.currentTs }, rng)

/-- Read the book of an exchange and symbol, updating the cached one or drawing it anew. -/
def generateOrderBook (m : MarketSimulator σ) (pair : String × String) : OrderBook × MarketSimulator σ :=
  let midPrice := m.getPrice pair
  if midPrice = 0 then ({ symbol := pair.2, exchange := pair.1 }, m)
  else
    let (book, rng) :=
      match (m.obCache pair).bind fun cached => incrementalUpdateOb L m cached midPrice with
      | some updated => updated
      | none => generateFullOb L c m pair midPrice
    (book, { m with rng := rng, obCache := Function.update m.obCache pair (some book) })

/-- Read a list of books one after the other. -/
def generateOrderBooks (m : MarketSimulator σ) :
    List (String × String) → List ((String × String) × OrderBook) × MarketSimulator σ
  | [] => ([], m)
  | pair :: rest =>
    let (book, m) := generateOrderBook L c m pair
    let (books, m) := generateOrderBooks m rest
    ((pair, book) :: books, m)

end MarketSimulator

end TradingSim.Market
