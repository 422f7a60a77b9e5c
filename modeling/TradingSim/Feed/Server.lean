import Mathlib.Data.Finset.Basic
import TradingSim.Foundations.DictDelta
import TradingSim.Market.Simulator

/-!
# The market feed server

The server sends three kinds of market messages. A snapshot goes to one client when it connects or
subscribes, a sync state answers one client's request, and a broadcast goes to every connected
client once per tick. Broadcasts carry order books as differences to the book of the last broadcast;
a book that was never broadcast is sent in full.

The broadcast loop yields to the client handlers between advancing the market and building its
message, so it takes two steps here.
-/

namespace TradingSim.Feed

open Foundations
open Exchange (OrderBook OrderBookLevel)
open Market

/-- One order book on the wire. -/
structure BookEntry where
  exchange : String
  symbol : String
  bids : List OrderBookLevel
  asks : List OrderBookLevel
  deriving DecidableEq

/-- A changed level: its price and new quantity, zero for a removed one. -/
structure LevelChange where
  p : ℚ
  q : ℚ
  deriving DecidableEq

/-- The changed levels of one order book on the wire. -/
structure DeltaEntry where
  exchange : String
  symbol : String
  bids : List LevelChange
  asks : List LevelChange
  deriving DecidableEq

/-- What a market message is. -/
inductive MessageType where
  | snapshot
  | candles
  | syncState
  deriving DecidableEq

/-- The market part of a message. Absent books and deltas are distinguished from empty ones. -/
structure MarketMessage where
  type : MessageType
  seq : Option ℕ := none
  timestamp : ℤ
  candles : List Candle
  orderbooks : Option (Dict String BookEntry) := none
  orderbookDeltas : Option (Dict String DeltaEntry) := none

/-- A broadcast book as price-to-quantity mappings. -/
structure EncodedBook where
  bids : Dict ℚ ℚ
  asks : Dict ℚ ℚ

/-- The key of a book on the wire. -/
def bookKey (pair : String × String) : String := pair.1 ++ "|" ++ pair.2

/-- A book with its exchange and symbol as wire entry. -/
def bookEntry (read : (String × String) × OrderBook) : BookEntry :=
  { exchange := read.1.1, symbol := read.1.2, bids := read.2.bids, asks := read.2.asks }

/-- The quantity by price; a later level of the same price wins. -/
def levelMap (levels : List OrderBookLevel) : Dict ℚ ℚ :=
  Dict.ofList OrderBookLevel.price OrderBookLevel.quantity levels

/-- Whether two quantities are the same to the encoder. -/
def sameQuantity (old qty : ℚ) : Bool := |old - qty| ≤ 1 / 10 ^ 12

/-- The changes of one side, removals last and with quantity zero. -/
def sideChanges (last current : Dict ℚ ℚ) : List LevelChange :=
  (Dict.changes sameQuantity 0 last current).map fun change => ⟨change.1, change.2⟩

/-- The outcome of comparing a book with the last one broadcast. -/
inductive BookUpdate where
  | full
  | unchanged
  | delta (bids asks : List LevelChange)

/-- Compare a book with the last one broadcast under its key and record it. -/
def computeOrderbookDelta (lastOrderbooks : Dict String EncodedBook) (key : String)
    (bids asks : List OrderBookLevel) : BookUpdate × Dict String EncodedBook :=
  let current : EncodedBook := ⟨levelMap bids, levelMap asks⟩
  match lastOrderbooks.find? key with
  | none => (.full, lastOrderbooks.insert key current)
  | some last =>
    let bidChanges := sideChanges last.bids current.bids
    let askChanges := sideChanges last.asks current.asks
    let update : BookUpdate :=
      if bidChanges = [] ∧ askChanges = [] then .unchanged else .delta bidChanges askChanges
    (update, lastOrderbooks.insert key current)

/-- The books and deltas of one broadcast while they are built. -/
structure FeedUpdate where
  orderbooks : Dict String BookEntry := Dict.empty
  orderbookDeltas : Dict String DeltaEntry := Dict.empty
  lastOrderbooks : Dict String EncodedBook

/-- Add one book that was read to a broadcast. -/
def FeedUpdate.addBook (update : FeedUpdate) (read : (String × String) × OrderBook) : FeedUpdate :=
  let key := bookKey read.1
  let (change, last) := computeOrderbookDelta update.lastOrderbooks key read.2.bids read.2.asks
  match change with
  | .full =>
    { update with
      lastOrderbooks := last
      orderbooks := update.orderbooks.insert key (bookEntry read) }
  | .unchanged => { update with lastOrderbooks := last }
  | .delta bids asks =>
    { update with
      lastOrderbooks := last
      orderbookDeltas := update.orderbookDeltas.insert key
        { exchange := read.1.1, symbol := read.1.2, bids := bids, asks := asks } }

/-- Where the broadcast loop stands: before a tick or between the tick and its message. -/
inductive LoopPhase where
  | waiting
  | ticked
  deriving DecidableEq

/-- The feed's server state. The subscriptions list the connected clients. -/
structure Server (σ : Type) where
  market : MarketSimulator σ
  lastOrderbooks : Dict String EncodedBook := Dict.empty
  sequenceNumber : ℕ := 0
  clientSubscriptions : Dict ℕ (Finset String) := Dict.empty
  nextClient : ℕ := 0
  phase : LoopPhase := .waiting

/-- The `symbols` of a subscription request. -/
inductive SymbolsField where
  | absent
  | listed (symbols : List String)
  | notAList
  deriving DecidableEq

/-- What can happen to the feed between two awaits. Connections are numbered as they arrive. -/
inductive Event where
  | connect
  | disconnect (client : ℕ)
  | snapshot (client : ℕ)
  | subscribe (client : ℕ) (symbols : SymbolsField)
  | unsubscribe (client : ℕ) (symbols : List String)
  | syncState (client : ℕ) (lastTs : ℤ)
  | readBook (pair : String × String)
  | loop
  deriving DecidableEq

/-- A dictionary unless it is empty. -/
def nonEmpty {α : Type} (d : Dict String α) : Option (Dict String α) :=
  if d.entries = [] then none else some d

namespace Server

variable {σ : Type} (L : Library σ) (c : MarketConfig)

/-- The books of all pairs as one read finds them. -/
def readBooks (s : Server σ) : List ((String × String) × OrderBook) × MarketSimulator σ :=
  MarketSimulator.generateOrderBooks L c s.market c.pairs

/-- A snapshot of the market for one client. -/
def sendMarketSnapshot (s : Server σ) : MarketMessage × Server σ :=
  let (books, market) := s.readBooks L c
  ({ type := .snapshot
     timestamp := s.market.currentTs
     candles := s.market.getLatestCandles c
     orderbooks := some (Dict.ofList (fun read => bookKey read.1) bookEntry books) },
    { s with market := market })

/-- The candles after a time, and the books, for one client. -/
def sendSyncState (s : Server σ) (lastTs : ℤ) : MarketMessage × Server σ :=
  let candles := c.pairs.flatMap fun pair =>
    (s.market.getHistory pair 200).filter fun candle => lastTs < candle.timestamp
  let (books, market) := s.readBooks L c
  ({ type := .syncState
     timestamp := s.market.currentTs
     candles := candles
     orderbooks := some (Dict.ofList (fun read => bookKey read.1) bookEntry books) },
    { s with market := market })

/-- The books and deltas of the next broadcast. -/
def buildOrderbookData (s : Server σ) : FeedUpdate :=
  (s.readBooks L c).1.foldl FeedUpdate.addBook { lastOrderbooks := s.lastOrderbooks }

/-- The broadcast without a filter. -/
def buildFullMessage (s : Server σ) (seq : ℕ) (update : FeedUpdate) : MarketMessage :=
  { type := .candles
    seq := some seq
    timestamp := s.market.currentTs
    candles := s.market.getLatestCandles c
    orderbooks := nonEmpty update.orderbooks
    orderbookDeltas := nonEmpty update.orderbookDeltas }

/-- The broadcast restricted to a client's symbols. -/
def buildFilteredMessage (s : Server σ) (seq : ℕ) (update : FeedUpdate) (subs : Finset String) :
    MarketMessage :=
  { type := .candles
    seq := some seq
    timestamp := s.market.currentTs
    candles := (s.market.getLatestCandles c).filter fun candle => candle.symbol ∈ subs
    orderbooks := nonEmpty (update.orderbooks.filter fun _ entry => decide (entry.symbol ∈ subs))
    orderbookDeltas :=
      nonEmpty (update.orderbookDeltas.filter fun _ entry => decide (entry.symbol ∈ subs)) }

/-- The broadcast a client receives: filtered unless its set is empty or every symbol. -/
def messageFor (s : Server σ) (seq : ℕ) (update : FeedUpdate) (subs : Finset String) : MarketMessage :=
  if subs = c.symbols.toFinset ∨ subs = ∅ then s.buildFullMessage c seq update
  else s.buildFilteredMessage c seq update subs

/-- Send the current tick to every client. -/
def broadcastMarketData (s : Server σ) : Server σ × List (ℕ × MarketMessage) :=
  let update := s.buildOrderbookData L c
  let seq := s.sequenceNumber + 1
  ({ s with
     market := (s.readBooks L c).2
     lastOrderbooks := update.lastOrderbooks
     sequenceNumber := seq
     phase := .waiting },
    s.clientSubscriptions.entries.map fun entry => (entry.1, s.messageFor c seq update entry.2))

/-- Advance the market by one tick. -/
def tick (s : Server σ) : Server σ :=
  { s with
    market := ((s.market.generateCandlesInner L c).autoCheckWeekend)
    phase := .ticked }

/-- Run the broadcast loop up to its next await; without clients it does not tick. -/
def broadcastLoop (s : Server σ) : Server σ × List (ℕ × MarketMessage) :=
  match s.phase with
  | .waiting => if s.clientSubscriptions.entries = [] then (s, []) else (s.tick L c, [])
  | .ticked => s.broadcastMarketData L c

/-- Add a client with the default subscription. -/
def connect (s : Server σ) : Server σ :=
  { s with
    clientSubscriptions := s.clientSubscriptions.insert s.nextClient c.symbols.toFinset
    nextClient := s.nextClient + 1 }

/-- Send a snapshot to a client. -/
def snapshotTo (s : Server σ) (client : ℕ) : Server σ × List (ℕ × MarketMessage) :=
  let (message, s) := s.sendMarketSnapshot L c
  (s, [(client, message)])

/-- The subscription set after a request. -/
def subscribed (symbols : SymbolsField) (subs : Finset String) : Finset String :=
  match symbols with
  | .absent => subs
  | .listed [] => subs
  | .listed symbols => symbols.toFinset
  | .notAList => c.symbols.toFinset

/-- Set a connected client's subscription. -/
def setSubscription (s : Server σ) (client : ℕ) (subs : Finset String) : Server σ :=
  { s with clientSubscriptions := s.clientSubscriptions.insert client subs }

/-- One step of the server and the messages it sends. Events of clients that are not
connected do not occur and are ignored. -/
def step (s : Server σ) : Event → Server σ × List (ℕ × MarketMessage)
  | .connect => (s.connect c, [])
  | .disconnect client => ({ s with clientSubscriptions := s.clientSubscriptions.erase client }, [])
  | .snapshot client =>
    match s.clientSubscriptions.find? client with
    | some _ => s.snapshotTo L c client
    | none => (s, [])
  | .subscribe client symbols =>
    match s.clientSubscriptions.find? client with
    | some subs => (s.setSubscription client (subscribed c symbols subs)).snapshotTo L c client
    | none => (s, [])
  | .unsubscribe client symbols =>
    match s.clientSubscriptions.find? client with
    | some subs => (s.setSubscription client (subs \ symbols.toFinset), [])
    | none => (s, [])
  | .syncState client lastTs =>
    match s.clientSubscriptions.find? client with
    | some _ =>
      let (message, s) := s.sendSyncState L c lastTs
      (s, [(client, message)])
    | none => (s, [])
  | .readBook pair => ({ s with market := (s.market.generateOrderBook L c pair).2 }, [])
  | .loop => s.broadcastLoop L c

/-- A server that has just started, with a warmed-up market. -/
def init (rng : σ) : Server σ := { market := MarketSimulator.init L c rng }

end Server

end TradingSim.Feed
