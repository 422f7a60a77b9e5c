import TradingSim.Feed.Server

/-!
# Feed clients

The web dashboard and the trading bot decode the same messages. The dashboard replaces its whole
table of books by the books of a message and sorts a side after applying its changes; the bot
overwrites book by book and moves a new level into place.

A session is the server together with one of its clients, which receives the messages addressed to
it in order.
-/

namespace TradingSim.Feed

open Foundations
open Exchange (OrderBook OrderBookLevel)
open Market

/-- Which client decodes the feed. -/
inductive Decoder where
  | dashboard
  | bot
  deriving DecidableEq

/-- Which side of a book a list of levels is. -/
inductive BookSide where
  | bids
  | asks
  deriving DecidableEq

/-- Whether a level belongs strictly before another one on its side. -/
def BookSide.before (side : BookSide) (a b : OrderBookLevel) : Bool :=
  match side with
  | .bids => b.price < a.price
  | .asks => a.price < b.price

/-- A side in its order, levels of one price as they were. -/
def BookSide.sort : BookSide → List OrderBookLevel → List OrderBookLevel
  | .bids => MarketSimulator.sortBids
  | .asks => MarketSimulator.sortAsks

/-- Move a new level from the end past the levels it belongs before. The list is reversed. -/
def bubbleUp (side : BookSide) (level : OrderBookLevel) : List OrderBookLevel → List OrderBookLevel
  | [] => [level]
  | last :: rest =>
    if side.before level last then last :: bubbleUp side level rest else level :: last :: rest

/-- Add a new level where it belongs, coming from the end. -/
def pushBubbled (side : BookSide) (levels : List OrderBookLevel) (level : OrderBookLevel) :
    List OrderBookLevel :=
  (bubbleUp side level levels.reverse).reverse

/-- Apply one changed level: set or add a positive quantity, otherwise remove the level. -/
def applyChange (add : List OrderBookLevel → OrderBookLevel → List OrderBookLevel)
    (levels : List OrderBookLevel) (change : LevelChange) : List OrderBookLevel :=
  if 0 < change.q then KeyedList.put OrderBookLevel.price add levels ⟨change.p, change.q⟩
  else KeyedList.remove OrderBookLevel.price levels change.p

/-- The dashboard's `applyDeltas`. -/
def applyDeltas (side : BookSide) (levels : List OrderBookLevel) (changes : List LevelChange) :
    List OrderBookLevel :=
  side.sort (changes.foldl (applyChange fun levels level => levels ++ [level]) levels)

/-- The bot's `apply_level_deltas`. -/
def applyLevelDeltas (side : BookSide) (levels : List OrderBookLevel) (changes : List LevelChange) :
    List OrderBookLevel :=
  changes.foldl (applyChange (pushBubbled side)) levels

def Decoder.applySide : Decoder → BookSide → List OrderBookLevel → List LevelChange → List OrderBookLevel
  | .dashboard => applyDeltas
  | .bot => applyLevelDeltas

/-- Apply the changes of both sides of a book. -/
def Decoder.applyEntry (d : Decoder) (book : BookEntry) (delta : DeltaEntry) : BookEntry :=
  { book with
    bids := d.applySide .bids book.bids delta.bids
    asks := d.applySide .asks book.asks delta.asks }

/-- A client's order books and the largest message time it has processed. -/
structure ClientState where
  orderbooks : Dict String BookEntry := Dict.empty
  lastTimestamp : ℤ := 0

/-- Where a decoder files a wire entry: the dashboard under the message's key, the bot under
the entry's own exchange and symbol. -/
def Decoder.fileUnder (d : Decoder) (key exchange symbol : String) : String :=
  match d with
  | .dashboard => key
  | .bot => bookKey (exchange, symbol)

/-- Take over the full books of a message. -/
def Decoder.updateOrderbooks (d : Decoder) (held books : Dict String BookEntry) : Dict String BookEntry :=
  match d with
  | .dashboard => books
  | .bot =>
    books.entries.foldl (fun held e =>
      held.insert (d.fileUnder e.1 e.2.exchange e.2.symbol) e.2) held

/-- Apply the changes of one book, if it is held. -/
def Decoder.updateOrderbookDelta (d : Decoder) (held : Dict String BookEntry)
    (delta : String × DeltaEntry) : Dict String BookEntry :=
  let key := d.fileUnder delta.1 delta.2.exchange delta.2.symbol
  match held.find? key with
  | some book => held.insert key (d.applyEntry book delta.2)
  | none => held

def Decoder.processMessage (d : Decoder) (client : ClientState) (message : MarketMessage) : ClientState :=
  let books := match message.orderbooks with
    | some books => d.updateOrderbooks client.orderbooks books
    | none => client.orderbooks
  { orderbooks := match message.orderbookDeltas with
      | some deltas => deltas.entries.foldl d.updateOrderbookDelta books
      | none => books
    lastTimestamp :=
      if message.timestamp ≠ 0 then max client.lastTimestamp message.timestamp
      else client.lastTimestamp }

/-- The server and one client, with whether that client has processed a snapshot. -/
structure Session (σ : Type) where
  server : Server σ
  client : ClientState := {}
  joined : Bool := false

namespace Session

variable {σ : Type} (L : Library σ) (c : MarketConfig) (d : Decoder) (id : ℕ)

/-- The client processes a message addressed to it. -/
def deliver (x : Session σ) (message : MarketMessage) : Session σ :=
  { x with
    client := d.processMessage x.client message
    joined := x.joined || decide (message.type = .snapshot) }

/-- The messages of a step that are addressed to a client. -/
def addressed (sent : List (ℕ × MarketMessage)) : List MarketMessage :=
  (sent.filter fun entry => entry.1 = id).map Prod.snd

/-- One server step whose messages to the client all arrive. -/
def step (x : Session σ) (e : Event) : Session σ :=
  let (server, sent) := x.server.step L c e
  (addressed id sent).foldl (deliver d) { x with server := server }

/-- One server step whose broadcast does not reach the client. -/
def stepMissing (x : Session σ) (e : Event) : Session σ :=
  let (server, sent) := x.server.step L c e
  ((addressed id sent).filter fun message => message.type ≠ .candles).foldl (deliver d)
    { x with server := server }

/-- A server that has just started and a client that has received nothing. -/
def init (rng : σ) : Session σ := { server := Server.init L c rng }

/-- Whether an event makes the server broadcast its tick. -/
def Broadcasting (x : Session σ) (e : Event) : Prop := e = .loop ∧ x.server.phase = .ticked

instance (x : Session σ) (e : Event) : Decidable (x.Broadcasting e) :=
  inferInstanceAs (Decidable (_ ∧ _))

/-- The client's current subscription; none when it is not connected. -/
def subscription (x : Session σ) : Finset String :=
  (x.server.clientSubscriptions.find? id).getD ∅

end Session

end TradingSim.Feed
