import TradingSim.Feed.Subscriptions

/-!
# The order books of the simulator adapter

The adapter of the signal bot takes market data from broadcasts only, and of their books only those
that are sent in full. A book is sent in full once, when the server broadcasts it for the first time;
later broadcasts carry changes, and who connects later is sent a snapshot. The adapter reads neither.
-/

namespace TradingSim.Feed

open Foundations
open Exchange (OrderBook OrderBookLevel)
open Market
open Session (tapedLibrary stillMarket lateJoin)

/-- An order book as the adapter returns it. -/
structure OrderbookData where
  symbol : String
  bids : List OrderBookLevel
  asks : List OrderBookLevel
  deriving DecidableEq

/-- The market data that a `SimulatorAdapter` keeps. The prices may be seeded. -/
structure SimulatorAdapter where
  prices : Dict String ℚ := Dict.empty
  candles : Dict String (List Candle) := Dict.empty
  orderbooks : Dict String BookEntry := Dict.empty
  defaultExchange : Option String := none

namespace SimulatorAdapter

def maxCandleCache : ℕ := 500

/-- Take over the prices of one exchange; the first exchange becomes the default one. -/
def updatePrices (a : SimulatorAdapter) (entry : String × Dict String ℚ) : SimulatorAdapter :=
  { a with
    defaultExchange := a.defaultExchange.or (some entry.1)
    prices := entry.2.entries.foldl (fun prices e => prices.insert (bookKey (entry.1, e.1)) e.2)
      a.prices }

/-- Add a candle to a history, or replace the current one. -/
def addCandle (hist : List Candle) (candle : Candle) : List Candle :=
  if hist.getLast?.map Candle.timestamp = some candle.timestamp then hist.dropLast ++ [candle]
  else (hist ++ [candle]).drop (hist.length + 1 - maxCandleCache)

def updateCandle (a : SimulatorAdapter) (candle : Candle) : SimulatorAdapter :=
  let key := bookKey (candle.exchange, candle.symbol)
  { a with candles := a.candles.insert key (addCandle ((a.candles.find? key).getD []) candle) }

/-- Take over the full books of a message. -/
def updateOrderbooks (a : SimulatorAdapter) (books : Option (Dict String BookEntry)) : SimulatorAdapter :=
  { a with
    orderbooks := (books.getD Dict.empty).entries.foldl (fun held e => held.insert e.1 e.2)
      a.orderbooks }

def updateMarketCache (a : SimulatorAdapter) (frame : BroadcastFrame) : SimulatorAdapter :=
  let a := frame.prices.entries.foldl updatePrices a
  let a := frame.candles.foldl updateCandle a
  a.updateOrderbooks frame.orderbooks

/-- What `_recv_loop` does with a market message. -/
def receive (a : SimulatorAdapter) (frame : BroadcastFrame) : SimulatorAdapter :=
  if frame.type = .candles then a.updateMarketCache frame else a

/-- The keys that the adapter has data for, in the order in which `_key` looks through them. -/
def keys (a : SimulatorAdapter) : List String := a.prices.keys ++ a.candles.keys ++ a.orderbooks.keys

/-- `_key`: a symbol with a separator is a key already. -/
def key (a : SimulatorAdapter) (symbol : String) : String :=
  if '|' ∈ symbol.toList then symbol
  else
    let key := bookKey (a.defaultExchange.getD "", symbol)
    if a.defaultExchange.getD "" ≠ "" ∧ key ∈ a.keys then key
    else
      match a.keys.find? fun k => ("|" ++ symbol).toList.isSuffixOf k.toList with
      | some k => k
      | none => key

def book? (a : SimulatorAdapter) (symbol : String) : Option BookEntry :=
  a.orderbooks.find? (a.key symbol)

def getOrderbook (a : SimulatorAdapter) (symbol : String) (depth : ℕ) : OrderbookData :=
  match a.book? symbol with
  | none => { symbol := symbol, bids := [], asks := [] }
  | some book => { symbol := symbol, bids := book.bids.take depth, asks := book.asks.take depth }

end SimulatorAdapter

/-- The server together with an adapter that is one of its clients. -/
structure AdapterSession (σ : Type) where
  feed : FeedServer σ
  adapter : SimulatorAdapter := {}

/-- Whether an event is a request about market data. An adapter makes none. -/
def Event.requestOf (client : ℕ) : Event → Bool
  | .subscribe k _ => k = client
  | .unsubscribe k _ => k = client
  | .syncState k _ => k = client
  | _ => false

namespace FeedServer

variable {σ : Type} (L : Library σ) (c : MarketConfig)

/-- The market messages that an event sends to a client. -/
def framesTo (x : FeedServer σ) (client : ℕ) (e : EncodedEvent) : List BroadcastFrame :=
  if x.server.broadcasts e.event then x.broadcastsTo L c client e
  else (Session.addressed client (x.server.step L c e.event).2).map fun message =>
    { message with prices := allPrices c x.server.market }

end FeedServer

namespace AdapterSession

variable {σ : Type} (L : Library σ) (c : MarketConfig) (id : ℕ)

/-- One step of the server, whose messages to the adapter all arrive. -/
def step (x : AdapterSession σ) (e : EncodedEvent) : AdapterSession σ where
  feed := x.feed.step L c e
  adapter := (x.feed.framesTo L c id e).foldl SimulatorAdapter.receive x.adapter

/-- A server that has just started and an adapter with some seeded prices. -/
def init (rng : σ) (simPrices : Dict String ℚ) : AdapterSession σ where
  feed := FeedServer.init L c rng
  adapter := { prices := simPrices }

end AdapterSession

/-! ### What the adapter does with a broadcast -/

namespace SimulatorAdapter

variable {a : SimulatorAdapter}

theorem book?_bookKey (pair : String × String) :
    a.book? (bookKey pair) = a.orderbooks.find? (bookKey pair) := by
  have hseparator : '|' ∈ (bookKey pair).toList := by simp [bookKey]
  rw [book?, key, if_pos hseparator]

/-- A depth that covers both sides shows the whole book. -/
theorem getOrderbook_of_book {symbol : String} {book : BookEntry} (h : a.book? symbol = some book)
    {depth : ℕ} (hbids : book.bids.length ≤ depth) (hasks : book.asks.length ≤ depth) :
    a.getOrderbook symbol depth = { symbol := symbol, bids := book.bids, asks := book.asks } := by
  simp only [getOrderbook, h, List.take_of_length_le hbids, List.take_of_length_le hasks]

theorem orderbooks_updatePrices (a : SimulatorAdapter) (entries : List (String × Dict String ℚ)) :
    (entries.foldl updatePrices a).orderbooks = a.orderbooks := by
  induction entries generalizing a with
  | nil => rfl
  | cons entry rest ih => exact ih _

theorem orderbooks_updateCandle (a : SimulatorAdapter) (candles : List Candle) :
    (candles.foldl updateCandle a).orderbooks = a.orderbooks := by
  induction candles generalizing a with
  | nil => rfl
  | cons candle rest ih => exact ih _

/-- A full book of a message replaces the one that is held. -/
theorem find?_updateOrderbooks (a : SimulatorAdapter) (books : Option (Dict String BookEntry))
    (key : String) : (a.updateOrderbooks books).orderbooks.find? key =
      (books.bind fun books => books.find? key).or (a.orderbooks.find? key) := by
  have hedit : ∀ (held : Dict String BookEntry) (e : String × BookEntry) (key : String),
      (held.insert e.1 e.2).find? key = if e.1 = key then some e.2 else held.find? key := by
    intro held e key
    rw [Dict.find?_insert]
    simp only [eq_comm]
  cases books with
  | none => rfl
  | some books =>
    refine (find?_foldl_filed books Prod.fst (fun book _ => some book) hedit (fun _ _ => rfl)
      a.orderbooks key).trans ?_
    rw [Option.bind_some]
    cases books.find? key with
    | none => rfl
    | some book => rfl

end SimulatorAdapter

namespace FeedServer

variable {σ : Type} {L : Library σ} {c : MarketConfig}

/-- A broadcast sends a connected client the message of its set, and no other client anything. -/
theorem broadcastsTo_eq {x : FeedServer σ} {client : ℕ} {e : EncodedEvent}
    (hbroadcasts : x.server.broadcasts e.event = true) : x.broadcastsTo L c client e =
      ((x.server.clientSubscriptions.find? client).map fun subs =>
        if isFull c subs then x.fullFrame L c else x.filteredFrame L c subs).toList := by
  rw [broadcastsTo, if_pos hbroadcasts, broadcast_eq, recipients, List.map_map, List.filter_map,
    List.map_map]
  change ((x.server.clientSubscriptions.entries.filter fun entry => decide (entry.1 = client)).map
    fun entry => (x.encodedVariant L c _).2) = _
  rw [Dict.filter_entries]
  cases x.server.clientSubscriptions.find? client with
  | none => rfl
  | some subs =>
    simp only [List.map_cons, List.map_nil, Option.map_some, Option.toList_some]
    unfold encodedVariant Recipient.variant
    split_ifs
    · rfl
    · rfl

theorem step_of_not_broadcasts (s : Server σ) {e : Event} (h : s.broadcasts e = false) :
    (s.step L c e).1.lastOrderbooks = s.lastOrderbooks ∧
      ∀ sent ∈ (s.step L c e).2, sent.2.type ≠ .candles := by
  have hsent : ∀ (client : ℕ) (message : MarketMessage), message.type ≠ .candles →
      ∀ sent ∈ [(client, message)], sent.2.type ≠ .candles := by
    intro client message htype sent hmem
    rw [List.mem_singleton.mp hmem]
    exact htype
  cases e with
  | connect => exact ⟨rfl, List.forall_mem_nil _⟩
  | disconnect client => exact ⟨rfl, List.forall_mem_nil _⟩
  | snapshot client =>
    simp only [Server.step]
    split
    · refine ⟨rfl, hsent _ _ ?_⟩
      exact fun htype => by cases htype
    · exact ⟨rfl, List.forall_mem_nil _⟩
  | subscribe client symbols =>
    simp only [Server.step]
    split
    · refine ⟨rfl, hsent _ _ ?_⟩
      exact fun htype => by cases htype
    · exact ⟨rfl, List.forall_mem_nil _⟩
  | unsubscribe client symbols =>
    simp only [Server.step]
    split
    · exact ⟨rfl, List.forall_mem_nil _⟩
    · exact ⟨rfl, List.forall_mem_nil _⟩
  | syncState client lastTs =>
    simp only [Server.step]
    split
    · refine ⟨rfl, hsent _ _ ?_⟩
      exact fun htype => by cases htype
    · exact ⟨rfl, List.forall_mem_nil _⟩
  | readBook pair => exact ⟨rfl, List.forall_mem_nil _⟩
  | loop =>
    simp only [Server.step, Server.broadcastLoop]
    cases hphase : s.phase with
    | waiting =>
      simp only
      split
      · exact ⟨rfl, List.forall_mem_nil _⟩
      · exact ⟨rfl, List.forall_mem_nil _⟩
    | ticked => simp [Server.broadcasts, hphase] at h

theorem nextClient_step (s : Server σ) (e : Event) :
    (s.step L c e).1.nextClient = if e = .connect then s.nextClient + 1 else s.nextClient := by
  cases e with
  | connect => rfl
  | loop =>
    simp only [Server.step, Server.broadcastLoop]
    split
    · split
      · rfl
      · rfl
    · rfl
  | snapshot client =>
    simp only [Server.step]
    split
    · rfl
    · rfl
  | subscribe client symbols =>
    simp only [Server.step]
    split
    · rfl
    · rfl
  | unsubscribe client symbols =>
    simp only [Server.step]
    split
    · rfl
    · rfl
  | syncState client lastTs =>
    simp only [Server.step]
    split
    · rfl
    · rfl
  | disconnect client => rfl
  | readBook pair => rfl

/-- Setting the subscription of a connected client connects no other one. -/
theorem find?_insert_eq_none {subscriptions : Dict ℕ (Finset String)} {client k : ℕ}
    {subs : Finset String} (h : subscriptions.find? client = none)
    (hsubs : subscriptions.find? k = some subs) (subs' : Finset String) :
    (subscriptions.insert k subs').find? client = none := by
  have hne : client ≠ k := by
    rintro rfl
    rw [h] at hsubs
    cases hsubs
  rw [Dict.find?_insert_of_ne _ hne]
  exact h

/-- Who has left does not come back: a new connection has a new number. -/
theorem find?_step_of_none (s : Server σ) {client : ℕ} (hknown : client < s.nextClient)
    (h : s.clientSubscriptions.find? client = none) (e : Event) :
    (s.step L c e).1.clientSubscriptions.find? client = none := by
  cases e with
  | connect => exact (Dict.find?_insert_of_ne _ hknown.ne _).trans h
  | disconnect k =>
    simp only [Server.step, Dict.find?_erase, h, ite_self]
  | snapshot k =>
    simp only [Server.step]
    split
    · exact h
    · exact h
  | subscribe k symbols =>
    simp only [Server.step]
    split
    · rename_i subs hsubs
      exact find?_insert_eq_none h hsubs _
    · exact h
  | unsubscribe k symbols =>
    simp only [Server.step]
    split
    · rename_i subs hsubs
      exact find?_insert_eq_none h hsubs _
    · exact h
  | syncState k lastTs =>
    simp only [Server.step]
    split
    · exact h
    · exact h
  | readBook pair => exact h
  | loop =>
    simp only [Server.step, Server.broadcastLoop]
    split
    · split
      · exact h
      · exact h
    · exact h

theorem requested_of_quiet {client : ℕ} {e : Event} (h : e.requestOf client = false)
    (subs : Finset String) : requested c client subs e = subs := by
  cases e with
  | subscribe k symbols =>
    have hother : k ≠ client := of_decide_eq_false h
    rw [requested_subscribe, if_neg hother]
  | unsubscribe k symbols =>
    have hother : k ≠ client := of_decide_eq_false h
    rw [requested, if_neg hother]
  | _ => rfl

end FeedServer

/-- The sides have the quantities of a recorded book at every price. -/
def EncodedBook.Agrees (book : EncodedBook) (bids asks : List OrderBookLevel) : Prop :=
  (∀ p, (levelMap bids).find? p = book.bids.find? p) ∧
    ∀ p, (levelMap asks).find? p = book.asks.find? p

namespace AdapterSession

variable {σ : Type} {L : Library σ} {c : MarketConfig} {id : ℕ}

/-- Every market pair has a book at the adapter, and every book that the adapter returns has the
quantities that the server recorded in its last broadcast. -/
def InLine (c : MarketConfig) (x : AdapterSession σ) : Prop :=
  (∀ pair ∈ c.pairs, (x.adapter.book? (bookKey pair)).isSome) ∧
    ∀ pair book, x.adapter.book? (bookKey pair) = some book →
      ∃ recorded, x.feed.server.lastOrderbooks.find? (bookKey pair) = some recorded ∧
        ∀ depth, book.bids.length ≤ depth → book.asks.length ≤ depth →
          recorded.Agrees (x.adapter.getOrderbook (bookKey pair) depth).bids
            (x.adapter.getOrderbook (bookKey pair) depth).asks

/-- The adapter is in line after an event that sends it a broadcast. -/
def Shown (L : Library σ) (c : MarketConfig) (id : ℕ) (x : AdapterSession σ) (e : EncodedEvent) : Prop :=
  x.feed.broadcastsTo L c id e ≠ [] → (x.step L c id e).InLine c

/-- A broadcast to the adapter finds each book for the first time, or the adapter has the book and
finds it where it was at the broadcast before. -/
def Unmoved (L : Library σ) (c : MarketConfig) (id : ℕ) (x : AdapterSession σ) (e : EncodedEvent) : Prop :=
  x.feed.broadcastsTo L c id e ≠ [] → ∀ read ∈ (x.feed.server.readBooks L c).1, ∀ recorded,
    x.feed.server.lastOrderbooks.find? (bookKey read.1) = some recorded →
      (x.adapter.orderbooks.find? (bookKey read.1)).isSome ∧
        recorded.Agrees read.2.bids read.2.asks

/-- What holds of a session at any time, as long as the adapter is in line. -/
structure Followed (c : MarketConfig) (id : ℕ) (x : AdapterSession σ) : Prop where
  tracked : ({ server := x.feed.server } : Session σ).Tracked c id
  connection : (x.feed.server.nextClient ≤ id ∧ x.adapter.orderbooks = Dict.empty) ∨
    (id < x.feed.server.nextClient ∧
      (x.feed.server.clientSubscriptions.find? id = some c.symbols.toFinset ∨
        x.feed.server.clientSubscriptions.find? id = none))
  known : ∀ key book, x.adapter.orderbooks.find? key = some book → ∃ pair ∈ c.pairs, bookKey pair = key
  agrees : (x.feed.server.clientSubscriptions.find? id).isSome → ∀ key book,
    x.adapter.orderbooks.find? key = some book →
      ∃ recorded, x.feed.server.lastOrderbooks.find? key = some recorded ∧
        recorded.Agrees book.bids book.asks

variable {x : AdapterSession σ}

/-- In terms of the books that the adapter keeps. -/
theorem inLine_iff : x.InLine c ↔ (∀ pair ∈ c.pairs, (x.adapter.orderbooks.find? (bookKey pair)).isSome) ∧
      ∀ pair book, x.adapter.orderbooks.find? (bookKey pair) = some book →
        ∃ recorded, x.feed.server.lastOrderbooks.find? (bookKey pair) = some recorded ∧
          recorded.Agrees book.bids book.asks := by
  unfold InLine
  simp only [SimulatorAdapter.book?_bookKey]
  refine and_congr_right fun _ => forall_congr' fun pair => forall_congr' fun book =>
    forall_congr' fun hbook => exists_congr fun recorded => and_congr_right fun _ => ?_
  have hbook' : x.adapter.book? (bookKey pair) = some book := by
    rwa [SimulatorAdapter.book?_bookKey]
  constructor
  · intro h
    have hcovered := h (max book.bids.length book.asks.length) (le_max_left _ _) (le_max_right _ _)
    rwa [SimulatorAdapter.getOrderbook_of_book hbook' (le_max_left _ _) (le_max_right _ _)]
      at hcovered
  · intro h depth hbids hasks
    rw [SimulatorAdapter.getOrderbook_of_book hbook' hbids hasks]
    exact h

variable {e : EncodedEvent}

theorem adapter_step_of_not_broadcasts
    (h : x.feed.server.broadcasts e.event = false) : (x.step L c id e).adapter = x.adapter := by
  have hignored : ∀ frame ∈ x.feed.framesTo L c id e, frame.type ≠ .candles := by
    intro frame hframe
    rw [FeedServer.framesTo, h] at hframe
    obtain ⟨message, hmessage, rfl⟩ := List.mem_map.mp hframe
    obtain ⟨sent, hsent, rfl⟩ := List.mem_map.mp hmessage
    exact (FeedServer.step_of_not_broadcasts x.feed.server h).2 sent (List.mem_of_mem_filter hsent)
  change (x.feed.framesTo L c id e).foldl SimulatorAdapter.receive x.adapter = x.adapter
  generalize x.feed.framesTo L c id e = frames at hignored
  induction frames with
  | nil => rfl
  | cons frame rest ih =>
    obtain ⟨hframe, hrest⟩ := List.forall_mem_cons.mp hignored
    rw [List.foldl_cons, SimulatorAdapter.receive, if_neg hframe]
    exact ih hrest

/-- A broadcast records the books that it was made of. -/
theorem lastOrderbooks_step (h : x.feed.server.broadcasts e.event = true) :
    (x.step L c id e).feed.server.lastOrderbooks =
      (x.feed.server.buildOrderbookData L c).lastOrderbooks := by
  obtain ⟨hloop, hphase⟩ := of_decide_eq_true h
  change (x.feed.server.step L c e.event).1.lastOrderbooks = _
  simp only [hloop, Server.step, Server.broadcastLoop, hphase]
  rfl

/-- A connected adapter takes over the full books of a broadcast. -/
theorem find?_orderbooks_step (h : x.feed.server.broadcasts e.event = true)
    (hsubs : x.feed.server.clientSubscriptions.find? id = some c.symbols.toFinset) (key : String) :
    (x.step L c id e).adapter.orderbooks.find? key =
      ((x.feed.server.buildOrderbookData L c).orderbooks.find? key).or
        (x.adapter.orderbooks.find? key) := by
  have hfull : isFull c c.symbols.toFinset = true := decide_eq_true (Or.inl rfl)
  change ((x.feed.framesTo L c id e).foldl SimulatorAdapter.receive x.adapter).orderbooks.find? key = _
  rw [FeedServer.framesTo, if_pos h, FeedServer.broadcastsTo_eq h, hsubs, Option.map_some, hfull,
    if_pos rfl, Option.toList_some, List.foldl_cons, List.foldl_nil]
  change (x.adapter.updateMarketCache _).orderbooks.find? key = _
  rw [SimulatorAdapter.updateMarketCache, SimulatorAdapter.find?_updateOrderbooks,
    SimulatorAdapter.orderbooks_updateCandle, SimulatorAdapter.orderbooks_updatePrices]
  congr 1
  exact nonEmpty_bind_find? _ key

theorem adapter_step_of_disconnected (hsubs : x.feed.server.clientSubscriptions.find? id = none) :
    (x.step L c id e).adapter = x.adapter := by
  cases hbroadcasts : x.feed.server.broadcasts e.event with
  | false => exact adapter_step_of_not_broadcasts hbroadcasts
  | true =>
    change (x.feed.framesTo L c id e).foldl SimulatorAdapter.receive x.adapter = x.adapter
    rw [FeedServer.framesTo, if_pos hbroadcasts, FeedServer.broadcastsTo_eq hbroadcasts, hsubs]
    rfl

/-- What a broadcast leaves of a pair's book at the server and at the adapter. -/
theorem find?_step_of_read (h : x.feed.server.broadcasts e.event = true)
    (hsubs : x.feed.server.clientSubscriptions.find? id = some c.symbols.toFinset)
    {read : (String × String) × OrderBook} (hread : read ∈ (x.feed.server.readBooks L c).1) :
    (x.step L c id e).feed.server.lastOrderbooks.find? (bookKey read.1) = some (encoded read.2) ∧
      (x.step L c id e).adapter.orderbooks.find? (bookKey read.1) =
        if (x.feed.server.lastOrderbooks.find? (bookKey read.1)).isSome then
          x.adapter.orderbooks.find? (bookKey read.1) else some (bookEntry read) := by
  have hview := view_of_read (L := L) (c := c) hread
  have hlast : (x.feed.server.buildOrderbookData L c).lastOrderbooks.find? (bookKey read.1) = _ :=
    congrArg KeyView.last hview
  have hfull : (x.feed.server.buildOrderbookData L c).orderbooks.find? (bookKey read.1) = _ :=
    congrArg KeyView.full hview
  rw [lastOrderbooks_step h, find?_orderbooks_step h hsubs, hlast, hfull]
  cases x.feed.server.lastOrderbooks.find? (bookKey read.1) with
  | none => exact ⟨rfl, rfl⟩
  | some recorded =>
    exact ⟨rfl, rfl⟩

theorem connected_of_broadcastsTo (h : x.feed.broadcastsTo L c id e ≠ []) :
    x.feed.server.broadcasts e.event = true ∧ (x.feed.server.clientSubscriptions.find? id).isSome := by
  cases hbroadcasts : x.feed.server.broadcasts e.event with
  | false =>
    rw [FeedServer.broadcastsTo, hbroadcasts] at h
    exact absurd rfl h
  | true =>
    refine ⟨rfl, ?_⟩
    rw [FeedServer.broadcastsTo_eq hbroadcasts] at h
    cases hsubs : x.feed.server.clientSubscriptions.find? id with
    | none =>
      rw [hsubs] at h
      exact absurd rfl h
    | some subs => rfl

/-- A connected adapter has the set that it started with. -/
theorem Followed.subscribed (h : x.Followed c id)
    (hconnected : (x.feed.server.clientSubscriptions.find? id).isSome) :
    x.feed.server.clientSubscriptions.find? id = some c.symbols.toFinset := by
  obtain ⟨subs, hsubs⟩ := Option.isSome_iff_exists.mp hconnected
  rcases h.connection with ⟨hunborn, -⟩ | ⟨-, hset | hnone⟩
  · exact absurd (h.tracked.issued id subs hsubs) (not_lt.mpr hunborn)
  · exact hset
  · rw [hnone] at hconnected
    cases hconnected

/-- A broadcast brings the adapter in line exactly if no book has moved. -/
theorem Followed.shown_iff (h : x.Followed c id) (e : EncodedEvent) :
    x.Shown L c id e ↔ x.Unmoved L c id e := by
  refine forall_congr' fun hsent => ?_
  obtain ⟨hbroadcasts, hconnected⟩ := connected_of_broadcastsTo hsent
  have hsubs := h.subscribed hconnected
  have hread := fun (read : (String × String) × OrderBook)
      (hmem : read ∈ (x.feed.server.readBooks L c).1) => find?_step_of_read hbroadcasts hsubs hmem
  rw [inLine_iff]
  constructor
  · rintro ⟨hall, hagree⟩ read hmem recorded hrecorded
    obtain ⟨hlast, hbook⟩ := hread read hmem
    rw [hrecorded, Option.isSome_some, if_pos rfl] at hbook
    have hheld := hall read.1 (pair_mem_of_read hmem)
    rw [hbook] at hheld
    refine ⟨hheld, ?_⟩
    obtain ⟨book, hfind⟩ := Option.isSome_iff_exists.mp hheld
    obtain ⟨now, hnow, hagrees⟩ := hagree read.1 book (hbook.trans hfind)
    obtain ⟨before, hbefore, hagreed⟩ := h.agrees hconnected _ book hfind
    cases hlast.symm.trans hnow
    cases hrecorded.symm.trans hbefore
    exact ⟨fun p => (hagrees.1 p).symm.trans (hagreed.1 p),
      fun p => (hagrees.2 p).symm.trans (hagreed.2 p)⟩
  · intro hunmoved
    have hpair : ∀ pair ∈ c.pairs, ∃ recorded book,
        (x.step L c id e).feed.server.lastOrderbooks.find? (bookKey pair) = some recorded ∧
          (x.step L c id e).adapter.orderbooks.find? (bookKey pair) = some book ∧
            recorded.Agrees book.bids book.asks := by
      intro pair hpair
      obtain ⟨book, hmem⟩ := exists_read (L := L) x.feed.server hpair
      obtain ⟨hlast, hbook⟩ := hread _ hmem
      cases hrecorded : x.feed.server.lastOrderbooks.find? (bookKey pair) with
      | none =>
        rw [hrecorded] at hbook
        exact ⟨_, _, hlast, hbook, fun _ => rfl, fun _ => rfl⟩
      | some recorded =>
        obtain ⟨hheld, hunmoved'⟩ := hunmoved _ hmem recorded hrecorded
        obtain ⟨held, hfind⟩ := Option.isSome_iff_exists.mp hheld
        obtain ⟨before, hbefore, hagreed⟩ := h.agrees hconnected _ held hfind
        cases hrecorded.symm.trans hbefore
        rw [hrecorded, Option.isSome_some, if_pos rfl] at hbook
        exact ⟨_, _, hlast, hbook.trans hfind,
          fun p => (hagreed.1 p).trans (hunmoved'.1 p).symm,
          fun p => (hagreed.2 p).trans (hunmoved'.2 p).symm⟩
    constructor
    · intro pair hmem
      obtain ⟨-, book, -, hbook, -⟩ := hpair pair hmem
      rw [hbook]
      rfl
    · intro pair book hbook
      have hmarket : ∃ pair' ∈ c.pairs, bookKey pair' = bookKey pair := by
        rw [find?_orderbooks_step hbroadcasts hsubs, Option.or_eq_some_iff] at hbook
        rcases hbook with hfull | ⟨-, hheld⟩
        · obtain ⟨-, read, hmem, hkey, -⟩ := orderbooks_build_eq_some hfull
          exact ⟨read.1, pair_mem_of_read hmem, hkey⟩
        · exact h.known _ book hheld
      obtain ⟨pair', hmem, hkey⟩ := hmarket
      obtain ⟨recorded, book', hlast, hbook', hagrees⟩ := hpair pair' hmem
      rw [hkey] at hlast hbook'
      cases hbook.symm.trans hbook'
      exact ⟨recorded, hlast, hagrees⟩

/-- Every step keeps the record uniform and the connections numbered. -/
theorem tracked_step {s : Server σ} (h : ({ server := s } : Session σ).Tracked c id) (e : Event) :
    ({ server := (s.step L c e).1 } : Session σ).Tracked c id := by
  have hstep := h.step (L := L) (d := .bot) e
  have hserver : (({ server := s } : Session σ).step L c .bot id e).server = (s.step L c e).1 :=
    Session.server_step { server := s } e
  refine ⟨?_, ?_, (nomatch ·), (nomatch ·)⟩
  · rw [← hserver]
    exact hstep.uniform
  · rw [← hserver]
    exact hstep.issued

theorem Followed.connected (h : x.Followed c id)
    (hconnected : ((x.step L c id e).feed.server.clientSubscriptions.find? id).isSome) :
    (x.feed.server.clientSubscriptions.find? id).isSome ∨
      (x.step L c id e).adapter.orderbooks = Dict.empty := by
  cases hsubs : x.feed.server.clientSubscriptions.find? id with
  | some subs => exact Or.inl rfl
  | none =>
    right
    rcases h.connection with ⟨-, hempty⟩ | ⟨hknown, -⟩
    · rw [adapter_step_of_disconnected hsubs]
      exact hempty
    · have hnone := FeedServer.find?_step_of_none (L := L) (c := c) x.feed.server hknown hsubs e.event
      change ((x.feed.server.step L c e.event).1.clientSubscriptions.find? id).isSome at hconnected
      rw [hnone] at hconnected
      cases hconnected

theorem Followed.step (h : x.Followed c id)
    (hquiet : e.event.requestOf id = false) (hshown : x.Shown L c id e) :
    (x.step L c id e).Followed c id := by
  have hknown : ∀ key book, (x.step L c id e).adapter.orderbooks.find? key = some book →
      ∃ pair ∈ c.pairs, bookKey pair = key := by
    intro key book hbook
    cases hbroadcasts : x.feed.server.broadcasts e.event with
    | false =>
      rw [adapter_step_of_not_broadcasts hbroadcasts] at hbook
      exact h.known key book hbook
    | true =>
      cases hsubs : x.feed.server.clientSubscriptions.find? id with
      | none =>
        rw [adapter_step_of_disconnected hsubs] at hbook
        exact h.known key book hbook
      | some subs =>
        have hset := h.subscribed (by rw [hsubs]; rfl)
        rw [find?_orderbooks_step hbroadcasts hset, Option.or_eq_some_iff] at hbook
        rcases hbook with hfull | ⟨-, hheld⟩
        · obtain ⟨-, read, hmem, hkey, -⟩ := orderbooks_build_eq_some hfull
          exact ⟨read.1, pair_mem_of_read hmem, hkey⟩
        · exact h.known key book hheld
  refine ⟨tracked_step h.tracked e.event, ?_, hknown, ?_⟩
  · rcases h.connection with ⟨hunborn, hempty⟩ | ⟨hborn, hsubs⟩
    · have hnone : x.feed.server.clientSubscriptions.find? id = none := by
        rw [Option.eq_none_iff_forall_ne_some]
        intro subs hsubs
        exact absurd (h.tracked.issued id subs hsubs) (not_lt.mpr hunborn)
      have hnext : (x.step L c id e).feed.server.nextClient = _ :=
        FeedServer.nextClient_step (L := L) (c := c) x.feed.server e.event
      rw [adapter_step_of_disconnected hnone, hnext]
      by_cases hconnects : e.event = .connect
      · rw [if_pos hconnects]
        rcases Nat.lt_or_eq_of_le hunborn with hlt | heq
        · exact Or.inl ⟨hlt, hempty⟩
        · refine Or.inr ⟨heq ▸ Nat.lt_succ_self _, Or.inl ?_⟩
          change (x.feed.server.step L c e.event).1.clientSubscriptions.find? id = _
          rw [hconnects, ← heq]
          exact Dict.find?_insert_self _ _ _
      · rw [if_neg hconnects]
        exact Or.inl ⟨hunborn, hempty⟩
    · right
      obtain ⟨hborn', hsubs'⟩ := FeedServer.find?_step (L := L) (c := c) hborn e hsubs
      rw [FeedServer.requested_of_quiet hquiet] at hsubs'
      exact ⟨hborn', hsubs'⟩
  · intro hconnected key book hbook
    rcases h.connected hconnected with hbefore | hempty
    · cases hbroadcasts : x.feed.server.broadcasts e.event with
      | false =>
        have hlast : (x.step L c id e).feed.server.lastOrderbooks = _ :=
          (FeedServer.step_of_not_broadcasts (L := L) (c := c) x.feed.server hbroadcasts).1
        rw [adapter_step_of_not_broadcasts hbroadcasts] at hbook
        rw [hlast]
        exact h.agrees hbefore key book hbook
      | true =>
        have hsent : x.feed.broadcastsTo L c id e ≠ [] := by
          rw [FeedServer.broadcastsTo_eq hbroadcasts, h.subscribed hbefore]
          exact List.cons_ne_nil _ _
        obtain ⟨pair, -, rfl⟩ := hknown key book hbook
        exact (inLine_iff.mp (hshown hsent)).2 pair book hbook
    · rw [hempty] at hbook
      cases hbook

theorem followed_init (rng : σ) (simPrices : Dict String ℚ) : (init L c rng simPrices).Followed c id where
  tracked := Session.tracked_init rng
  connection := Or.inl ⟨Nat.zero_le id, rfl⟩
  known := fun _ _ hbook => by cases hbook
  agrees := fun hconnected => by cases hconnected

/-- The adapter is in line after every broadcast of a run exactly if it was there for the first one
and no book has moved since. -/
theorem shown_iff_unmoved (L : Library σ) (c : MarketConfig) (id : ℕ) (rng : σ)
    (simPrices : Dict String ℚ) {events : List EncodedEvent}
    (hquiet : ∀ e ∈ events, e.event.requestOf id = false) :
    Along (step L c id) (Shown L c id) (init L c rng simPrices) events ↔
      Along (step L c id) (Unmoved L c id) (init L c rng simPrices) events := by
  have hinit : (init L c rng simPrices).Followed c id := followed_init rng simPrices
  generalize init L c rng simPrices = x at hinit
  induction events generalizing x with
  | nil => exact Iff.rfl
  | cons e rest ih =>
    obtain ⟨hhead, htail⟩ := List.forall_mem_cons.mp hquiet
    rw [Along, Along, ← hinit.shown_iff e]
    refine and_congr_right fun hshown => ?_
    exact ih htail _ (hinit.step hhead hshown)

theorem InLine.bid (h : x.InLine c) {pair : String × String} (hpair : pair ∈ c.pairs) (p : ℚ) :
    ((x.adapter.orderbooks.find? (bookKey pair)).map fun book => (levelMap book.bids).find? p) =
      (x.feed.server.lastOrderbooks.find? (bookKey pair)).map fun recorded => recorded.bids.find? p := by
  obtain ⟨hall, hagree⟩ := inLine_iff.mp h
  obtain ⟨book, hbook⟩ := Option.isSome_iff_exists.mp (hall pair hpair)
  obtain ⟨recorded, hrecorded, hagrees⟩ := hagree pair book hbook
  rw [hbook, hrecorded, Option.map_some, Option.map_some, hagrees.1]

/-- The adapter is the only client, and the market ticks twice. -/
def twoTicks : List EncodedEvent :=
  [.connect, .snapshot 0, .loop, .loop, .loop, .loop].map fun e => { event := e }

/-- The equivalence over these ticks. -/
theorem shown_iff_unmoved_twoTicks :
    Along (step (tapedLibrary []) stillMarket 0) (Shown (tapedLibrary []) stillMarket 0)
        (init (tapedLibrary []) stillMarket 0 Dict.empty) twoTicks ↔
      Along (step (tapedLibrary []) stillMarket 0) (Unmoved (tapedLibrary []) stillMarket 0)
        (init (tapedLibrary []) stillMarket 0 Dict.empty) twoTicks :=
  shown_iff_unmoved (tapedLibrary []) stillMarket 0 0 Dict.empty (by decide)

/-- After the second tick the adapter still has the quantity of the first one; and an adapter that
connects between two ticks has no book at all. -/
theorem not_shown_twoTicks :
    ¬ Along (step (tapedLibrary []) stillMarket 0) (Shown (tapedLibrary []) stillMarket 0)
        (init (tapedLibrary []) stillMarket 0 Dict.empty) twoTicks ∧
      ¬ Along (step (tapedLibrary []) stillMarket 1) (Shown (tapedLibrary []) stillMarket 1)
        (init (tapedLibrary []) stillMarket 0 Dict.empty) (lateJoin.map fun e => { event := e }) := by
  have hpair : ("binance", "BTC/USDT") ∈ stillMarket.pairs := by decide
  constructor
  · rintro ⟨-, -, -, -, -, hlast, -⟩
    have hbid := (hlast (by decide +kernel)).bid hpair (2498 / 25)
    revert hbid
    decide +kernel
  · rintro ⟨-, -, -, -, -, -, -, hlast, -⟩
    have hbid := (hlast (by decide +kernel)).bid hpair (2498 / 25)
    revert hbid
    decide +kernel

end AdapterSession

end TradingSim.Feed
