import TradingSim.Feed.Client

/-!
# The bot's market data store

The receiver keeps every order book and price under its exchange and symbol, and a second copy
under the registered id of the symbol for the trading loop. Only the primary exchange fills the
second copy. Market messages and snapshots from shared memory write both stores; the changes of
a book reach the first one only.
-/

namespace TradingSim.Bot

open Foundations
open Exchange (OrderBookLevel)
open Feed

/-- A market message as the receiver reads it: the books and the prices by exchange. -/
structure MarketFrame extends MarketMessage where
  prices : Option (Dict String (Dict String ℚ)) := none

/-- The prices and order books of the receiver. -/
structure SignalReceiver where
  defaultExchange : String := ""
  symbolToId : Dict String ℕ := Dict.empty
  idToSymbol : List String := []
  prices : Dict String ℚ := Dict.empty
  pricesById : List ℚ := []
  orderBooks : Dict String BookEntry := Dict.empty
  obsById : List BookEntry := []

/-- A book before anything was written to it. -/
def emptyBook : BookEntry := ⟨"", "", [], []⟩

/-- Number the symbols in their order. An id has sixteen bits, and a symbol listed again
takes its later number. -/
def symbolIds (symbols : List String) : Dict String ℕ :=
  symbols.zipIdx.foldl (fun ids e => ids.insert e.1 (e.2 % 2 ^ 16)) Dict.empty

/-- Numbering from an offset gives a listed symbol its place and touches no other. -/
theorem find?_numbered {symbols : List String} (hnodup : symbols.Nodup) (n : ℕ)
    (ids : Dict String ℕ) (sym : String) :
    ((symbols.zipIdx n).foldl (fun ids e => ids.insert e.1 (e.2 % 2 ^ 16)) ids).find? sym =
      if sym ∈ symbols then some ((n + symbols.idxOf sym) % 2 ^ 16) else ids.find? sym := by
  induction symbols generalizing n ids with
  | nil => simp
  | cons head rest ih =>
    obtain ⟨hhead, hrest⟩ := List.nodup_cons.mp hnodup
    rw [List.zipIdx_cons, List.foldl_cons, ih hrest]
    by_cases hmem : sym ∈ rest
    · have hne : head ≠ sym := fun h => hhead (h ▸ hmem)
      rw [if_pos hmem, if_pos (List.mem_cons_of_mem _ hmem), List.idxOf_cons_ne _ hne]
      congr 2
      omega
    · rw [if_neg hmem, Dict.find?_insert]
      by_cases hsym : sym = head
      · simp [hsym]
      · simp [hsym, hmem]

theorem find?_symbolIds {symbols : List String} (hnodup : symbols.Nodup)
    (hfit : symbols.length ≤ 2 ^ 16) (sym : String) (id : ℕ) :
    (symbolIds symbols).find? sym = some id ↔ symbols[id]? = some sym := by
  rw [symbolIds, find?_numbered hnodup, Dict.find?_empty, Nat.zero_add]
  by_cases hmem : sym ∈ symbols
  · have hlt := List.idxOf_lt_length_of_mem hmem
    rw [if_pos hmem, Nat.mod_eq_of_lt (lt_of_lt_of_le hlt hfit), Option.some.injEq]
    constructor
    · rintro rfl
      exact List.getElem?_idxOf hmem
    · intro hid
      obtain ⟨hid', rfl⟩ := List.getElem?_eq_some_iff.mp hid
      exact hnodup.idxOf_getElem id hid'
  · rw [if_neg hmem]
    constructor
    · intro h
      cases h
    · intro hid
      exact absurd (List.mem_of_getElem? hid) hmem

namespace SignalReceiver

variable (r : SignalReceiver)

def setDefaultExchange (ex : String) : SignalReceiver := { r with defaultExchange := ex }

/-- Give every symbol its id and clear what is stored by id. -/
def registerSymbols (symbols : List String) : SignalReceiver :=
  { r with
    symbolToId := symbolIds symbols
    idToSymbol := symbols
    pricesById := List.replicate symbols.length 0
    obsById := List.replicate symbols.length emptyBook }

/-- The id of a symbol, `0xFFFF` for one that is not registered. -/
def symbolId (sym : String) : ℕ := (r.symbolToId.find? sym).getD 0xFFFF

/-- Whether the data of an exchange may be stored by id. -/
def primaryExchange (ex : String) : Bool :=
  r.defaultExchange = "" || ex = r.defaultExchange || ex = "shm"

/-- The by-id copy of a book; none for an unknown id or a book without bids. -/
def getOrderBookById (id : ℕ) : Option BookEntry :=
  match r.obsById[id]? with
  | some book => if book.bids = [] then none else some book
  | none => none

def getPriceById (id : ℕ) : ℚ := r.pricesById.getD id 0

def storePrice (exchange : String) (r : SignalReceiver) (entry : String × ℚ) : SignalReceiver :=
  { r with
    prices := r.prices.insert (bookKey (exchange, entry.1)) entry.2
    pricesById :=
      if r.primaryExchange exchange then
        match r.symbolToId.find? entry.1 with
        | some id => r.pricesById.set id entry.2
        | none => r.pricesById
      else r.pricesById }

def updatePrices (prices : Dict String (Dict String ℚ)) : SignalReceiver :=
  prices.entries.foldl (fun r e => e.2.entries.foldl (storePrice e.1) r) r

/-- Store one full book, and its by-id copy if it comes from the primary exchange. -/
def storeBook (r : SignalReceiver) (book : BookEntry) : SignalReceiver :=
  { r with
    orderBooks := r.orderBooks.insert (bookKey (book.exchange, book.symbol)) book
    obsById :=
      if r.primaryExchange book.exchange then
        match r.symbolToId.find? book.symbol with
        | some id => r.obsById.set id book
        | none => r.obsById
      else r.obsById }

def updateOrderbooks (books : Dict String BookEntry) : SignalReceiver :=
  books.entries.foldl (fun r e => r.storeBook e.2) r

/-- Apply the changes of books that are stored. The by-id copies are not written. -/
def updateOrderbookDeltas (deltas : Dict String DeltaEntry) : SignalReceiver :=
  { r with orderBooks := deltas.entries.foldl Decoder.bot.updateOrderbookDelta r.orderBooks }

/-- The prices and the full books of a market message. -/
def storeFull (frame : MarketFrame) : SignalReceiver :=
  let priced := match frame.prices with
    | some prices => r.updatePrices prices
    | none => r
  match frame.orderbooks with
  | some books => priced.updateOrderbooks books
  | none => priced

/-- Process a market message: its prices, then its full books, then its changes. -/
def handleMarketData (frame : MarketFrame) : SignalReceiver :=
  match frame.orderbookDeltas with
  | some deltas => (r.storeFull frame).updateOrderbookDeltas deltas
  | none => r.storeFull frame

/-- Replace the first level of a side, adding one if there is none. -/
def setTop (levels : List OrderBookLevel) (top : OrderBookLevel) : List OrderBookLevel :=
  top :: levels.tail

/-- Take over a shared memory snapshot: the first levels of the by-id book and of the book
stored for the exchange `shm`. -/
def injectSnapshot (id : ℕ) (bid ask volume : ℚ) : SignalReceiver :=
  match r.idToSymbol[id]? with
  | none => r
  | some sym =>
    let key := bookKey ("shm", sym)
    let mid := (bid + ask) / 2
    let write (book : BookEntry) : BookEntry :=
      { exchange := "shm"
        symbol := sym
        bids := setTop book.bids ⟨bid, volume / 10⟩
        asks := setTop book.asks ⟨ask, volume / 10⟩ }
    { r with
      prices := r.prices.insert key mid
      pricesById := r.pricesById.set id mid
      obsById := r.obsById.modify id write
      orderBooks := r.orderBooks.insert key (write ((r.orderBooks.find? key).getD emptyBook)) }

end SignalReceiver

/-- A receiver as the bot sets it up. -/
def SignalReceiver.init (defaultExchange : String) (symbols : List String) : SignalReceiver :=
  (({} : SignalReceiver).setDefaultExchange defaultExchange).registerSymbols symbols

namespace SignalReceiver

/-- What is served by id is the stored copy, once it has bids. -/
theorem getOrderBookById_eq_some {r : SignalReceiver} {id : ℕ} {book : BookEntry} :
    r.getOrderBookById id = some book ↔ r.obsById[id]? = some book ∧ book.bids ≠ [] := by
  unfold getOrderBookById
  cases r.obsById[id]? with
  | none => simp
  | some held =>
    by_cases hbids : held.bids = []
    · simp only [hbids, if_true, reduceCtorEq, Option.some.injEq, false_iff, not_and, not_not]
      rintro rfl
      exact hbids
    · simp only [hbids, if_false, Option.some.injEq, iff_self_and]
      rintro rfl
      exact hbids

theorem getOrderBookById_init (defaultExchange : String) (symbols : List String) (id : ℕ) :
    (init defaultExchange symbols).getOrderBookById id = none := by
  rw [Option.eq_none_iff_forall_ne_some]
  intro book hbook
  obtain ⟨hslot, hbids⟩ := getOrderBookById_eq_some.mp hbook
  have hempty : book = emptyBook := List.eq_of_mem_replicate (List.mem_of_getElem? hslot)
  exact hbids (congrArg BookEntry.bids hempty)

end SignalReceiver

end TradingSim.Bot
