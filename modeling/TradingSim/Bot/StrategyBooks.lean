import TradingSim.Bot.BookCopies
import TradingSim.Foundations.MachineIntegers

/-!
# The books the strategy loops evaluate

Every iteration of the main loop walks over the configured symbols, brings the order book of each
into one shared buffer and hands the buffer to the signal engine. A lookup that finds nothing leaves
the buffer as it was. Without a price there is no synthetic book either, so the loop of the second
engine goes on with what the buffer held before; the loop of the first engine skips the symbol.
-/

namespace TradingSim.Bot

open Foundations
open Feed
open Market (Candle)

/-- The receiver with its candle histories, by exchange and symbol and again by id. -/
structure MarketStore extends SignalReceiver where
  candleHistory : Dict String (List Candle) := Dict.empty
  candlesById : List (List Candle) := []

/-- Add a candle to a history. One that has grown past 256 candles is cut to its last 200. -/
def pushCandle (history : List Candle) (candle : Candle) : List Candle :=
  let history := history ++ [candle]
  if 256 < history.length then history.drop (history.length - 200) else history

namespace MarketStore

variable (m : MarketStore)

/-- The store as the bot sets it up. -/
def init (defaultExchange : String) (symbols : List String) : MarketStore where
  toSignalReceiver := SignalReceiver.init defaultExchange symbols
  candlesById := List.replicate symbols.length []

/-- File a candle as it was read. -/
def fileCandle (m : MarketStore) (candle : Candle) : MarketStore :=
  let key := bookKey (candle.exchange, candle.symbol)
  { m with
    candleHistory :=
      m.candleHistory.insert key (pushCandle ((m.candleHistory.find? key).getD []) candle)
    candlesById :=
      if m.primaryExchange candle.exchange then
        match m.symbolToId.find? candle.symbol with
        | some id => m.candlesById.modify id fun history => pushCandle history candle
        | none => m.candlesById
      else m.candlesById }

/-- One candle of `update_candles`. Its time is read as a 32-bit integer. -/
def updateCandle (m : MarketStore) (candle : Candle) : MarketStore :=
  m.fileCandle { candle with timestamp := wrap32 candle.timestamp }

def updateCandles (candles : List Candle) : MarketStore := candles.foldl updateCandle m

theorem toSignalReceiver_updateCandles (candles : List Candle) :
    (m.updateCandles candles).toSignalReceiver = m.toSignalReceiver := by
  have hstep (s : MarketStore) (candle : Candle) :
      (s.updateCandle candle).toSignalReceiver = s.toSignalReceiver := rfl
  exact run_unchanged MarketStore.toSignalReceiver hstep m candles

/-- Process a market message: prices and books, then its candles. -/
def handleMarketData (frame : MarketFrame) : MarketStore :=
  { m with
    toSignalReceiver := m.toSignalReceiver.handleMarketData frame }.updateCandles frame.candles

def injectSnapshot (id : ℕ) (bid ask volume : ℚ) : MarketStore :=
  { m with toSignalReceiver := m.toSignalReceiver.injectSnapshot id bid ask volume }

/-- The last `n` candles of an id. -/
def getCandlesById (id n : ℕ) : List Candle :=
  let history := m.candlesById.getD id []
  history.drop (history.length - n)

/-- What is stored for a symbol: by the default exchange, else by shared memory, else under the
bare symbol. -/
def findForSymbol {α : Type} (stored : Dict String α) (sym : String) : Option α :=
  (stored.find? (if m.defaultExchange = "" then sym else bookKey (m.defaultExchange, sym))).or
    ((if m.defaultExchange ≠ "shm" then stored.find? (bookKey ("shm", sym)) else none).or
      (stored.find? sym))

def getOrderBook (sym : String) : Option BookEntry := m.findForSymbol m.orderBooks sym

def getPrice (sym : String) : ℚ := (m.findForSymbol m.prices sym).getD 0

/-- The last `n` candles of a symbol. -/
def getCandles (sym : String) (n : ℕ) : List Candle :=
  let history := (m.findForSymbol m.candleHistory sym).getD []
  history.drop (history.length - n)

end MarketStore

/-- Neither side of the book is empty. -/
def TwoSided (book : BookEntry) : Prop := book.bids ≠ [] ∧ book.asks ≠ []

instance (book : BookEntry) : Decidable (TwoSided book) := inferInstanceAs (Decidable (_ ∧ _))

/-- The book that stands in for a missing one: ten levels a side, one basis point apart. -/
def syntheticBook (exchange symbol : String) (price : ℚ) : BookEntry where
  exchange := exchange
  symbol := symbol
  bids := (List.range 10).map fun i => ⟨price * (1 - (i + 1) / 10000), 1⟩
  asks := (List.range 10).map fun i => ⟨price * (1 + (i + 1) / 10000), 1⟩

/-- The market data and the buffer that the strategy loops share. -/
structure StrategyLoop where
  market : MarketStore
  obBuf : BookEntry := emptyBook

namespace StrategyLoop

variable (x : StrategyLoop)

def init (defaultExchange : String) (symbols : List String) : StrategyLoop where
  market := .init defaultExchange symbols

/-- The id of an entry of the symbol list. It has sixteen bits. -/
def symId (i : ℕ) : ℕ := i % 2 ^ 16

/-- What `prepare_order_book` leaves in the buffer. -/
def prepareOrderBook (id : ℕ) (symbol : String) : BookEntry :=
  let found := x.market.getOrderBookById id
  let book := found.getD x.obBuf
  if found.isSome ∧ TwoSided book then book
  else
    let price := x.market.getPriceById id
    if price = 0 then book else syntheticBook x.market.defaultExchange symbol price

/-- One symbol of `run_v2_signal_loop`: the buffer afterwards, and the book that the engine and the
order selector get if the symbol is evaluated. -/
def evaluateV2 (i : ℕ) (symbol : String) : BookEntry × Option BookEntry :=
  if (x.market.getCandlesById (symId i) 100).length < 30 then (x.obBuf, none)
  else
    let book := x.prepareOrderBook (symId i) symbol
    (book, if TwoSided book then some book else none)

/-- One symbol of `run_v1_fallback_loop`. -/
def evaluateV1 (symbol : String) : BookEntry × Option BookEntry :=
  if (x.market.getCandles symbol 100).length < 30 then (x.obBuf, none)
  else
    let found := x.market.getOrderBook symbol
    let book := found.getD x.obBuf
    if found.isSome ∧ TwoSided book then (book, some book)
    else
      let price := x.market.getPrice symbol
      if price = 0 then (book, none)
      else
        let book := syntheticBook x.market.defaultExchange symbol price
        (book, some book)

/-- The buffer with the book of a queued signal: cleared first, so a miss leaves it empty. -/
def loadForSignal (symbol : String) : BookEntry :=
  (x.market.getOrderBook symbol).getD { x.obBuf with bids := [], asks := [] }

end StrategyLoop

/-- What happens around the strategy loops. A sweep is one step for each entry of the symbol list. -/
inductive LoopEvent where
  | frame (frame : MarketFrame)
  | inject (id : ℕ) (bid ask volume : ℚ)
  | aiSignal (symbol : String)
  | entryV2 (i : ℕ)
  | entryV1 (i : ℕ)

namespace StrategyLoop

def step (x : StrategyLoop) : LoopEvent → StrategyLoop
  | .frame frame => { x with market := x.market.handleMarketData frame }
  | .inject id bid ask volume => { x with market := x.market.injectSnapshot id bid ask volume }
  | .aiSignal symbol => { x with obBuf := x.loadForSignal symbol }
  | .entryV2 i =>
    match x.market.idToSymbol[i]? with
    | some symbol => { x with obBuf := (x.evaluateV2 i symbol).1 }
    | none => x
  | .entryV1 i =>
    match x.market.idToSymbol[i]? with
    | some symbol => { x with obBuf := (x.evaluateV1 symbol).1 }
    | none => x

/-- The sweep of `run_v2_signal_loop` over a list of so many symbols. -/
def sweepV2 (count : ℕ) : List LoopEvent := (List.range count).map .entryV2

/-- The sweep of `run_v1_fallback_loop`. -/
def sweepV1 (count : ℕ) : List LoopEvent := (List.range count).map .entryV1

/-- A book is the one the store has for a symbol, or made of the symbol's price. -/
def IsOwn (x : StrategyLoop) (symbol : String) (stored : Option BookEntry) (price : ℚ)
    (book : BookEntry) : Prop :=
  stored = some book ∧ book.symbol = symbol ∨
    price ≠ 0 ∧ book = syntheticBook x.market.defaultExchange symbol price

instance (x : StrategyLoop) (symbol : String) (stored : Option BookEntry) (price : ℚ)
    (book : BookEntry) : Decidable (x.IsOwn symbol stored price book) :=
  inferInstanceAs (Decidable (_ ∧ _ ∨ _ ∧ _))

/-- A symbol is evaluated on its own book only. -/
def EvaluatesOwn (x : StrategyLoop) : LoopEvent → Prop
  | .entryV2 i => ∀ symbol ∈ x.market.idToSymbol[i]?, ∀ book ∈ (x.evaluateV2 i symbol).2,
      x.IsOwn symbol (x.market.getOrderBookById (symId i)) (x.market.getPriceById (symId i)) book
  | .entryV1 i => ∀ symbol ∈ x.market.idToSymbol[i]?, ∀ book ∈ (x.evaluateV1 symbol).2,
      x.IsOwn symbol (x.market.getOrderBook symbol) (x.market.getPrice symbol) book
  | _ => True

/-- A symbol with candles enough to be evaluated has a book with bids or a price, or what is left in
the buffer has a side missing. -/
def QuotedOrEmpty (x : StrategyLoop) : LoopEvent → Prop
  | .entryV2 i => i < x.market.idToSymbol.length → 30 ≤ (x.market.getCandlesById (symId i) 100).length →
        x.market.getOrderBookById (symId i) ≠ none ∨ x.market.getPriceById (symId i) ≠ 0 ∨
          ¬ TwoSided x.obBuf
  | _ => True

instance (x : StrategyLoop) (e : LoopEvent) : Decidable (x.EvaluatesOwn e) := by
  cases e <;> unfold EvaluatesOwn <;> infer_instance

instance (x : StrategyLoop) (e : LoopEvent) : Decidable (x.QuotedOrEmpty e) := by
  cases e <;> unfold QuotedOrEmpty <;> infer_instance

end StrategyLoop

section Filing

theorem find?_numbered_sound (symbols : List String) (n : ℕ) (ids : Dict String ℕ) {sym : String} {id : ℕ}
    (h : ((symbols.zipIdx n).foldl (fun ids e => ids.insert e.1 (e.2 % 2 ^ 16)) ids).find? sym = some id) :
    ids.find? sym = some id ∨ ∃ i, symbols[i]? = some sym ∧ id = (n + i) % 2 ^ 16 := by
  induction symbols generalizing n ids with
  | nil => exact Or.inl h
  | cons head rest ih =>
    obtain hfound | ⟨i, hi, hid⟩ := ih (n + 1) _ h
    · rw [Dict.find?_insert] at hfound
      split_ifs at hfound with hsame
      · exact Or.inr ⟨0, by rw [hsame]; rfl, (Option.some_inj.mp hfound).symm⟩
      · exact Or.inl hfound
    · exact Or.inr ⟨i + 1, hi, by rw [hid, Nat.add_right_comm, Nat.add_assoc]⟩

theorem getElem?_of_find?_symbolIds {symbols : List String} (hfit : symbols.length ≤ 2 ^ 16)
    {sym : String} {id : ℕ} (h : (symbolIds symbols).find? sym = some id) : symbols[id]? = some sym := by
  obtain hempty | ⟨i, hi, rfl⟩ := find?_numbered_sound symbols 0 Dict.empty h
  · cases hempty
  · obtain ⟨hlt, -⟩ := List.getElem?_eq_some_iff.mp hi
    rw [Nat.zero_add, Nat.mod_eq_of_lt (lt_of_lt_of_le hlt hfit)]
    exact hi

variable {defaultExchange : String} {symbols : List String}

/-- Every stored book is filed under its own symbol: by id, once it has bids, and by name. -/
def Filed (symbols : List String) (r : SignalReceiver) : Prop :=
  (∀ (id : ℕ) (book : BookEntry), r.obsById[id]? = some book → book.bids ≠ [] →
      symbols[id]? = some book.symbol) ∧
    ∀ key book, r.orderBooks.find? key = some book → bookKey (book.exchange, book.symbol) = key

/-- The registration is that of the symbol list, and every book is filed under its symbol. -/
def Registered (defaultExchange : String) (symbols : List String) (r : SignalReceiver) : Prop :=
  r.config = (SignalReceiver.init defaultExchange symbols).config ∧ Filed symbols r

theorem registered_init (defaultExchange : String) (symbols : List String) :
    Registered defaultExchange symbols (.init defaultExchange symbols) := by
  refine ⟨rfl, ?_, ?_⟩
  · intro id book hbook hbids
    have hempty : book = emptyBook := List.eq_of_mem_replicate (List.mem_of_getElem? hbook)
    exact absurd (congrArg BookEntry.bids hempty) hbids
  · intro key book hbook
    cases hbook

theorem registered_storeBook (hfit : symbols.length ≤ 2 ^ 16) {r : SignalReceiver}
    (h : Registered defaultExchange symbols r) (book : BookEntry) :
    Registered defaultExchange symbols (r.storeBook book) := by
  obtain ⟨hconfig, hbyId, hkeyed⟩ := h
  refine ⟨hconfig, ?_, ?_⟩
  · intro id stored hstored hbids
    simp only [SignalReceiver.storeBook] at hstored
    split at hstored
    · split at hstored
      · rename_i id' hid
        rw [List.getElem?_set] at hstored
        split_ifs at hstored with hsame
        · obtain rfl : book = stored := Option.some_inj.mp hstored
          have hids : r.symbolToId = symbolIds symbols := congrArg (·.2.1) hconfig
          rw [hids] at hid
          rw [← hsame]
          exact getElem?_of_find?_symbolIds hfit hid
        · exact hbyId id stored hstored hbids
      · exact hbyId id stored hstored hbids
    · exact hbyId id stored hstored hbids
  · intro key stored hstored
    simp only [SignalReceiver.storeBook, Dict.find?_insert] at hstored
    split_ifs at hstored with hsame
    · obtain rfl : book = stored := Option.some_inj.mp hstored
      exact hsame.symm
    · exact hkeyed key stored hstored

theorem registered_updateOrderbooks (hfit : symbols.length ≤ 2 ^ 16) {r : SignalReceiver}
    (h : Registered defaultExchange symbols r) (books : Dict String BookEntry) :
    Registered defaultExchange symbols (r.updateOrderbooks books) := by
  have hstep (s : SignalReceiver) (e : String × BookEntry)
      (hs : Registered defaultExchange symbols s) :
      Registered defaultExchange symbols (s.storeBook e.2) := registered_storeBook hfit hs e.2
  exact run_invariant hstep books.entries h

theorem registered_storeFull (hfit : symbols.length ≤ 2 ^ 16) {r : SignalReceiver}
    (h : Registered defaultExchange symbols r) (frame : MarketFrame) :
    Registered defaultExchange symbols (r.storeFull frame) := by
  unfold SignalReceiver.storeFull
  cases frame.prices with
  | none =>
    cases frame.orderbooks with
    | none => exact h
    | some books => exact registered_updateOrderbooks hfit h books
  | some prices =>
    have hprices : Registered defaultExchange symbols (r.updatePrices prices) =
        Registered defaultExchange symbols r :=
      updatePrices_unchanged (Registered defaultExchange symbols) (fun _ _ _ => rfl) prices
    have hpriced := hprices.mpr h
    cases frame.orderbooks with
    | none => exact hpriced
    | some books => exact registered_updateOrderbooks hfit hpriced books

theorem bookKey_applyEntries (deltas : List DeltaEntry) (book : BookEntry) :
    let changed := deltas.foldl Decoder.bot.applyEntry book
    bookKey (changed.exchange, changed.symbol) = bookKey (book.exchange, book.symbol) := by
  induction deltas generalizing book with
  | nil => rfl
  | cons delta rest ih => exact ih (Decoder.bot.applyEntry book delta)

/-- The changes of a message leave every book filed where it is. -/
theorem registered_handleMarketData (hfit : symbols.length ≤ 2 ^ 16) {r : SignalReceiver}
    (h : Registered defaultExchange symbols r) (frame : MarketFrame) :
    Registered defaultExchange symbols (r.handleMarketData frame) := by
  obtain ⟨hconfig, hbyId, hkeyed⟩ := registered_storeFull hfit h frame
  refine ⟨?_, ?_, ?_⟩
  · exact (config_handleMarketData frame).trans h.1
  · rw [obsById_handleMarketData]
    exact hbyId
  · intro key book hbook
    rw [find?_handleMarketData] at hbook
    obtain ⟨full, hfull, rfl⟩ := Option.map_eq_some_iff.mp hbook
    exact (bookKey_applyEntries _ full).trans (hkeyed key full hfull)

theorem registered_injectSnapshot {r : SignalReceiver} (h : Registered defaultExchange symbols r)
    (id : ℕ) (bid ask volume : ℚ) :
    Registered defaultExchange symbols (r.injectSnapshot id bid ask volume) := by
  unfold SignalReceiver.injectSnapshot
  cases hid : r.idToSymbol[id]? with
  | none => exact h
  | some sym =>
    obtain ⟨hconfig, hbyId, hkeyed⟩ := h
    refine ⟨hconfig, ?_, ?_⟩
    · intro id' book hbook hbids
      rw [List.getElem?_modify] at hbook
      split_ifs at hbook with hsame
      · obtain ⟨held, -, rfl⟩ := Option.map_eq_some_iff.mp hbook
        have hsymbols : r.idToSymbol = symbols := congrArg (·.2.2) hconfig
        rw [← hsame, ← hsymbols]
        exact hid
      · exact hbyId id' book (by simpa using hbook) hbids
    · intro key book hbook
      rw [Dict.find?_insert] at hbook
      split_ifs at hbook with hsame
      · obtain rfl := Option.some_inj.mp hbook
        exact hsame.symm
      · exact hkeyed key book hbook

theorem symbol_of_getOrderBook {m : MarketStore} (hfiled : Filed symbols m.toSignalReceiver)
    (hdefault : '|' ∉ m.defaultExchange.toList) {sym : String} (hsym : '|' ∉ sym.toList)
    {book : BookEntry} (h : m.getOrderBook sym = some book) : book.symbol = sym := by
  have hqualified {ex : String} (hex : '|' ∉ ex.toList)
      (hfound : m.orderBooks.find? (bookKey (ex, sym)) = some book) : book.symbol = sym :=
    congrArg Prod.snd ((bookKey_eq_iff hex hsym _).mp (hfiled.2 _ _ hfound))
  have hbare : m.orderBooks.find? sym ≠ some book := by
    -- Every key has the separator in it.
    intro hfound
    apply hsym
    rw [← hfiled.2 _ _ hfound]
    simp [bookKey]
  rw [MarketStore.getOrderBook, MarketStore.findForSymbol, Option.or_eq_some_iff,
    Option.or_eq_some_iff] at h
  obtain hfound | ⟨-, hfound | ⟨-, hfound⟩⟩ := h
  · split_ifs at hfound
    · exact absurd hfound hbare
    · exact hqualified hdefault hfound
  · split_ifs at hfound
    exact hqualified (by decide) hfound
  · exact absurd hfound hbare

end Filing

namespace StrategyLoop

variable {defaultExchange : String} {symbols : List String}

/-- Every step keeps the books filed under their symbols. -/
theorem registered_step (hfit : symbols.length ≤ 2 ^ 16) (x : StrategyLoop) (e : LoopEvent)
    (h : Registered defaultExchange symbols x.market.toSignalReceiver) :
    Registered defaultExchange symbols (x.step e).market.toSignalReceiver := by
  cases e with
  | frame frame =>
    simp only [step, MarketStore.handleMarketData, MarketStore.toSignalReceiver_updateCandles]
    exact registered_handleMarketData hfit h frame
  | inject id bid ask volume => exact registered_injectSnapshot h id bid ask volume
  | aiSignal symbol => exact h
  | entryV2 i =>
    simp only [step]
    cases x.market.idToSymbol[i]? <;> exact h
  | entryV1 i =>
    simp only [step]
    cases x.market.idToSymbol[i]? <;> exact h

theorem isOwn_prepareOrderBook_of_found {x : StrategyLoop} {id : ℕ} {held book : BookEntry}
    (hfound : x.market.getOrderBookById id = some held)
    (hprepared : x.prepareOrderBook id held.symbol = book) (htwoSided : TwoSided book) :
    x.IsOwn held.symbol (some held) (x.market.getPriceById id) book := by
  unfold prepareOrderBook at hprepared
  simp only [hfound, Option.getD_some, Option.isSome_some, true_and] at hprepared
  split_ifs at hprepared with hheld hprice
  · exact Or.inl ⟨congrArg some hprepared, hprepared ▸ rfl⟩
  · exact absurd htwoSided (hprepared ▸ hheld)
  · exact Or.inr ⟨hprice, hprepared.symm⟩

theorem prepareOrderBook_of_missing {x : StrategyLoop} {id : ℕ}
    (hmissing : x.market.getOrderBookById id = none) (symbol : String) :
    x.prepareOrderBook id symbol = if x.market.getPriceById id = 0 then x.obBuf
      else syntheticBook x.market.defaultExchange symbol (x.market.getPriceById id) := by
  simp only [prepareOrderBook, hmissing, Option.isSome_none, Bool.false_eq_true, false_and,
    if_false, Option.getD_none]

theorem mem_evaluateV2 {x : StrategyLoop} {i : ℕ} {symbol : String} {book : BookEntry} :
    book ∈ (x.evaluateV2 i symbol).2 ↔ 30 ≤ (x.market.getCandlesById (symId i) 100).length ∧
        x.prepareOrderBook (symId i) symbol = book ∧ TwoSided book := by
  unfold evaluateV2
  split_ifs with hfew
  · simp [not_le.mpr hfew]
  · rw [Option.mem_def, Option.ite_none_right_eq_some, Option.some_inj]
    constructor
    · rintro ⟨htwoSided, rfl⟩
      exact ⟨not_lt.mp hfew, rfl, htwoSided⟩
    · rintro ⟨-, rfl, htwoSided⟩
      exact ⟨htwoSided, rfl⟩

/-- The second engine evaluates a symbol on its own book exactly when the symbol has a book with
bids or a price, or the buffer has a side missing. -/
theorem evaluatesOwn_entryV2 (hfit : symbols.length ≤ 2 ^ 16) {x : StrategyLoop}
    (h : Registered defaultExchange symbols x.market.toSignalReceiver) (i : ℕ) :
    x.EvaluatesOwn (.entryV2 i) ↔ x.QuotedOrEmpty (.entryV2 i) := by
  have hsymbols : x.market.idToSymbol = symbols := congrArg (·.2.2) h.1
  simp only [EvaluatesOwn, QuotedOrEmpty, hsymbols]
  by_cases hi : i < symbols.length
  · have hplace : symId i = i := Nat.mod_eq_of_lt (lt_of_lt_of_le hi hfit)
    simp only [List.getElem?_eq_getElem hi, Option.mem_some, forall_eq', hi, true_implies,
      mem_evaluateV2, and_imp]
    cases hfound : x.market.getOrderBookById (symId i) with
    | some held =>
      refine iff_of_true (fun book _ hprepared htwoSided => ?_) (fun _ => Or.inl (by simp))
      obtain ⟨hslot, hbids⟩ := SignalReceiver.getOrderBookById_eq_some.mp hfound
      have hsymbol : symbols[i] = held.symbol := by
        have hfiled := h.2.1 _ _ hslot hbids
        rw [hplace, List.getElem?_eq_getElem hi] at hfiled
        exact Option.some_inj.mp hfiled
      rw [hsymbol] at hprepared ⊢
      exact isOwn_prepareOrderBook_of_found hfound hprepared htwoSided
    | none =>
      rw [prepareOrderBook_of_missing hfound]
      by_cases hprice : x.market.getPriceById (symId i) = 0
      · -- Nothing stands in for the book: what the buffer holds is evaluated.
        have hnever (book : BookEntry) :
            ¬ x.IsOwn symbols[i] none (x.market.getPriceById (symId i)) book := by
          rintro (⟨hstored, -⟩ | ⟨hpriced, -⟩)
          · cases hstored
          · exact hpriced hprice
        simp only [hprice, if_true] at hnever ⊢
        constructor
        · intro howns hcandles
          exact Or.inr (Or.inr fun htwoSided => hnever _ (howns _ hcandles rfl htwoSided))
        · rintro hquoted book hcandles rfl htwoSided
          obtain hheld | hpriced | hempty := hquoted hcandles
          · exact absurd rfl hheld
          · exact absurd rfl hpriced
          · exact absurd htwoSided hempty
      · simp only [hprice, if_false]
        refine iff_of_true ?_ (fun _ => Or.inr (Or.inl hprice))
        rintro book - rfl -
        exact Or.inr ⟨hprice, rfl⟩
  · simp [hi]

theorem evaluatesOwn_entryV1 {x : StrategyLoop}
    (h : Registered defaultExchange symbols x.market.toSignalReceiver)
    (hdefault : '|' ∉ defaultExchange.toList) (hsymbols : ∀ sym ∈ symbols, '|' ∉ sym.toList)
    (i : ℕ) : x.EvaluatesOwn (.entryV1 i) := by
  intro symbol hsymbol book hbook
  have hmem : symbol ∈ symbols := by
    rw [show symbols = x.market.idToSymbol from (congrArg (·.2.2) h.1).symm]
    exact List.mem_of_getElem? hsymbol
  have hexchange : '|' ∉ x.market.defaultExchange.toList := by
    rw [show x.market.defaultExchange = defaultExchange from congrArg (·.1) h.1]
    exact hdefault
  simp only [evaluateV1] at hbook
  split_ifs at hbook with hfew hfound hprice
  · cases hbook
  · obtain rfl := Option.some_inj.mp hbook
    obtain ⟨held, hheld⟩ := Option.isSome_iff_exists.mp hfound.1
    rw [hheld, Option.getD_some]
    exact Or.inl ⟨rfl, symbol_of_getOrderBook h.2 hexchange (hsymbols symbol hmem) hheld⟩
  · cases hbook
  · exact Or.inr ⟨hprice, (Option.some_inj.mp hbook).symm⟩

/-- Whatever arrives in between, the loops evaluate every symbol on its own book exactly when each
symbol that the second engine evaluates has a book with bids or a price, or the buffer has a side
missing. -/
theorem evaluatesOwn_iff_quotedOrEmpty (defaultExchange : String) (symbols : List String)
    (events : List LoopEvent) (hfit : symbols.length ≤ 2 ^ 16)
    (hdefault : '|' ∉ defaultExchange.toList) (hsymbols : ∀ sym ∈ symbols, '|' ∉ sym.toList) :
    Along step EvaluatesOwn (init defaultExchange symbols) events ↔
      Along step QuotedOrEmpty (init defaultExchange symbols) events := by
  refine along_congr (fun x => Registered defaultExchange symbols x.market.toSignalReceiver)
    (fun x e h _ => registered_step hfit x e h) (fun x e h => ?_) events
    (registered_init defaultExchange symbols)
  cases e with
  | entryV2 i => exact evaluatesOwn_entryV2 hfit h i
  | entryV1 i => exact iff_of_true (evaluatesOwn_entryV1 h hdefault hsymbols i) trivial
  | _ => exact Iff.rfl

section Example

def flatCandle (symbol : String) : Candle where
  timestamp := 0
  openP := 100
  highP := 100
  lowP := 100
  closeP := 100
  volume := 1
  symbol := symbol
  exchange := "binance"

/-- Thirty candles of two symbols, a book of the first and the prices given. -/
def openingFrame (prices : Dict String ℚ) : MarketFrame where
  type := .candles
  timestamp := 0
  candles := List.replicate 30 (flatCandle "BTC") ++ List.replicate 30 (flatCandle "ETH")
  orderbooks := some (Dict.empty.insert "binance|BTC" ⟨"binance", "BTC", [⟨99, 1⟩], [⟨101, 1⟩]⟩)
  prices := some (Dict.empty.insert "binance" prices)

end Example

/-- A symbol without book and price is evaluated on the book of the symbol before it. -/
theorem not_evaluatesOwn_withoutPrice : ¬ Along step EvaluatesOwn (init "binance" ["BTC", "ETH"])
      (.frame (openingFrame (Dict.empty.insert "BTC" 100)) :: sweepV2 2) := by
  decide +kernel

/-- With prices of both symbols, both loops evaluate each of them on its own book. -/
theorem evaluatesOwn_withPrices : Along step EvaluatesOwn (init "binance" ["BTC", "ETH"])
      (.frame (openingFrame ((Dict.empty.insert "BTC" 100).insert "ETH" 10)) ::
        (sweepV2 2 ++ sweepV1 2)) :=
  (evaluatesOwn_iff_quotedOrEmpty "binance" ["BTC", "ETH"] _ (by decide) (by decide)
    (by decide)).mpr (by decide +kernel)

end StrategyLoop

end TradingSim.Bot
