import Mathlib.Data.List.TakeWhile
import TradingSim.Bot.StrategyBooks
import TradingSim.Foundations.Json

/-!
# The current price and the book of a symbol

A price of the default exchange and a snapshot from shared memory are stored under keys of their own
and share one slot of the by-id prices. A lookup by symbol prefers the default exchange, a lookup by
id gives what came last, and the table for all symbols walks over the stored prices in the order of
the hash map, which is a parameter here.
-/

namespace TradingSim.Bot

open Foundations
open Exchange (OrderBookLevel)
open Feed

namespace SignalReceiver

/-- The symbol under which a stored price is shown to the position manager; none for a price of another
exchange. -/
def bareSymbol (r : SignalReceiver) (key : String) : Option String :=
  let chars := key.toList
  if '|' ∈ chars then
    let venue := String.ofList (chars.takeWhile (· ≠ '|'))
    if venue = r.defaultExchange ∨ venue = "shm" then
      some (String.ofList (((chars.dropWhile (· ≠ '|')).drop 1).takeWhile (· ≠ Char.ofNat 0)))
    else none
  else some key

/-- The prices of all symbols, read off the stored ones in the order they are walked over. -/
def getAllPricesInto (r : SignalReceiver) (iteration : List (String × ℚ)) : Dict String ℚ :=
  iteration.foldl (fun out e =>
    match r.bareSymbol e.1 with
    | some sym => out.insert sym e.2
    | none => out) Dict.empty

end SignalReceiver

/-- What brings market data: a message of the feed or a snapshot from shared memory. -/
inductive MarketEvent
  | frame (frame : MarketFrame)
  | inject (id : ℕ) (bid ask volume : ℚ)

/-- The price that a message has for a symbol of an exchange. -/
def MarketFrame.priceOf (frame : MarketFrame) (exchange sym : String) : Option ℚ :=
  frame.prices.bind fun prices => (prices.find? exchange).bind fun symbols => symbols.find? sym

/-- The prices that a message has for the symbols of an exchange, in order. -/
def MarketFrame.pricesFrom (frame : MarketFrame) (exchange : String) : List (String × ℚ) :=
  (frame.prices.bind fun prices => prices.find? exchange).elim [] Dict.entries

namespace MarketEvent

/-- The price that an event brings from an exchange. -/
def venuePrice (exchange sym : String) : MarketEvent → Option ℚ
  | .frame message => message.priceOf exchange sym
  | .inject _ _ _ _ => none

/-- The price that an event brings from shared memory: the middle of bid and ask. -/
def snapshotMid (symbols : List String) (sym : String) : MarketEvent → Option ℚ
  | .frame _ => none
  | .inject id bid ask _ => if symbols[id]? = some sym then some ((bid + ask) / 2) else none

/-- The price that an event brings from either of them. -/
def received (exchange : String) (symbols : List String) (sym : String) (e : MarketEvent) : Option ℚ :=
  (e.venuePrice exchange sym).or (e.snapshotMid symbols sym)

end MarketEvent

/-- The best bid is no higher than the best ask. -/
def Uncrossed (book : BookEntry) : Prop :=
  ∀ bid ∈ book.bids.head?, ∀ ask ∈ book.asks.head?, bid.price ≤ ask.price

instance (book : BookEntry) : Decidable (Uncrossed book) := by
  unfold Uncrossed
  infer_instance

/-- Bids do not rise and asks do not fall from level to level. -/
structure LevelsOrdered (book : BookEntry) : Prop where
  bids : book.bids.Pairwise fun a b => b.price ≤ a.price
  asks : book.asks.Pairwise fun a b => a.price ≤ b.price

instance (book : BookEntry) : Decidable (LevelsOrdered book) :=
  decidable_of_iff ((book.bids.Pairwise fun a b => b.price ≤ a.price) ∧
    book.asks.Pairwise fun a b => a.price ≤ b.price) ⟨fun h => ⟨h.1, h.2⟩, fun h => ⟨h.1, h.2⟩⟩

/-- Names under which the prices of a symbol can be told apart from all others. -/
structure PlainNames (defaultExchange : String) (symbols : List String) : Prop where
  default_ne_empty : defaultExchange ≠ ""
  default_ne_shm : defaultExchange ≠ "shm"
  default_plain : '|' ∉ defaultExchange.toList
  nodup : symbols.Nodup
  fit : symbols.length ≤ 2 ^ 16
  symbol_plain : ∀ sym ∈ symbols, '|' ∉ sym.toList ∧ Char.ofNat 0 ∉ sym.toList

namespace MarketEvent

/-- A message of the default exchange with uncrossed and ordered books, or a snapshot of a registered symbol
with a quote. -/
def FromVenue (defaultExchange : String) (symbols : List String) : MarketEvent → Prop
  | .frame message =>
    (∀ prices ∈ message.prices, ∀ e ∈ prices.entries,
        e.1 = defaultExchange ∧ ∀ p ∈ e.2.entries, Char.ofNat 0 ∉ p.1.toList) ∧ ∀ book ∈ message.fullBooks,
        book.exchange = defaultExchange ∧ Uncrossed book ∧ LevelsOrdered book
  | .inject id bid ask _ => id < symbols.length ∧ 0 < bid ∧ bid ≤ ask

instance (defaultExchange : String) (symbols : List String) (e : MarketEvent) :
    Decidable (e.FromVenue defaultExchange symbols) := by
  cases e <;> unfold FromVenue <;> infer_instance

end MarketEvent

namespace MarketStore

def receive (m : MarketStore) : MarketEvent → MarketStore
  | .frame message => m.handleMarketData message
  | .inject id bid ask volume => m.injectSnapshot id bid ask volume

/-- Every price that can be asked for is the given one. -/
def OnePrice (m : MarketStore) (id : ℕ) (sym : String) (price : ℚ) : Prop :=
  m.getPrice sym = price ∧ m.getPriceById id = price ∧
    ∀ iteration : List (String × ℚ), iteration.Perm m.prices.entries →
      (m.getAllPricesInto iteration).find? sym = some price

/-- A snapshot quotes no worse than the second levels of the book it is put on. -/
def KeepsDepth (m : MarketStore) : MarketEvent → Prop
  | .frame _ => True
  | .inject id bid ask _ => ∀ book ∈ m.obsById[id]?,
      (∀ level ∈ book.bids[1]?, level.price ≤ bid) ∧ ∀ level ∈ book.asks[1]?, ask ≤ level.price

instance (m : MarketStore) (e : MarketEvent) : Decidable (m.KeepsDepth e) := by
  cases e <;> unfold KeepsDepth <;> infer_instance

end MarketStore

section Names

theorem bareSymbol_bookKey (r : SignalReceiver) {ex sym : String} (hex : '|' ∉ ex.toList)
    (hsym : Char.ofNat 0 ∉ sym.toList) : r.bareSymbol (bookKey (ex, sym)) =
      if ex = r.defaultExchange ∨ ex = "shm" then some sym else none := by
  have hchars : (bookKey (ex, sym)).toList = ex.toList ++ '|' :: sym.toList := by simp [bookKey]
  have hne {c : Char} {l : List Char} (hc : c ∉ l) : ∀ a ∈ l, decide (a ≠ c) = true := by
    intro a ha
    simpa using fun heq : a = c => hc (heq ▸ ha)
  obtain ⟨hvenue, hbehind⟩ := Json.takeWhile_append_cons (c := '|') sym.toList (hne hex) (by simp)
  have hwhole := List.takeWhile_eq_self_iff.mpr (hne hsym)
  simp only [SignalReceiver.bareSymbol, hchars, hvenue, hbehind, hwhole, List.mem_append,
    List.mem_cons, true_or, or_true, if_true, String.ofList_toList, List.drop_one, List.tail_cons]

variable {defaultExchange : String} {symbols : List String}

theorem PlainNames.find?_symbolIds (hnames : PlainNames defaultExchange symbols) (sym : String)
    (id : ℕ) : (symbolIds symbols).find? sym = some id ↔ symbols[id]? = some sym :=
  Bot.find?_symbolIds hnames.nodup hnames.fit sym id

theorem PlainNames.venueKey_eq_iff (hnames : PlainNames defaultExchange symbols) {sym : String}
    (hsym : sym ∈ symbols) (pair : String × String) :
    bookKey pair = bookKey (defaultExchange, sym) ↔ pair = (defaultExchange, sym) :=
  bookKey_eq_iff hnames.default_plain (hnames.symbol_plain sym hsym).1 pair

theorem PlainNames.shmKey_eq_iff (hnames : PlainNames defaultExchange symbols) {sym : String}
    (hsym : sym ∈ symbols) (pair : String × String) :
    bookKey pair = bookKey ("shm", sym) ↔ pair = ("shm", sym) :=
  bookKey_eq_iff (by decide) (hnames.symbol_plain sym hsym).1 pair

end Names

section Slots

variable {defaultExchange : String} {symbols : List String} {r : SignalReceiver}

/-- Every registered symbol has its slots, and every price is stored under a key of the default
exchange or of shared memory. -/
structure HasSlots (defaultExchange : String) (symbols : List String) (r : SignalReceiver) :
    Prop where
  config : r.config = (SignalReceiver.init defaultExchange symbols).config
  prices_length : r.pricesById.length = symbols.length
  books_length : r.obsById.length = symbols.length
  keyed : ∀ key price, r.prices.find? key = some price → ∃ ex sym, bookKey (ex, sym) = key ∧
    (ex = defaultExchange ∨ ex = "shm") ∧ Char.ofNat 0 ∉ sym.toList

theorem hasSlots_init (defaultExchange : String) (symbols : List String) :
    HasSlots defaultExchange symbols (.init defaultExchange symbols) where
  config := rfl
  prices_length := List.length_replicate
  books_length := List.length_replicate
  keyed key price h := by cases h

namespace HasSlots

theorem defaultExchange_eq (h : HasSlots defaultExchange symbols r) :
    r.defaultExchange = defaultExchange := congrArg (·.1) h.config

theorem symbolToId_eq (h : HasSlots defaultExchange symbols r) :
    r.symbolToId = symbolIds symbols := congrArg (·.2.1) h.config

theorem idToSymbol_eq (h : HasSlots defaultExchange symbols r) : r.idToSymbol = symbols :=
  congrArg (·.2.2) h.config

/-- A store whose prices were not touched has its slots still. -/
theorem congr {s : SignalReceiver} (h : HasSlots defaultExchange symbols r)
    (hconfig : s.config = r.config) (hbyId : s.pricesById = r.pricesById)
    (hprices : s.prices = r.prices) (hbooks : s.obsById.length = r.obsById.length) :
    HasSlots defaultExchange symbols s where
  config := hconfig.trans h.config
  prices_length := hbyId ▸ h.prices_length
  books_length := hbooks.trans h.books_length
  keyed := hprices ▸ h.keyed

theorem primaryExchange (h : HasSlots defaultExchange symbols r) :
    r.primaryExchange defaultExchange = true := by
  simp [SignalReceiver.primaryExchange, h.defaultExchange_eq]

theorem storePrice (h : HasSlots defaultExchange symbols r) {entry : String × ℚ}
    (hentry : Char.ofNat 0 ∉ entry.1.toList) :
    HasSlots defaultExchange symbols (SignalReceiver.storePrice defaultExchange r entry) where
  config := h.config
  prices_length := by
    simp only [SignalReceiver.storePrice]
    split
    · split
      · rw [List.length_set, h.prices_length]
      · exact h.prices_length
    · exact h.prices_length
  books_length := h.books_length
  keyed := by
    intro key price hprice
    simp only [SignalReceiver.storePrice, Dict.find?_insert] at hprice
    split_ifs at hprice with hkey
    · exact ⟨defaultExchange, entry.1, hkey.symm, Or.inl rfl, hentry⟩
    · exact h.keyed key price hprice

end HasSlots

theorem pricesById_storePrice (hnames : PlainNames defaultExchange symbols)
    (h : HasSlots defaultExchange symbols r) {id : ℕ} {sym : String}
    (hid : symbols[id]? = some sym) (entry : String × ℚ) :
    (SignalReceiver.storePrice defaultExchange r entry).pricesById[id]? =
      (if entry.1 = sym then some entry.2 else none).or r.pricesById[id]? := by
  have hlt : id < r.pricesById.length := by
    rw [h.prices_length]
    exact (List.getElem?_eq_some_iff.mp hid).1
  simp only [SignalReceiver.storePrice, h.primaryExchange, if_true, h.symbolToId_eq]
  by_cases hsym : entry.1 = sym
  · rw [hsym, (hnames.find?_symbolIds sym id).mpr hid, if_pos rfl]
    simp [hlt]
  · rw [if_neg hsym, Option.none_or]
    cases hother : (symbolIds symbols).find? entry.1 with
    | none => rfl
    | some id' =>
      apply List.getElem?_set_ne
      rintro rfl
      rw [hnames.find?_symbolIds, hid] at hother
      exact hsym (Option.some_inj.mp hother).symm

theorem find?_storePrice (exchange key : String) (entry : String × ℚ) :
    (SignalReceiver.storePrice exchange r entry).prices.find? key =
      (if key = bookKey (exchange, entry.1) then some entry.2 else none).or (r.prices.find? key) := by
  rw [show (SignalReceiver.storePrice exchange r entry).prices =
    r.prices.insert (bookKey (exchange, entry.1)) entry.2 from rfl, Dict.find?_insert]
  split_ifs <;> rfl

end Slots

section Messages

variable {defaultExchange : String} {symbols : List String} {r : SignalReceiver}

theorem updatePrices_of_single {prices : Dict String (Dict String ℚ)} {exchange : String}
    (hsingle : ∀ e ∈ prices.entries, e.1 = exchange) :
    r.updatePrices prices = (prices.find? exchange).elim r fun symbols =>
      run (SignalReceiver.storePrice exchange) r symbols.entries := by
  have hentries : prices.entries = ((prices.find? exchange).map fun v => (exchange, v)).toList := by
    rw [← prices.filter_entries exchange, List.filter_eq_self.mpr]
    intro e he
    exact decide_eq_true (hsingle e he)
  unfold SignalReceiver.updatePrices
  rw [hentries]
  cases prices.find? exchange <;> rfl

theorem getLast?_pricesFor (prices : Dict String ℚ) (sym : String) :
    (prices.entries.filterMap fun e => if e.1 = sym then some e.2 else none).getLast? =
      prices.find? sym := by
  have hfilter (entries : List (String × ℚ)) :
      (entries.filterMap fun e => if e.1 = sym then some e.2 else none) =
        (entries.filter fun e => e.1 = sym).map Prod.snd := by
    induction entries with
    | nil => rfl
    | cons e rest ih => by_cases hsym : e.1 = sym <;> simp [hsym, ih]
  rw [hfilter, prices.filter_entries sym]
  cases prices.find? sym <;> rfl

/-- What the changes and the full books of a message leave alone is what its prices make it. -/
theorem read_handleMarketData {α : Type*} (read : SignalReceiver → α) (frame : MarketFrame)
    (hbook : ∀ s book, read (SignalReceiver.storeBook s book) = read s)
    (hdeltas : ∀ s deltas, read (SignalReceiver.updateOrderbookDeltas s deltas) = read s) :
    read (r.handleMarketData frame) = read (frame.prices.elim r r.updatePrices) := by
  have hstep (s : SignalReceiver) (e : String × BookEntry) : read (s.storeBook e.2) = read s :=
    hbook s e.2
  have hbooks (s : SignalReceiver) (books : Dict String BookEntry) :
      read (s.updateOrderbooks books) = read s := run_unchanged read hstep s books.entries
  have hfull : read (r.storeFull frame) = read (frame.prices.elim r r.updatePrices) := by
    unfold SignalReceiver.storeFull
    cases frame.prices <;> cases frame.orderbooks <;> simp only [hbooks, Option.elim]
  unfold SignalReceiver.handleMarketData
  cases frame.orderbookDeltas with
  | none => exact hfull
  | some deltas => exact (hdeltas _ deltas).trans hfull

theorem getLast?_pricesFrom (frame : MarketFrame) (exchange sym : String) :
    ((frame.pricesFrom exchange).filterMap fun e => if e.1 = sym then some e.2 else none).getLast? =
      frame.priceOf exchange sym := by
  unfold MarketFrame.pricesFrom MarketFrame.priceOf
  cases frame.prices with
  | none => rfl
  | some prices =>
    rw [Option.bind_some, Option.bind_some]
    cases prices.find? exchange with
    | none => rfl
    | some symbols => exact getLast?_pricesFor symbols sym

theorem storedPrices_eq {frame : MarketFrame} {exchange : String}
    (hsingle : ∀ prices ∈ frame.prices, ∀ e ∈ prices.entries, e.1 = exchange) :
    frame.prices.elim r r.updatePrices =
      run (SignalReceiver.storePrice exchange) r (frame.pricesFrom exchange) := by
  unfold MarketFrame.pricesFrom
  cases hprices : frame.prices with
  | none => rfl
  | some prices =>
    rw [Option.elim_some, updatePrices_of_single (hsingle prices hprices), Option.bind_some]
    cases prices.find? exchange <;> rfl

end Messages

section Steps

variable {defaultExchange : String} {symbols : List String} {m : MarketStore}

theorem toSignalReceiver_handleMarketData (frame : MarketFrame) :
    (m.handleMarketData frame).toSignalReceiver = m.toSignalReceiver.handleMarketData frame :=
  MarketStore.toSignalReceiver_updateCandles _ _

/-- A message of the default exchange has no text that ends early. -/
theorem pricesFrom_plain {frame : MarketFrame}
    (h : (MarketEvent.frame frame).FromVenue defaultExchange symbols) :
    ∀ e ∈ frame.pricesFrom defaultExchange, Char.ofNat 0 ∉ e.1.toList := by
  intro e he
  unfold MarketFrame.pricesFrom at he
  cases hprices : frame.prices with
  | none =>
    rw [hprices] at he
    cases he
  | some prices =>
    rw [hprices, Option.bind_some] at he
    cases hfound : prices.find? defaultExchange with
    | none =>
      rw [hfound] at he
      cases he
    | some quoted =>
      rw [hfound] at he
      exact (h.1 prices hprices _ ((prices.mem_entries_iff _ _).mpr hfound)).2 e he

theorem read_receive_frame {α : Type*} (read : SignalReceiver → α) {frame : MarketFrame}
    (h : (MarketEvent.frame frame).FromVenue defaultExchange symbols)
    (hbook : ∀ s book, read (SignalReceiver.storeBook s book) = read s)
    (hdeltas : ∀ s deltas, read (SignalReceiver.updateOrderbookDeltas s deltas) = read s) :
    read (m.receive (.frame frame)).toSignalReceiver =
      read (run (SignalReceiver.storePrice defaultExchange) m.toSignalReceiver
        (frame.pricesFrom defaultExchange)) := by
  have hsingle : ∀ prices ∈ frame.prices, ∀ e ∈ prices.entries, e.1 = defaultExchange :=
    fun prices hprices e he => (h.1 prices hprices e he).1
  rw [MarketStore.receive, toSignalReceiver_handleMarketData,
    read_handleMarketData read frame hbook hdeltas, storedPrices_eq hsingle]

theorem length_obsById_storeBook (r : SignalReceiver) (book : BookEntry) :
    (r.storeBook book).obsById.length = r.obsById.length := by
  simp only [SignalReceiver.storeBook]
  split
  · split
    · exact List.length_set
    · rfl
  · rfl

theorem hasSlots_receive (hnames : PlainNames defaultExchange symbols) {e : MarketEvent}
    (he : e.FromVenue defaultExchange symbols) (h : HasSlots defaultExchange symbols m.toSignalReceiver) :
    HasSlots defaultExchange symbols (m.receive e).toSignalReceiver := by
  cases e with
  | frame message =>
    have hbook (s : SignalReceiver) (book : BookEntry) :
        HasSlots defaultExchange symbols (s.storeBook book) =
          HasSlots defaultExchange symbols s := by
      have hlength := length_obsById_storeBook s book
      exact propext ⟨fun hs => hs.congr rfl rfl rfl hlength.symm,
        fun hs => hs.congr rfl rfl rfl hlength⟩
    have hdeltas (s : SignalReceiver) (deltas : Dict String DeltaEntry) :
        HasSlots defaultExchange symbols (s.updateOrderbookDeltas deltas) =
          HasSlots defaultExchange symbols s :=
      propext ⟨fun hs => hs.congr rfl rfl rfl rfl, fun hs => hs.congr rfl rfl rfl rfl⟩
    rw [read_receive_frame (HasSlots defaultExchange symbols) he hbook hdeltas]
    exact run_invariant_of_along (HasSlots defaultExchange symbols)
      (fun s e hs hplain => hs.storePrice hplain) h
      ((along_input_iff _ _ _ _).mpr (pricesFrom_plain he))
  | inject id bid ask volume =>
    have hlt : id < symbols.length := he.1
    have hid : m.idToSymbol[id]? = some symbols[id] := by
      rw [h.idToSymbol_eq, List.getElem?_eq_getElem hlt]
    simp only [MarketStore.receive, MarketStore.injectSnapshot, SignalReceiver.injectSnapshot, hid]
    refine ⟨h.config, ?_, ?_, ?_⟩
    · rw [List.length_set, h.prices_length]
    · rw [List.length_modify, h.books_length]
    · intro key price hprice
      rw [Dict.find?_insert] at hprice
      split_ifs at hprice with hkey
      · exact ⟨"shm", symbols[id], hkey.symm, Or.inr rfl,
          (hnames.symbol_plain _ (List.getElem_mem hlt)).2⟩
      · exact h.keyed key price hprice

end Steps

section Reads

variable {defaultExchange : String} {symbols : List String} {m : MarketStore} {id : ℕ}
  {sym : String}

variable {frame : MarketFrame}

/-- Storing the prices of a message in turn leaves the last one of a symbol in its place. -/
theorem find?_receive_frame (hnames : PlainNames defaultExchange symbols) (hsym : sym ∈ symbols)
    (h : (MarketEvent.frame frame).FromVenue defaultExchange symbols) :
    (m.receive (.frame frame)).prices.find? (bookKey (defaultExchange, sym)) =
      (frame.priceOf defaultExchange sym).or (m.prices.find? (bookKey (defaultExchange, sym))) := by
  rw [read_receive_frame (fun s => s.prices.find? (bookKey (defaultExchange, sym))) h
    (fun _ _ => rfl) (fun _ _ => rfl), ← getLast?_pricesFrom]
  have hstep (s : SignalReceiver) (e : String × ℚ) (_ : True) (_ : Char.ofNat 0 ∉ e.1.toList) :
      (SignalReceiver.storePrice defaultExchange s e).prices.find? (bookKey (defaultExchange, sym)) =
        (if e.1 = sym then some e.2 else none).or
          (s.prices.find? (bookKey (defaultExchange, sym))) := by
    have hkey : bookKey (defaultExchange, sym) = bookKey (defaultExchange, e.1) ↔ e.1 = sym := by
      rw [eq_comm, hnames.venueKey_eq_iff hsym]
      simp
    simp only [find?_storePrice, hkey]
  exact run_latest (fun _ => True)
    (fun s : SignalReceiver => s.prices.find? (bookKey (defaultExchange, sym)))
    (fun e => if e.1 = sym then some e.2 else none) (fun _ _ _ _ => trivial) hstep trivial
    (pricesFrom_plain h)

/-- A price of the default exchange is not stored where the snapshots are. -/
theorem find?_shm_receive_frame (hnames : PlainNames defaultExchange symbols) (hsym : sym ∈ symbols)
    (h : (MarketEvent.frame frame).FromVenue defaultExchange symbols) :
    (m.receive (.frame frame)).prices.find? (bookKey ("shm", sym)) =
      m.prices.find? (bookKey ("shm", sym)) := by
  rw [read_receive_frame (fun s => s.prices.find? (bookKey ("shm", sym))) h
    (fun _ _ => rfl) (fun _ _ => rfl)]
  apply run_unchanged fun s : SignalReceiver => s.prices.find? (bookKey ("shm", sym))
  intro s e
  have hkey : bookKey ("shm", sym) ≠ bookKey (defaultExchange, e.1) := by
    rw [ne_comm, Ne, hnames.shmKey_eq_iff hsym]
    simp [hnames.default_ne_shm]
  rw [find?_storePrice, if_neg hkey, Option.none_or]

theorem pricesById_receive_frame (hnames : PlainNames defaultExchange symbols)
    (hslots : HasSlots defaultExchange symbols m.toSignalReceiver) (hid : symbols[id]? = some sym)
    (h : (MarketEvent.frame frame).FromVenue defaultExchange symbols) :
    (m.receive (.frame frame)).pricesById[id]? =
      (frame.priceOf defaultExchange sym).or m.pricesById[id]? := by
  rw [read_receive_frame (fun s => s.pricesById[id]?) h (fun _ _ => rfl) (fun _ _ => rfl),
    ← getLast?_pricesFrom]
  have hinv (s : SignalReceiver) (e : String × ℚ) (hs : HasSlots defaultExchange symbols s)
      (hplain : Char.ofNat 0 ∉ e.1.toList) :
      HasSlots defaultExchange symbols (SignalReceiver.storePrice defaultExchange s e) :=
    hs.storePrice hplain
  exact run_latest (HasSlots defaultExchange symbols) (fun s => s.pricesById[id]?)
    (fun e => if e.1 = sym then some e.2 else none) hinv
    (fun s e hs _ => pricesById_storePrice hnames hs hid e) hslots (pricesFrom_plain h)

theorem prices_receive_inject (hslots : HasSlots defaultExchange symbols m.toSignalReceiver)
    {i : ℕ} {named : String} (hi : symbols[i]? = some named) (bid ask volume : ℚ) :
    (m.receive (.inject i bid ask volume)).prices =
        m.prices.insert (bookKey ("shm", named)) ((bid + ask) / 2) ∧
      (m.receive (.inject i bid ask volume)).pricesById = m.pricesById.set i ((bid + ask) / 2) := by
  have hnamed : m.idToSymbol[i]? = some named := by rw [hslots.idToSymbol_eq, hi]
  simp only [MarketStore.receive, MarketStore.injectSnapshot, SignalReceiver.injectSnapshot, hnamed]
  exact ⟨trivial, trivial⟩

variable {e : MarketEvent}

/-- The place of the default exchange has the last price of the exchange. -/
theorem find?_venue_receive (hnames : PlainNames defaultExchange symbols) (hsym : sym ∈ symbols)
    (he : e.FromVenue defaultExchange symbols)
    (hslots : HasSlots defaultExchange symbols m.toSignalReceiver) :
    (m.receive e).prices.find? (bookKey (defaultExchange, sym)) = (e.venuePrice defaultExchange sym).or
        (m.prices.find? (bookKey (defaultExchange, sym))) := by
  cases e with
  | frame message => exact find?_receive_frame hnames hsym he
  | inject i bid ask volume =>
    have hlt : i < symbols.length := he.1
    have hkey : bookKey (defaultExchange, sym) ≠ bookKey ("shm", symbols[i]) := by
      rw [ne_comm, Ne, hnames.venueKey_eq_iff hsym]
      simp [Ne.symm hnames.default_ne_shm]
    rw [(prices_receive_inject hslots (List.getElem?_eq_getElem hlt) bid ask volume).1,
      Dict.find?_insert_of_ne _ hkey]
    rfl

/-- The place of shared memory has the last middle. -/
theorem find?_shm_receive (hnames : PlainNames defaultExchange symbols) (hsym : sym ∈ symbols)
    (he : e.FromVenue defaultExchange symbols)
    (hslots : HasSlots defaultExchange symbols m.toSignalReceiver) :
    (m.receive e).prices.find? (bookKey ("shm", sym)) =
      (e.snapshotMid symbols sym).or (m.prices.find? (bookKey ("shm", sym))) := by
  cases e with
  | frame message => exact find?_shm_receive_frame hnames hsym he
  | inject i bid ask volume =>
    have hlt : i < symbols.length := he.1
    have hkey : bookKey ("shm", sym) = bookKey ("shm", symbols[i]) ↔ symbols[i] = sym := by
      rw [eq_comm, hnames.shmKey_eq_iff hsym]
      simp
    rw [(prices_receive_inject hslots (List.getElem?_eq_getElem hlt) bid ask volume).1,
      Dict.find?_insert]
    simp only [hkey, MarketEvent.snapshotMid, List.getElem?_eq_getElem hlt, Option.some_inj]
    split_ifs <;> rfl

theorem pricesById_receive (hnames : PlainNames defaultExchange symbols)
    (hid : symbols[id]? = some sym) (he : e.FromVenue defaultExchange symbols)
    (hslots : HasSlots defaultExchange symbols m.toSignalReceiver) : (m.receive e).pricesById[id]? =
      (e.received defaultExchange symbols sym).or m.pricesById[id]? := by
  cases e with
  | frame message =>
    rw [pricesById_receive_frame hnames hslots hid he]
    simp only [MarketEvent.received, MarketEvent.venuePrice, MarketEvent.snapshotMid, Option.or_none]
  | inject i bid ask volume =>
    have hlt : i < symbols.length := he.1
    obtain ⟨hlt', hget⟩ := List.getElem?_eq_some_iff.mp hid
    have hsame : symbols[i] = sym ↔ i = id := by
      rw [← hget]
      exact hnames.nodup.getElem_inj_iff
    rw [(prices_receive_inject hslots (List.getElem?_eq_getElem hlt) bid ask volume).2]
    simp only [MarketEvent.received, MarketEvent.venuePrice, MarketEvent.snapshotMid,
      List.getElem?_eq_getElem hlt, Option.some_inj, hsame, Option.none_or]
    by_cases heq : i = id
    · subst heq
      rw [List.getElem?_set_self (hslots.prices_length.symm ▸ hlt'), if_pos rfl, Option.some_or]
    · rw [List.getElem?_set_ne heq, if_neg heq, Option.none_or]

end Reads

section Tables

variable {defaultExchange : String} {symbols : List String} {r : SignalReceiver} {sym : String}

/-- The table has for a symbol the last price that is walked over under one of its keys. -/
theorem find?_getAllPricesInto (r : SignalReceiver) (iteration : List (String × ℚ)) (sym : String) :
    (r.getAllPricesInto iteration).find? sym = (iteration.filterMap fun e =>
        if r.bareSymbol e.1 = some sym then some e.2 else none).getLast? := by
  have hstep (out : Dict String ℚ) (e : String × ℚ) (_ : True) (_ : True) :
      Dict.find? (match r.bareSymbol e.1 with
        | some shown => out.insert shown e.2
        | none => out) sym =
        (if r.bareSymbol e.1 = some sym then some e.2 else none).or (out.find? sym) := by
    cases r.bareSymbol e.1 with
    | none => rfl
    | some shown =>
      simp only [Dict.find?_insert, Option.some_inj]
      by_cases hshown : shown = sym
      · rw [if_pos hshown.symm, if_pos hshown, Option.some_or]
      · rw [if_neg (Ne.symm hshown), if_neg hshown, Option.none_or]
  have hany : ∀ e ∈ iteration, True := fun _ _ => trivial
  have hlatest := run_latest (fun _ => True) (fun out : Dict String ℚ => out.find? sym) _
    (fun _ _ _ _ => trivial) hstep (s := Dict.empty) trivial hany
  rw [Dict.find?_empty, Option.or_none] at hlatest
  exact hlatest

theorem mem_walked_iff (hnames : PlainNames defaultExchange symbols) (hsym : sym ∈ symbols)
    (h : HasSlots defaultExchange symbols r) {iteration : List (String × ℚ)}
    (hperm : iteration.Perm r.prices.entries) (price : ℚ) : price ∈ (iteration.filterMap fun e =>
        if r.bareSymbol e.1 = some sym then some e.2 else none) ↔
      r.prices.find? (bookKey (defaultExchange, sym)) = some price ∨
        r.prices.find? (bookKey ("shm", sym)) = some price := by
  have hplain : Char.ofNat 0 ∉ sym.toList := (hnames.symbol_plain sym hsym).2
  have hwalked (key : String) : (key, price) ∈ iteration ↔ r.prices.find? key = some price := by
    rw [hperm.mem_iff, Dict.mem_entries_iff]
  simp only [List.mem_filterMap, Option.ite_none_right_eq_some, Option.some_inj]
  constructor
  · rintro ⟨⟨key, _⟩, hmem, hshown, rfl⟩
    have hfound := (hwalked key).mp hmem
    obtain ⟨ex, named, rfl, hex | hex, hnamed⟩ := h.keyed key _ hfound
    · subst hex
      rw [bareSymbol_bookKey r hnames.default_plain hnamed, h.defaultExchange_eq,
        if_pos (Or.inl rfl), Option.some_inj] at hshown
      exact Or.inl (hshown ▸ hfound)
    · subst hex
      rw [bareSymbol_bookKey r (by decide) hnamed, if_pos (Or.inr rfl), Option.some_inj] at hshown
      exact Or.inr (hshown ▸ hfound)
  · rintro (hfound | hfound)
    · refine ⟨_, (hwalked _).mpr hfound, ?_, rfl⟩
      rw [bareSymbol_bookKey r hnames.default_plain hplain, h.defaultExchange_eq,
        if_pos (Or.inl rfl)]
    · refine ⟨_, (hwalked _).mpr hfound, ?_, rfl⟩
      rw [bareSymbol_bookKey r (by decide) hplain, if_pos (Or.inr rfl)]

/-- In whatever order the stored prices are walked over, the table has one of the two. -/
theorem getAllPricesInto_either (hnames : PlainNames defaultExchange symbols) (hsym : sym ∈ symbols)
    (h : HasSlots defaultExchange symbols r) {iteration : List (String × ℚ)}
    (hperm : iteration.Perm r.prices.entries) :
    let venue := r.prices.find? (bookKey (defaultExchange, sym))
    let mid := r.prices.find? (bookKey ("shm", sym))
    (r.getAllPricesInto iteration).find? sym = venue.or mid ∨
      (r.getAllPricesInto iteration).find? sym = mid.or venue := by
  have hmem := mem_walked_iff hnames hsym h hperm
  rw [find?_getAllPricesInto]
  generalize (iteration.filterMap fun e =>
    if r.bareSymbol e.1 = some sym then some e.2 else none) = walked at hmem
  cases hlast : walked.getLast? with
  | none =>
    -- Nothing was walked over, so neither place has a price.
    obtain rfl := List.getLast?_eq_none_iff.mp hlast
    have hvenue : r.prices.find? (bookKey (defaultExchange, sym)) = none := by
      rw [Option.eq_none_iff_forall_ne_some]
      exact fun price hprice => List.not_mem_nil ((hmem price).mpr (Or.inl hprice))
    have hmid : r.prices.find? (bookKey ("shm", sym)) = none := by
      rw [Option.eq_none_iff_forall_ne_some]
      exact fun price hprice => List.not_mem_nil ((hmem price).mpr (Or.inr hprice))
    rw [hvenue, hmid]
    exact Or.inl rfl
  | some price =>
    obtain hvenue | hmid := (hmem price).mp (List.mem_of_getLast? hlast)
    · rw [hvenue]
      exact Or.inl rfl
    · rw [hmid]
      exact Or.inr rfl

/-- No price is stored under a bare symbol, so the lookup by symbol has two places. -/
theorem getPrice_eq {m : MarketStore} (hnames : PlainNames defaultExchange symbols)
    (hsym : sym ∈ symbols) (h : HasSlots defaultExchange symbols m.toSignalReceiver) :
    m.getPrice sym = ((m.prices.find? (bookKey (defaultExchange, sym))).or
      (m.prices.find? (bookKey ("shm", sym)))).getD 0 := by
  have hbare : m.prices.find? sym = none := by
    rw [Option.eq_none_iff_forall_ne_some]
    intro price hprice
    obtain ⟨ex, named, hkey, -, -⟩ := h.keyed sym price hprice
    apply (hnames.symbol_plain sym hsym).1
    rw [← hkey]
    simp [bookKey]
  rw [MarketStore.getPrice, MarketStore.findForSymbol, h.defaultExchange_eq,
    if_neg hnames.default_ne_empty, if_pos hnames.default_ne_shm, hbare, Option.or_none]

end Tables

section Books

variable {defaultExchange : String} {symbols : List String} {m : MarketStore}

/-- Every by-id book has a property. -/
def AllBooks (P : BookEntry → Prop) (r : SignalReceiver) : Prop :=
  ∀ (id : ℕ) (book : BookEntry), r.obsById[id]? = some book → P book

variable {P : BookEntry → Prop}

theorem allBooks_storeBook {r : SignalReceiver} (h : AllBooks P r)
    {book : BookEntry} (hbook : P book) : AllBooks P (r.storeBook book) := by
  intro id stored hstored
  simp only [SignalReceiver.storeBook] at hstored
  split at hstored
  · split at hstored
    · rw [List.getElem?_set] at hstored
      split_ifs at hstored
      · exact Option.some_inj.mp hstored ▸ hbook
      · exact h id stored hstored
    · exact h id stored hstored
  · exact h id stored hstored

theorem allBooks_storeFull {r : SignalReceiver} (h : AllBooks P r)
    {frame : MarketFrame} (hframe : ∀ book ∈ frame.fullBooks, P book) :
    AllBooks P (r.storeFull frame) := by
  have hbooks (s : SignalReceiver) (books : Dict String BookEntry) (hs : AllBooks P s)
      (hall : ∀ e ∈ books.entries, P e.2) : AllBooks P (s.updateOrderbooks books) :=
    run_invariant_of_along (AllBooks P) (fun _ _ hs he => allBooks_storeBook hs he) hs
      ((along_input_iff _ (fun e : String × BookEntry => P e.2) _ _).mpr hall)
  have hpriced : AllBooks P (frame.prices.elim r r.updatePrices) := by
    cases frame.prices with
    | none => exact h
    | some prices =>
      have hsame := updatePrices_unchanged (r := r) (AllBooks P) (fun _ _ _ => rfl) prices
      exact hsame.mpr h
  have hall : ∀ books ∈ frame.orderbooks, ∀ e ∈ books.entries, P e.2 := by
    intro books hbooks e he
    apply hframe
    rw [MarketFrame.fullBooks, Option.mem_def.mp hbooks]
    exact List.mem_map_of_mem he
  unfold SignalReceiver.storeFull
  cases hprices : frame.prices <;> cases horderbooks : frame.orderbooks <;>
    rw [hprices] at hpriced
  · exact hpriced
  · exact hbooks _ _ hpriced (hall _ horderbooks)
  · exact hpriced
  · exact hbooks _ _ hpriced (hall _ horderbooks)

/-- Replacing the first level keeps an order that the new level and the second one have. -/
theorem pairwise_setTop {R : OrderBookLevel → OrderBookLevel → Prop}
    (htrans : ∀ a b c, R a b → R b c → R a c) {levels : List OrderBookLevel} {top : OrderBookLevel}
    (hsecond : ∀ level ∈ levels[1]?, R top level) (h : levels.Pairwise R) :
    (SignalReceiver.setTop levels top).Pairwise R := by
  cases levels with
  | nil => exact List.pairwise_singleton R top
  | cons first rest =>
    obtain ⟨-, hrest⟩ := List.pairwise_cons.mp h
    refine List.pairwise_cons.mpr ⟨?_, hrest⟩
    cases rest with
    | nil => simp
    | cons second deeper =>
      have htop : R top second := hsecond second rfl
      intro level hlevel
      obtain rfl | hdeeper := List.mem_cons.mp hlevel
      · exact htop
      · exact htrans top second level htop ((List.pairwise_cons.mp hrest).1 level hdeeper)

/-- A snapshot's quote keeps a book uncrossed. -/
theorem uncrossed_setTop {book : BookEntry} {bid ask volume : ℚ} (hquote : bid ≤ ask)
    (exchange symbol : String) :
    Uncrossed ⟨exchange, symbol, SignalReceiver.setTop book.bids ⟨bid, volume⟩,
      SignalReceiver.setTop book.asks ⟨ask, volume⟩⟩ := by
  intro best hbest worst hworst
  obtain rfl := Option.some_inj.mp hbest
  obtain rfl := Option.some_inj.mp hworst
  exact hquote

variable {e : MarketEvent}

theorem allBooks_receive (h : AllBooks P m.toSignalReceiver)
    (hframe : ∀ message, e = .frame message → ∀ book ∈ message.fullBooks, P book)
    (hinject : ∀ id bid ask volume, e = .inject id bid ask volume → ∀ book ∈ m.obsById[id]?,
      P book → ∀ named, P ⟨"shm", named, SignalReceiver.setTop book.bids ⟨bid, volume / 10⟩,
        SignalReceiver.setTop book.asks ⟨ask, volume / 10⟩⟩) :
    AllBooks P (m.receive e).toSignalReceiver := by
  cases e with
  | frame message =>
    have hfull := allBooks_storeFull h (hframe message rfl)
    intro id book hbook
    rw [MarketStore.receive, toSignalReceiver_handleMarketData, obsById_handleMarketData] at hbook
    exact hfull id book hbook
  | inject i bid ask volume =>
    simp only [MarketStore.receive, MarketStore.injectSnapshot, SignalReceiver.injectSnapshot]
    cases hnamed : m.idToSymbol[i]? with
    | none => exact h
    | some named =>
      intro id book hbook
      rw [List.getElem?_modify] at hbook
      split_ifs at hbook with hsame
      · obtain ⟨held, hheld, rfl⟩ := Option.map_eq_some_iff.mp hbook
        subst hsame
        exact hinject i bid ask volume rfl held hheld (h i held hheld) named
      · exact h id book (by simpa using hbook)

theorem allBooks_init (hempty : P emptyBook) (defaultExchange : String)
    (symbols : List String) : AllBooks P (SignalReceiver.init defaultExchange symbols) :=
  fun _ _ hbook => List.eq_of_mem_replicate (List.mem_of_getElem? hbook) ▸ hempty

theorem allBooks_uncrossed_receive (he : e.FromVenue defaultExchange symbols)
    (h : AllBooks Uncrossed m.toSignalReceiver) : AllBooks Uncrossed (m.receive e).toSignalReceiver := by
  apply allBooks_receive h
  · rintro message rfl book hbook
    exact (he.2 book hbook).2.1
  · rintro id bid ask volume rfl book - - named
    exact uncrossed_setTop he.2.2 "shm" named

theorem allBooks_ordered_receive (he : e.FromVenue defaultExchange symbols)
    (h : AllBooks LevelsOrdered m.toSignalReceiver) (hdepth : m.KeepsDepth e) :
    AllBooks LevelsOrdered (m.receive e).toSignalReceiver := by
  apply allBooks_receive h
  · rintro message rfl book hbook
    exact (he.2 book hbook).2.2
  · rintro id bid ask volume rfl book hbook hordered named
    obtain ⟨hbids, hasks⟩ := hdepth book hbook
    constructor
    · exact pairwise_setTop (fun a b c hab hbc => hbc.trans hab) hbids hordered.bids
    · exact pairwise_setTop (fun a b c hab hbc => hab.trans hbc) hasks hordered.asks

end Books

namespace MarketStore

variable {defaultExchange : String} {symbols : List String} {events : List MarketEvent}

theorem prices_run (hnames : PlainNames defaultExchange symbols)
    (hevents : ∀ e ∈ events, e.FromVenue defaultExchange symbols) {id : ℕ} {sym : String}
    (hid : symbols[id]? = some sym) :
    let m := run receive (init defaultExchange symbols) events
    HasSlots defaultExchange symbols m.toSignalReceiver ∧
      m.prices.find? (bookKey (defaultExchange, sym)) =
        (events.filterMap (·.venuePrice defaultExchange sym)).getLast? ∧
      m.prices.find? (bookKey ("shm", sym)) =
        (events.filterMap (·.snapshotMid symbols sym)).getLast? ∧
      m.pricesById[id]? =
        (events.filterMap (·.received defaultExchange symbols sym)).getLast?.or (some 0) := by
  intro m
  let inv (s : MarketStore) : Prop := HasSlots defaultExchange symbols s.toSignalReceiver
  have hsym : sym ∈ symbols := List.mem_of_getElem? hid
  have hinit : inv (init defaultExchange symbols) := hasSlots_init defaultExchange symbols
  have hinv (s : MarketStore) (e : MarketEvent) (hs : inv s)
      (he : e.FromVenue defaultExchange symbols) : inv (s.receive e) := hasSlots_receive hnames he hs
  refine ⟨?_, ?_, ?_, ?_⟩
  · exact run_invariant_of_along inv hinv hinit ((along_input_iff _ _ _ _).mpr hevents)
  · rw [run_latest inv (fun s => s.prices.find? (bookKey (defaultExchange, sym))) _ hinv
      (fun s e hs he => find?_venue_receive hnames hsym he hs) hinit hevents]
    exact Option.or_none
  · rw [run_latest inv (fun s => s.prices.find? (bookKey ("shm", sym))) _ hinv
      (fun s e hs he => find?_shm_receive hnames hsym he hs) hinit hevents]
    exact Option.or_none
  · rw [run_latest inv (fun s => s.pricesById[id]?) _ hinv
      (fun s e hs he => pricesById_receive hnames hid he hs) hinit hevents]
    congr 1
    have hlt : id < symbols.length := (List.getElem?_eq_some_iff.mp hid).1
    exact List.getElem?_replicate_of_lt hlt

theorem book_run (hevents : ∀ e ∈ events, e.FromVenue defaultExchange symbols) :
    let m := run receive (init defaultExchange symbols) events
    AllBooks Uncrossed m.toSignalReceiver ∧
      (Along receive KeepsDepth (init defaultExchange symbols) events →
        AllBooks LevelsOrdered m.toSignalReceiver) := by
  have hstatic := (along_input_iff receive
    (fun e => e.FromVenue defaultExchange symbols) (init defaultExchange symbols) events).mpr hevents
  constructor
  · apply run_invariant_of_along (fun s : MarketStore => AllBooks Uncrossed s.toSignalReceiver)
      (fun s e hs he => allBooks_uncrossed_receive he hs) _ hstatic
    exact allBooks_init (by decide) defaultExchange symbols
  · intro hdepth
    have hboth := (along_and receive _ _ _ _).mpr ⟨hstatic, hdepth⟩
    apply run_invariant_of_along (fun s : MarketStore => AllBooks LevelsOrdered s.toSignalReceiver)
      (fun s e hs he => allBooks_ordered_receive he.1 hs he.2) _ hboth
    exact allBooks_init (by decide) defaultExchange symbols

/-- After any messages of the default exchange and snapshots of shared memory, the price by id is what came last,
and the price by symbol the last one of the default exchange, or the last middle if that has sent none; the
table has one of the two. The by-id book is uncrossed, and ordered as long as no snapshot is worse than the
second levels of the book it is put on. -/
theorem currentPrice_and_book (hnames : PlainNames defaultExchange symbols)
    (hevents : ∀ e ∈ events, e.FromVenue defaultExchange symbols) {id : ℕ} {sym : String}
    (hid : symbols[id]? = some sym) :
    let m := run receive (init defaultExchange symbols) events
    let venue := (events.filterMap (·.venuePrice defaultExchange sym)).getLast?
    let mid := (events.filterMap (·.snapshotMid symbols sym)).getLast?
    let last := (events.filterMap (·.received defaultExchange symbols sym)).getLast?
    (m.getPriceById id = last.getD 0 ∧ m.getPrice sym = (venue.or mid).getD 0 ∧
      ∀ iteration : List (String × ℚ), iteration.Perm m.prices.entries →
        (m.getAllPricesInto iteration).find? sym = venue.or mid ∨
          (m.getAllPricesInto iteration).find? sym = mid.or venue) ∧
    (venue = none ∨ mid = none ∨ venue = mid → ∀ price ∈ last, m.OnePrice id sym price) ∧
    ∀ book ∈ m.obsById[id]?, Uncrossed book ∧
      (Along receive KeepsDepth (init defaultExchange symbols) events → LevelsOrdered book) := by
  intro m venue mid last
  have hsym : sym ∈ symbols := List.mem_of_getElem? hid
  obtain ⟨hslots, hvenue, hmid, hbyId⟩ := prices_run hnames hevents hid
  have hprice : m.getPriceById id = last.getD 0 := by
    have hstart (o : Option ℚ) : (o.or (some 0)).getD 0 = o.getD 0 := by cases o <;> rfl
    rw [SignalReceiver.getPriceById, List.getD_eq_getElem?_getD, hbyId]
    exact hstart last
  have hnamed : m.getPrice sym = (venue.or mid).getD 0 := by
    rw [getPrice_eq hnames hsym hslots, hvenue, hmid]
  have htable (iteration : List (String × ℚ)) (hperm : iteration.Perm m.prices.entries) :
      (m.getAllPricesInto iteration).find? sym = venue.or mid ∨
        (m.getAllPricesInto iteration).find? sym = mid.or venue := by
    have h := getAllPricesInto_either hnames hsym hslots hperm
    simp only [hvenue, hmid] at h
    exact h
  obtain ⟨huncrossed, hordered⟩ := book_run hevents
  refine ⟨⟨hprice, hnamed, htable⟩, ?_, ?_⟩
  · intro hagree price hlast
    -- Where the sources agree, it does not matter which of them is preferred.
    have hsame : mid.or venue = venue.or mid := by
      obtain h | h | h := hagree
      · rw [h, Option.none_or, Option.or_none]
      · rw [h, Option.none_or, Option.or_none]
      · rw [h]
    have heither : last = venue.or mid ∨ last = mid.or venue :=
      getLast?_filterMap_or (MarketEvent.venuePrice defaultExchange sym)
        (MarketEvent.snapshotMid symbols sym) events
    rw [hsame, or_self, Option.mem_def.mp hlast] at heither
    refine ⟨?_, ?_, fun iteration hperm => ?_⟩
    · rw [hnamed, ← heither, Option.getD_some]
    · rw [hprice, Option.mem_def.mp hlast, Option.getD_some]
    · have h := htable iteration hperm
      rw [hsame, or_self, ← heither] at h
      exact h
  · intro book hbook
    exact ⟨huncrossed id book hbook, fun hdepth => hordered hdepth id book hbook⟩

section Example

/-- A message with one price of the default exchange. -/
def pricedFrame : MarketFrame where
  type := .candles
  timestamp := 0
  candles := []
  prices := some (Dict.empty.insert "binance" (Dict.empty.insert "BTC" 100))

end Example

/-- After a price of the exchange and a snapshot, the price by symbol is not what came last. -/
theorem not_onePrice_afterSnapshot :
    let events : List MarketEvent := [.frame pricedFrame, .inject 0 90 92 1]
    (∀ e ∈ events, e.FromVenue "binance" ["BTC"]) ∧
      (events.filterMap (·.received "binance" ["BTC"] "BTC")).getLast? = some 91 ∧
      ¬ (run receive (init "binance" ["BTC"]) events).OnePrice 0 "BTC" 91 := by
  refine ⟨by decide +kernel, by decide +kernel, fun h => ?_⟩
  exact absurd h.1 (by decide +kernel)

theorem plainNames_btc : PlainNames "binance" ["BTC"] where
  default_ne_empty := by decide
  default_ne_shm := by decide
  default_plain := by decide
  nodup := by decide
  fit := by decide
  symbol_plain := by decide

/-- A book and a snapshot inside it. -/
theorem currentPrice_and_book_snapshotInside :
    let events : List MarketEvent := [.frame quotedFrame, .inject 0 100 101 1]
    (run receive (init "binance" ["BTC"]) events).OnePrice 0 "BTC" (201 / 2) ∧
      ∀ book ∈ (run receive (init "binance" ["BTC"]) events).obsById[0]?,
        Uncrossed book ∧ LevelsOrdered book := by
  intro events
  have hevents : ∀ e ∈ events, e.FromVenue "binance" ["BTC"] := by decide +kernel
  have hid : ["BTC"][0]? = some "BTC" := rfl
  obtain ⟨-, hone, hbook⟩ := currentPrice_and_book plainNames_btc hevents hid
  refine ⟨hone (by decide +kernel) _ (by decide +kernel), fun book h => ?_⟩
  obtain ⟨huncrossed, hordered⟩ := hbook book h
  exact ⟨huncrossed, hordered (by decide +kernel)⟩

end MarketStore

end TradingSim.Bot
