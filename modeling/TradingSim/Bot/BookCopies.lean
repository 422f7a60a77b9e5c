import TradingSim.Foundations.Run
import TradingSim.Bot.SignalReceiver

/-!
# The two copies of an order book

A full book of the primary exchange is written under its exchange and symbol and again under
the symbol's id. The changes of a book reach the first copy only, so the by-id copy stays what
the last full book made it. The copies agree for as long as the changes of every message, taken
together, give back the levels they start from.
-/

namespace TradingSim.Bot

open Foundations
open Exchange (OrderBookLevel)
open Feed

/-- Both sides of a book. -/
def levels (book : BookEntry) : List OrderBookLevel × List OrderBookLevel := (book.bids, book.asks)

/-- The full books of a message, in order. -/
def MarketFrame.fullBooks (frame : MarketFrame) : List BookEntry :=
  match frame.orderbooks with
  | some books => books.entries.map Prod.snd
  | none => []

/-- The changes of a message for the book under a key, in order. -/
def MarketFrame.changesUnder (frame : MarketFrame) (key : String) : List DeltaEntry :=
  match frame.orderbookDeltas with
  | some deltas =>
    (deltas.entries.map Prod.snd).filter fun delta => bookKey (delta.exchange, delta.symbol) = key
  | none => []

namespace SignalReceiver

variable (r : SignalReceiver)

/-- The key of the first copy of a symbol's book. -/
def primaryKey (sym : String) : String := bookKey (r.defaultExchange, sym)

/-- Whatever book is served by a symbol's id has the levels of the book stored under the default
exchange and the symbol. -/
def AgreesAt (sym : String) : Prop :=
  ∀ book ∈ r.getOrderBookById (r.symbolId sym),
    (r.orderBooks.find? (r.primaryKey sym)).map levels = some (levels book)

instance (sym : String) : Decidable (r.AgreesAt sym) := by
  unfold AgreesAt
  infer_instance

/-- The copies agree for every registered symbol. -/
def CopiesAgree : Prop := ∀ sym ∈ r.idToSymbol, r.AgreesAt sym

instance : Decidable r.CopiesAgree := inferInstanceAs (Decidable (∀ sym ∈ r.idToSymbol, _))

/-- Whether a full book is copied to a symbol's id. -/
def Copied (book : BookEntry) (sym : String) : Prop :=
  r.primaryExchange book.exchange = true ∧ r.symbolToId.find? book.symbol = some (r.symbolId sym)

instance (book : BookEntry) (sym : String) : Decidable (r.Copied book sym) :=
  inferInstanceAs (Decidable (_ ∧ _))

/-- For every registered symbol, the full books that are stored under its key are the ones that
are copied to its id. -/
def FilesTwice (frame : MarketFrame) : Prop :=
  ∀ sym ∈ r.idToSymbol, ∀ book ∈ frame.fullBooks,
    bookKey (book.exchange, book.symbol) = r.primaryKey sym ↔ r.Copied book sym

instance (frame : MarketFrame) : Decidable (r.FilesTwice frame) :=
  inferInstanceAs (Decidable (∀ sym ∈ r.idToSymbol, ∀ book ∈ frame.fullBooks, _))

/-- Once the full books of a message are stored, its changes give back the levels of every
registered symbol's book that is served by id. -/
def ChangesIdle (frame : MarketFrame) : Prop :=
  ∀ sym ∈ r.idToSymbol, (r.storeFull frame).getOrderBookById (r.symbolId sym) ≠ none →
    ∀ book ∈ (r.storeFull frame).orderBooks.find? (r.primaryKey sym),
      levels ((frame.changesUnder (r.primaryKey sym)).foldl Decoder.bot.applyEntry book) =
        levels book

instance (frame : MarketFrame) : Decidable (r.ChangesIdle frame) := by
  unfold ChangesIdle
  infer_instance

end SignalReceiver

section Steps

variable {r : SignalReceiver}

/-- What registration and the default exchange fix. -/
def SignalReceiver.config (r : SignalReceiver) : String × Dict String ℕ × List String :=
  (r.defaultExchange, r.symbolToId, r.idToSymbol)

theorem updatePrices_unchanged {α : Type*} (read : SignalReceiver → α)
    (hstep : ∀ exchange s e, read (SignalReceiver.storePrice exchange s e) = read s)
    (prices : Dict String (Dict String ℚ)) : read (r.updatePrices prices) = read r := by
  have hexchange (s : SignalReceiver) (e : String × Dict String ℚ) :
      read (e.2.entries.foldl (SignalReceiver.storePrice e.1) s) = read s :=
    run_unchanged read (hstep e.1) s e.2.entries
  exact run_unchanged read hexchange r prices.entries

theorem config_updateOrderbooks (books : Dict String BookEntry) :
    (r.updateOrderbooks books).config = r.config := by
  have hstep (s : SignalReceiver) (e : String × BookEntry) :
      (s.storeBook e.2).config = s.config := rfl
  exact run_unchanged SignalReceiver.config hstep r books.entries

theorem config_storeFull (frame : MarketFrame) : (r.storeFull frame).config = r.config := by
  unfold SignalReceiver.storeFull
  cases frame.prices with
  | none => cases frame.orderbooks <;> simp [config_updateOrderbooks]
  | some prices =>
    have hprices := updatePrices_unchanged (r := r) SignalReceiver.config (fun _ _ _ => rfl) prices
    cases frame.orderbooks <;> simp [config_updateOrderbooks, hprices]

theorem config_handleMarketData (frame : MarketFrame) : (r.handleMarketData frame).config = r.config := by
  unfold SignalReceiver.handleMarketData
  cases frame.orderbookDeltas with
  | none => exact config_storeFull frame
  | some deltas => exact config_storeFull frame

/-- Where full books are filed depends on the registration and the default exchange only. -/
theorem filesTwice_congr {s : SignalReceiver} (h : s.config = r.config) {frame : MarketFrame} :
    s.FilesTwice frame ↔ r.FilesTwice frame := by
  simp only [SignalReceiver.config, Prod.mk.injEq] at h
  simp only [SignalReceiver.FilesTwice, SignalReceiver.Copied, SignalReceiver.primaryKey,
    SignalReceiver.primaryExchange, SignalReceiver.symbolId, h]

theorem obsById_storeBook {book : BookEntry} {sym : String} (h : ¬ r.Copied book sym) :
    (r.storeBook book).obsById[r.symbolId sym]? = r.obsById[r.symbolId sym]? := by
  by_cases hprimary : r.primaryExchange book.exchange = true
  · cases hid : r.symbolToId.find? book.symbol with
    | none => simp [SignalReceiver.storeBook, hid]
    | some id =>
      have hne : id ≠ r.symbolId sym := by
        rintro rfl
        exact h ⟨hprimary, hid⟩
      simp [SignalReceiver.storeBook, hprimary, hid, List.getElem?_set_ne hne]
  · simp [SignalReceiver.storeBook, hprimary]

theorem agreesAt_storeBook {book : BookEntry} {sym : String}
    (hfiles : bookKey (book.exchange, book.symbol) = r.primaryKey sym ↔ r.Copied book sym)
    (h : r.AgreesAt sym) : (r.storeBook book).AgreesAt sym := by
  intro served hserved
  have hfind : (r.storeBook book).orderBooks.find? ((r.storeBook book).primaryKey sym) =
      if r.primaryKey sym = bookKey (book.exchange, book.symbol) then some book
      else r.orderBooks.find? (r.primaryKey sym) := Dict.find?_insert _ _ _ _
  rw [hfind]
  obtain ⟨hslot, hbids⟩ := SignalReceiver.getOrderBookById_eq_some.mp hserved
  by_cases hcopied : r.Copied book sym
  · have hwritten : (r.storeBook book).obsById = r.obsById.set (r.symbolId sym) book := by
      simp [SignalReceiver.storeBook, hcopied.1, hcopied.2]
    have hslot' : (r.obsById.set (r.symbolId sym) book)[r.symbolId sym]? = some served :=
      hwritten ▸ hslot
    have hbook : book = served := by
      rw [List.getElem?_set, if_pos rfl] at hslot'
      split at hslot'
      · exact Option.some.inj hslot'
      · cases hslot'
    rw [if_pos (hfiles.mpr hcopied).symm, hbook, Option.map_some]
  · rw [if_neg fun hkey => hcopied (hfiles.mp hkey.symm)]
    exact h served (SignalReceiver.getOrderBookById_eq_some.mpr ⟨(obsById_storeBook hcopied) ▸ hslot, hbids⟩)

theorem agreesAt_storeFull {frame : MarketFrame} {sym : String} (hsym : sym ∈ r.idToSymbol)
    (hfiles : r.FilesTwice frame) (h : r.AgreesAt sym) : (r.storeFull frame).AgreesAt sym := by
  have hloop (books : List (String × BookEntry)) (s : SignalReceiver) (hconfig : s.config = r.config)
      (hs : s.AgreesAt sym) (hbooks : ∀ e ∈ books, e.2 ∈ frame.fullBooks) :
      (books.foldl (fun s e => s.storeBook e.2) s).AgreesAt sym := by
    induction books generalizing s with
    | nil => exact hs
    | cons e rest ih =>
      rw [List.forall_mem_cons] at hbooks
      have hfile := hfiles sym hsym e.2 hbooks.1
      simp only [SignalReceiver.config, Prod.mk.injEq] at hconfig
      refine ih (s.storeBook e.2) ?_ (agreesAt_storeBook ?_ hs) hbooks.2
      · simp [SignalReceiver.config, SignalReceiver.storeBook, hconfig]
      · simpa [SignalReceiver.Copied, SignalReceiver.primaryKey, SignalReceiver.primaryExchange,
          SignalReceiver.symbolId, hconfig] using hfile
  have hpriced : ∀ priced : SignalReceiver, priced.config = r.config → priced.AgreesAt sym →
      (match frame.orderbooks with
        | some books => priced.updateOrderbooks books
        | none => priced).AgreesAt sym := by
    intro priced hconfig hagrees
    cases hbooks : frame.orderbooks with
    | none => exact hagrees
    | some books =>
      refine hloop books.entries priced hconfig hagrees fun e he => ?_
      simp only [MarketFrame.fullBooks, hbooks]
      exact List.mem_map_of_mem he
  unfold SignalReceiver.storeFull
  cases frame.prices with
  | none => exact hpriced r rfl h
  | some prices =>
    have hsame := updatePrices_unchanged (r := r) (fun s => s.AgreesAt sym) (fun _ _ _ => rfl) prices
    exact hpriced _ (updatePrices_unchanged SignalReceiver.config (fun _ _ _ => rfl) prices)
      (hsame ▸ h)

/-- The changes of a message act on the book under a key through the ones for that key, in
order. -/
theorem find?_updateOrderbookDeltas (held : Dict String BookEntry)
    (deltas : List (String × DeltaEntry)) (key : String) :
    (deltas.foldl Decoder.bot.updateOrderbookDelta held).find? key = (held.find? key).map fun book =>
        ((deltas.map Prod.snd).filter fun delta =>
          decide (bookKey (delta.exchange, delta.symbol) = key)).foldl Decoder.bot.applyEntry book := by
  induction deltas generalizing held with
  | nil => simp
  | cons delta rest ih =>
    rw [List.foldl_cons, ih]
    simp only [Decoder.updateOrderbookDelta, Decoder.fileUnder, List.map_cons]
    by_cases hkey : bookKey (delta.2.exchange, delta.2.symbol) = key
    · rw [List.filter_cons_of_pos (by simpa using hkey), hkey]
      cases hbook : held.find? key with
      | none => simp [hbook]
      | some book => simp
    · rw [List.filter_cons_of_neg (by simpa using hkey)]
      cases hother : held.find? (bookKey (delta.2.exchange, delta.2.symbol)) with
      | none => rfl
      | some book => simp only [Dict.find?_insert_of_ne held (Ne.symm hkey)]

/-- The book under a key after a message: the one its full books leave there, with its changes
for that key applied. -/
theorem find?_handleMarketData (frame : MarketFrame) (key : String) :
    (r.handleMarketData frame).orderBooks.find? key =
      ((r.storeFull frame).orderBooks.find? key).map fun book =>
        (frame.changesUnder key).foldl Decoder.bot.applyEntry book := by
  unfold SignalReceiver.handleMarketData MarketFrame.changesUnder
  cases frame.orderbookDeltas with
  | none => simp
  | some deltas => exact find?_updateOrderbookDeltas _ deltas.entries key

theorem obsById_handleMarketData (frame : MarketFrame) :
    (r.handleMarketData frame).obsById = (r.storeFull frame).obsById := by
  unfold SignalReceiver.handleMarketData
  cases frame.orderbookDeltas with
  | none => rfl
  | some deltas => rfl

theorem copiesAgree_handleMarketData_iff {frame : MarketFrame} (h : r.CopiesAgree)
    (hfiles : r.FilesTwice frame) : (r.handleMarketData frame).CopiesAgree ↔ r.ChangesIdle frame := by
  have hconfig := config_handleMarketData (r := r) frame
  have hconfig' := config_storeFull (r := r) frame
  simp only [SignalReceiver.config, Prod.mk.injEq] at hconfig hconfig'
  have hat (sym : String) (hsym : sym ∈ r.idToSymbol) :
      (r.handleMarketData frame).AgreesAt sym ↔
        ((r.storeFull frame).getOrderBookById (r.symbolId sym) ≠ none →
          ∀ book ∈ (r.storeFull frame).orderBooks.find? (r.primaryKey sym),
            levels ((frame.changesUnder (r.primaryKey sym)).foldl Decoder.bot.applyEntry book) =
              levels book) := by
    have hfull := agreesAt_storeFull hsym hfiles (h sym hsym)
    simp only [SignalReceiver.AgreesAt, SignalReceiver.symbolId, SignalReceiver.primaryKey,
      SignalReceiver.getOrderBookById, find?_handleMarketData, obsById_handleMarketData, hconfig,
      hconfig'] at hfull ⊢
    generalize (r.storeFull frame).orderBooks.find? (bookKey (r.defaultExchange, sym)) = stored
      at hfull ⊢
    split
    · rename_i book _
      by_cases hbids : book.bids = []
      · simp [hbids]
      · have hstored := hfull book (by simp [*])
        obtain ⟨first, rfl, hlevels⟩ := Option.map_eq_some_iff.mp hstored
        simp [hbids, hlevels]
    · simp
  unfold SignalReceiver.CopiesAgree SignalReceiver.ChangesIdle
  rw [hconfig.2.2]
  exact forall₂_congr hat

end Steps

theorem copiesAgree_init (defaultExchange : String) (symbols : List String) :
    (SignalReceiver.init defaultExchange symbols).CopiesAgree := by
  intro sym _ book hbook
  rw [SignalReceiver.getOrderBookById_init] at hbook
  cases hbook

/-- A key without a further separator is taken apart at its only one. -/
theorem bookKey_eq_iff {ex sym : String} (hex : '|' ∉ ex.toList) (hsym : '|' ∉ sym.toList)
    (pair : String × String) : bookKey pair = bookKey (ex, sym) ↔ pair = (ex, sym) := by
  constructor
  · intro h
    have hchars : ex.toList ++ '|' :: sym.toList = pair.1.toList ++ '|' :: pair.2.toList := by
      simpa [bookKey] using congrArg String.toList h.symm
    obtain ⟨hfirst, _, hsecond⟩ := (List.append_cons_inj_of_notMem hex hsym).mp hchars
    exact Prod.ext (String.toList_injective hfirst.symm) (String.toList_injective hsecond.symm)
  · rintro rfl
    rfl

/-- Over messages whose full books are stored twice or not at all, the copies of every registered
symbol's book agree after each message exactly when the changes of each message are idle. -/
theorem SignalReceiver.copiesAgree_iff_changesIdle (defaultExchange : String)
    (symbols : List String) (frames : List MarketFrame)
    (hfiles : ∀ frame ∈ frames, (init defaultExchange symbols).FilesTwice frame) :
    Along handleMarketData (fun r frame => (r.handleMarketData frame).CopiesAgree)
        (init defaultExchange symbols) frames ↔
      Along handleMarketData ChangesIdle (init defaultExchange symbols) frames := by
  have hstatic := (along_input_iff handleMarketData
    (fun frame => (init defaultExchange symbols).FilesTwice frame)
    (init defaultExchange symbols) frames).mpr hfiles
  have hboth : Along handleMarketData
        (fun r frame => (init defaultExchange symbols).FilesTwice frame ∧
          (r.handleMarketData frame).CopiesAgree) (init defaultExchange symbols) frames ↔
      Along handleMarketData
        (fun r frame => (init defaultExchange symbols).FilesTwice frame ∧ r.ChangesIdle frame)
        (init defaultExchange symbols) frames := by
    apply along_congr fun r =>
      r.config = (init defaultExchange symbols).config ∧ r.CopiesAgree
    · rintro r frame ⟨hconfig, _⟩ ⟨_, hagree⟩
      exact ⟨(config_handleMarketData frame).trans hconfig, hagree⟩
    · rintro r frame ⟨hconfig, hagree⟩
      exact and_congr_right fun hfile =>
        copiesAgree_handleMarketData_iff hagree ((filesTwice_congr hconfig).mpr hfile)
    · exact ⟨rfl, copiesAgree_init defaultExchange symbols⟩
  rw [along_and, along_and] at hboth
  simpa only [hstatic, true_and] using hboth

section Example

/-- A full book of one bid and one ask. -/
def quotedFrame : MarketFrame where
  type := .snapshot
  timestamp := 0
  candles := []
  orderbooks := some (Dict.empty.insert "binance|BTC" ⟨"binance", "BTC", [⟨100, 1⟩], [⟨101, 1⟩]⟩)

/-- A change of the bid's quantity. -/
def changedFrame : MarketFrame where
  type := .candles
  timestamp := 1
  candles := []
  orderbookDeltas := some (Dict.empty.insert "binance|BTC" ⟨"binance", "BTC", [⟨100, 2⟩], []⟩)

end Example

/-- A change of the book after its full book is not in the by-id copy. -/
theorem SignalReceiver.not_copiesAgree_of_change :
    ¬ (run handleMarketData (init "binance" ["BTC"]) [quotedFrame, changedFrame]).CopiesAgree := by
  decide +kernel

/-- Repeating the full book keeps the copies together. -/
theorem SignalReceiver.copiesAgree_quotedFrame :
    Along handleMarketData (fun r frame => (r.handleMarketData frame).CopiesAgree)
      (init "binance" ["BTC"]) [quotedFrame, quotedFrame] :=
  (copiesAgree_iff_changesIdle "binance" ["BTC"] [quotedFrame, quotedFrame]
    (by decide +kernel)).mpr (by decide +kernel)

end TradingSim.Bot
