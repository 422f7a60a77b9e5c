import Mathlib.Data.List.Find
import Mathlib.Data.List.ProdSigma
import TradingSim.Feed.BookDeltas

/-!
# What a broadcast carries and what a client makes of it

A broadcast is built by one pass over the books of all pairs. Distinct pairs have distinct wire
keys, so the pass acts on each key through the one book that is read for it: a key without a last
broadcast book gets a full book, any other key its changes.
-/

namespace TradingSim.Feed

open Foundations Foundations.KeyedList
open Exchange (OrderBook OrderBookLevel)
open Market

section Keys

variable (c : MarketConfig)

/-- The text before the first separator is the exchange. -/
theorem bookKey_injOn {pair pair' : String × String} (h : pair ∈ c.pairs) (h' : pair' ∈ c.pairs)
    (heq : bookKey pair = bookKey pair') : pair = pair' := by
  have hfree (p : String × String) (hp : p ∈ c.pairs) : ∀ a ∈ p.1.toList, decide (a ≠ '|') = true := by
    intro a ha
    refine decide_eq_true ?_
    rintro rfl
    exact c.separator_free p.1 (List.mem_product.mp hp).1 ha
  have hchars : pair.1.toList ++ ('|' :: pair.2.toList) = pair'.1.toList ++ ('|' :: pair'.2.toList) := by
    have := congrArg String.toList heq
    simpa [bookKey] using this
  have htake (p : String × String) (hp : p ∈ c.pairs) :
      (p.1.toList ++ ('|' :: p.2.toList)).takeWhile (fun a => decide (a ≠ '|')) = p.1.toList := by
    rw [List.takeWhile_append_of_pos (hfree p hp), List.takeWhile_cons_of_neg (by simp),
      List.append_nil]
  have hfirst : pair.1.toList = pair'.1.toList := by
    rw [← htake pair h, hchars, htake pair' h']
  rw [hfirst] at hchars
  have hsecond : pair.2.toList = pair'.2.toList := by
    simpa using List.append_cancel_left hchars
  exact Prod.ext (String.toList_injective hfirst) (String.toList_injective hsecond)

theorem pairs_keys_nodup : (c.pairs.map bookKey).Nodup :=
  (c.exchanges_nodup.product c.symbols_nodup).map_on fun _ h _ h' => bookKey_injOn c h h'

end Keys

variable {σ : Type} {L : Library σ} {c : MarketConfig}

theorem generateOrderBooks_pairs (m : MarketSimulator σ) (pairs : List (String × String)) :
    (MarketSimulator.generateOrderBooks L c m pairs).1.map Prod.fst = pairs := by
  induction pairs generalizing m with
  | nil => rfl
  | cons pair rest ih => exact congrArg (pair :: ·) (ih _)

variable {read : (String × String) × OrderBook} (s : Server σ)

theorem readBooks_pairs : ((s.readBooks L c).1).map Prod.fst = c.pairs :=
  generateOrderBooks_pairs s.market c.pairs

theorem readBooks_keys_nodup : (((s.readBooks L c).1).map fun read => bookKey read.1).Nodup := by
  have hkeys : ((s.readBooks L c).1).map (fun read => bookKey read.1) = c.pairs.map bookKey := by
    rw [← readBooks_pairs (L := L) s, List.map_map]
    rfl
  rw [hkeys]
  exact pairs_keys_nodup c

theorem exists_read {pair : String × String} (h : pair ∈ c.pairs) :
    ∃ book, (pair, book) ∈ (s.readBooks L c).1 := by
  rw [← readBooks_pairs (L := L) s] at h
  obtain ⟨read, hread, rfl⟩ := List.mem_map.mp h
  exact ⟨read.2, hread⟩

theorem pair_mem_of_read {s : Server σ} (h : read ∈ (s.readBooks L c).1) : read.1 ∈ c.pairs := by
  rw [← readBooks_pairs (L := L) s]
  exact List.mem_map.mpr ⟨read, h, rfl⟩

theorem find?_read {s : Server σ} (h : read ∈ (s.readBooks L c).1) :
    ((s.readBooks L c).1.find? fun r => bookKey r.1 = bookKey read.1) = some read := by
  have hnodup := readBooks_keys_nodup (L := L) (c := c) s
  generalize (s.readBooks L c).1 = reads at h hnodup
  induction reads with
  | nil => cases h
  | cons r rest ih =>
    rw [List.map_cons, List.nodup_cons] at hnodup
    rcases List.mem_cons.mp h with rfl | hrest
    · simp
    · have hne : bookKey r.1 ≠ bookKey read.1 := fun heq =>
        hnodup.1 (List.mem_map.mpr ⟨read, hrest, heq.symm⟩)
      rw [List.find?_cons_of_neg (by simpa using hne)]
      exact ih hrest hnodup.2

/-- Both sides of a book as price-to-quantity mappings. -/
def encoded (book : OrderBook) : EncodedBook := ⟨levelMap book.bids, levelMap book.asks⟩

/-- The change of a book from the last one broadcast; nothing if neither side changed. -/
def bookDelta (last : EncodedBook) (read : (String × String) × OrderBook) : Option DeltaEntry :=
  let bids := sideChanges last.bids (levelMap read.2.bids)
  let asks := sideChanges last.asks (levelMap read.2.asks)
  if bids = [] ∧ asks = [] then none
  else some { exchange := read.1.1, symbol := read.1.2, bids := bids, asks := asks }

/-- What a broadcast under construction holds under one key. -/
structure KeyView where
  full : Option BookEntry
  delta : Option DeltaEntry
  last : Option EncodedBook

/-- The view of a broadcast under construction at a key. -/
def FeedUpdate.view (key : String) (update : FeedUpdate) : KeyView :=
  ⟨update.orderbooks.find? key, update.orderbookDeltas.find? key, update.lastOrderbooks.find? key⟩

/-- What a book that is read makes of the view at its key. -/
def addView (read : (String × String) × OrderBook) (view : KeyView) : KeyView :=
  match view.last with
  | none => ⟨some (bookEntry read), view.delta, some (encoded read.2)⟩
  | some last => ⟨view.full, (bookDelta last read).or view.delta, some (encoded read.2)⟩

@[simp] theorem addView_none (read : (String × String) × OrderBook) :
    addView read ⟨none, none, none⟩ = ⟨some (bookEntry read), none, some (encoded read.2)⟩ := rfl

@[simp] theorem addView_some (read : (String × String) × OrderBook) (last : EncodedBook) :
    addView read ⟨none, none, some last⟩ = ⟨none, bookDelta last read, some (encoded read.2)⟩ := by
  simp [addView]

/-- A change that is sent carries the pair and the changes of both sides. -/
theorem bookDelta_eq_some {last : EncodedBook} {delta : DeltaEntry} (h : bookDelta last read = some delta) :
    delta =
      { exchange := read.1.1
        symbol := read.1.2
        bids := sideChanges last.bids (levelMap read.2.bids)
        asks := sideChanges last.asks (levelMap read.2.asks) } := by
  unfold bookDelta at h
  simp only at h
  split at h
  · cases h
  · exact (Option.some.inj h).symm

/-- Nothing is sent when neither side has changes. -/
theorem bookDelta_eq_none {last : EncodedBook} (h : bookDelta last read = none) :
    sideChanges last.bids (levelMap read.2.bids) = [] ∧
      sideChanges last.asks (levelMap read.2.asks) = [] := by
  unfold bookDelta at h
  simp only at h
  split at h
  · assumption
  · cases h

theorem view_addBook (update : FeedUpdate) (read : (String × String) × OrderBook) (key : String) :
    (update.addBook read).view key =
      if bookKey read.1 = key then addView read (update.view key) else update.view key := by
  unfold FeedUpdate.addBook computeOrderbookDelta FeedUpdate.view addView
  by_cases hkey : bookKey read.1 = key
  · subst hkey
    cases hlast : update.lastOrderbooks.find? (bookKey read.1) with
    | none => simp [hlast, encoded]
    | some last =>
      unfold bookDelta
      by_cases hchanges : sideChanges last.bids (levelMap read.2.bids) = [] ∧
          sideChanges last.asks (levelMap read.2.asks) = []
      · simp [hlast, hchanges, encoded]
      · simp [hlast, hchanges, encoded]
  · have hne : key ≠ bookKey read.1 := Ne.symm hkey
    cases hlast : update.lastOrderbooks.find? (bookKey read.1) with
    | none => simp [hlast, hkey, Dict.find?_insert_of_ne _ hne]
    | some last =>
      by_cases hchanges : sideChanges last.bids (levelMap read.2.bids) = [] ∧
          sideChanges last.asks (levelMap read.2.asks) = []
      · simp [hlast, hkey, hchanges, Dict.find?_insert_of_ne _ hne]
      · simp [hlast, hkey, hchanges, Dict.find?_insert_of_ne _ hne]

/-- The broadcast at any key: the book read for it, if there is one, is added. -/
theorem view_buildOrderbookData (key : String) : (s.buildOrderbookData L c).view key =
      ((s.readBooks L c).1.find? fun read => bookKey read.1 = key).elim
        ⟨none, none, s.lastOrderbooks.find? key⟩
        fun read => addView read ⟨none, none, s.lastOrderbooks.find? key⟩ :=
  view_foldl FeedUpdate.view view_addBook _ (readBooks_keys_nodup s) _ key

/-- A broadcast carries nothing for a key, or what the book read for it adds. -/
theorem view_cases (key : String) :
    (s.buildOrderbookData L c).view key = ⟨none, none, s.lastOrderbooks.find? key⟩ ∨
      ∃ read ∈ (s.readBooks L c).1, bookKey read.1 = key ∧ (s.buildOrderbookData L c).view key =
          addView read ⟨none, none, s.lastOrderbooks.find? key⟩ := by
  rw [view_buildOrderbookData]
  cases hread : (s.readBooks L c).1.find? fun read => decide (bookKey read.1 = key) with
  | none => exact Or.inl rfl
  | some read =>
    have hkey : bookKey read.1 = key := by simpa using List.find?_some hread
    exact Or.inr ⟨read, List.mem_of_find?_eq_some hread, hkey, rfl⟩

/-- A book is broadcast in full if none was broadcast under its key before. -/
theorem orderbooks_build_eq_some {s : Server σ} {key : String} {entry : BookEntry}
    (h : (s.buildOrderbookData L c).orderbooks.find? key = some entry) :
    s.lastOrderbooks.find? key = none ∧
      ∃ read ∈ (s.readBooks L c).1, bookKey read.1 = key ∧ entry = bookEntry read := by
  change ((s.buildOrderbookData L c).view key).full = some entry at h
  obtain hview | ⟨read, hread, hkey, hview⟩ := view_cases (L := L) (c := c) s key
  · rw [hview] at h
    cases h
  · cases hlast : s.lastOrderbooks.find? key with
    | none =>
      rw [hview, hlast, addView_none] at h
      exact ⟨rfl, read, hread, hkey, (Option.some.inj h).symm⟩
    | some last =>
      rw [hview, hlast, addView_some] at h
      cases h

/-- A change is broadcast from the book that was broadcast last under its key. -/
theorem orderbookDeltas_build_eq_some {s : Server σ} {key : String} {delta : DeltaEntry}
    (h : (s.buildOrderbookData L c).orderbookDeltas.find? key = some delta) :
    ∃ last, s.lastOrderbooks.find? key = some last ∧
      ∃ read ∈ (s.readBooks L c).1, bookKey read.1 = key ∧ bookDelta last read = some delta := by
  change ((s.buildOrderbookData L c).view key).delta = some delta at h
  obtain hview | ⟨read, hread, hkey, hview⟩ := view_cases (L := L) (c := c) s key
  · rw [hview] at h
    cases h
  · cases hlast : s.lastOrderbooks.find? key with
    | none =>
      rw [hview, hlast, addView_none] at h
      cases h
    | some last =>
      rw [hview, hlast, addView_some] at h
      exact ⟨last, rfl, read, hread, hkey, h⟩

theorem view_of_read {s : Server σ} (h : read ∈ (s.readBooks L c).1) :
    (s.buildOrderbookData L c).view (bookKey read.1) =
      addView read ⟨none, none, s.lastOrderbooks.find? (bookKey read.1)⟩ := by
  rw [view_buildOrderbookData, find?_read h, Option.elim_some]

/-- Every entry of a table of books stands under the key of its exchange and symbol. -/
def BooksFiled (books : Dict String BookEntry) : Prop :=
  ∀ key entry, books.find? key = some entry → bookKey (entry.exchange, entry.symbol) = key

/-- Every entry of a table of changes stands under the key of its exchange and symbol. -/
def DeltasFiled (deltas : Dict String DeltaEntry) : Prop :=
  ∀ key entry, deltas.find? key = some entry → bookKey (entry.exchange, entry.symbol) = key

theorem BooksFiled.filter {books : Dict String BookEntry} (h : BooksFiled books)
    (keep : String → BookEntry → Bool) : BooksFiled (books.filter keep) := by
  intro key entry hentry
  rw [Dict.find?_filter, Option.filter_eq_some_iff] at hentry
  exact h key entry hentry.1

theorem DeltasFiled.filter {deltas : Dict String DeltaEntry} (h : DeltasFiled deltas)
    (keep : String → DeltaEntry → Bool) : DeltasFiled (deltas.filter keep) := by
  intro key entry hentry
  rw [Dict.find?_filter, Option.filter_eq_some_iff] at hentry
  exact h key entry hentry.1

theorem booksFiled_ofList (reads : List ((String × String) × OrderBook)) :
    BooksFiled (Dict.ofList (fun read => bookKey read.1) bookEntry reads) := by
  intro key entry hentry
  rw [Dict.find?_ofList, Option.map_eq_some_iff] at hentry
  obtain ⟨read, hlast, rfl⟩ := hentry
  exact (mem_under.mp (List.mem_of_getLast? hlast)).2

/-- A pass over all pairs holds a book for each of them. -/
theorem isSome_find?_ofList {pair : String × String} (h : pair ∈ c.pairs) :
    ((Dict.ofList (fun read => bookKey read.1) bookEntry (s.readBooks L c).1).find?
      (bookKey pair)).isSome := by
  obtain ⟨book, hread⟩ := exists_read (L := L) s h
  have hmem : (pair, book) ∈ under (fun read : (String × String) × OrderBook => bookKey read.1)
      (bookKey pair) (s.readBooks L c).1 := mem_under.mpr ⟨hread, rfl⟩
  rw [Dict.find?_ofList, Option.isSome_map, List.getLast?_eq_some_getLast (List.ne_nil_of_mem hmem)]
  rfl

theorem booksFiled_build : BooksFiled (s.buildOrderbookData L c).orderbooks := by
  intro key entry hentry
  obtain ⟨-, read, -, hkey, rfl⟩ := orderbooks_build_eq_some hentry
  exact hkey

theorem deltasFiled_build : DeltasFiled (s.buildOrderbookData L c).orderbookDeltas := by
  intro key delta hdelta
  obtain ⟨last, -, read, -, hkey, hchange⟩ := orderbookDeltas_build_eq_some hdelta
  rw [bookDelta_eq_some hchange]
  exact hkey

section Decoding

variable {d : Decoder}

theorem fileUnder_of_filed {key exchange symbol : String} (h : bookKey (exchange, symbol) = key) :
    d.fileUnder key exchange symbol = key := by
  cases d with
  | dashboard => rfl
  | bot => exact h

theorem find?_foldl_filed {α : Type} (entries : Dict String α)
    {edit : Dict String BookEntry → String × α → Dict String BookEntry}
    (target : String × α → String) (act : α → Option BookEntry → Option BookEntry)
    (hedit : ∀ held e key, (edit held e).find? key =
      if target e = key then act e.2 (held.find? key) else held.find? key)
    (hfiled : ∀ e ∈ entries.entries, target e = e.1) (held : Dict String BookEntry) (key : String) :
    (entries.entries.foldl edit held).find? key =
      (entries.find? key).elim (held.find? key) fun v => act v (held.find? key) := by
  have hkeys : entries.entries.map target = entries.entries.map Prod.fst :=
    List.map_congr_left hfiled
  have hview : (entries.entries.foldl edit held).find? key =
      (entries.entries.find? fun e => target e = key).elim (held.find? key)
        fun e => act e.2 (held.find? key) :=
    view_foldl (fun key held => Dict.find? held key) hedit entries.entries
      (hkeys ▸ entries.nodup) held key
  have hfind : entries.entries.find? (fun e => target e = key) =
      entries.entries.find? fun e => e.1 = key :=
    List.find?_congr fun e he => by rw [hfiled e he]
  have hlookup : entries.find? key = (entries.entries.find? fun e => e.1 = key).map Prod.snd := rfl
  rw [hview, hfind, hlookup]
  cases entries.entries.find? fun e => e.1 = key with
  | none => rfl
  | some e => rfl

/-- A full book of a message is what the client holds afterwards. -/
theorem find?_updateOrderbooks {held books : Dict String BookEntry} (hfiled : BooksFiled books)
    {key : String} {entry : BookEntry} (h : books.find? key = some entry) :
    (d.updateOrderbooks held books).find? key = some entry := by
  cases d with
  | dashboard => exact h
  | bot =>
    unfold Decoder.updateOrderbooks
    rw [find?_foldl_filed books (fun e => Decoder.bot.fileUnder e.1 e.2.exchange e.2.symbol)
      (fun entry _ => some entry), h, Option.elim_some]
    · intro held e key
      rw [Dict.find?_insert]
      simp only [eq_comm]
    · intro e he
      exact fileUnder_of_filed (hfiled e.1 e.2 ((books.mem_entries_iff _ _).mp he))

/-- The changes of a message are applied to the books that the client holds. -/
theorem find?_updateDeltas {held : Dict String BookEntry} {deltas : Dict String DeltaEntry}
    (hfiled : DeltasFiled deltas) (key : String) :
    (deltas.entries.foldl d.updateOrderbookDelta held).find? key =
      (deltas.find? key).elim (held.find? key) fun delta =>
        (held.find? key).map fun book => d.applyEntry book delta := by
  refine find?_foldl_filed deltas (fun e => d.fileUnder e.1 e.2.exchange e.2.symbol)
    (fun delta book => book.map fun book => d.applyEntry book delta) ?_ ?_ held key
  · intro held e key
    unfold Decoder.updateOrderbookDelta
    by_cases hkey : d.fileUnder e.1 e.2.exchange e.2.symbol = key
    · rw [hkey, if_pos rfl]
      cases hbook : held.find? key with
      | none => simp [hbook]
      | some book => simp [hbook]
    · rw [if_neg hkey]
      cases hbook : held.find? (d.fileUnder e.1 e.2.exchange e.2.symbol) with
      | none => simp only [hbook]
      | some book =>
        simp only [hbook]
        exact Dict.find?_insert_of_ne held (Ne.symm hkey) _
  · intro e he
    exact fileUnder_of_filed (hfiled e.1 e.2 ((deltas.mem_entries_iff _ _).mp he))

end Decoding

end TradingSim.Feed
