import Mathlib.Data.String.Basic
import TradingSim.Foundations.Run
import TradingSim.Bot.SignalReceiver
import TradingSim.Shm.SinglePrecision

/-!
# Market snapshots in shared memory

The simulator numbers the market's symbols in sorted order and writes each symbol's quotes into the
slot of its number. The bot reads the slots and takes the number of a slot for an index into its
configured symbols.
-/

namespace TradingSim.Shm

open Foundations
open TradingSim.Bot (SignalReceiver)
open Feed (BookEntry)

/-- A market snapshot in a slot. -/
structure MarketSnapshot where
  timestamp : ℕ
  symbolId : ℕ
  bid : ℚ
  ask : ℚ
  last : ℚ
  volume : ℚ
  deriving DecidableEq

/-- Pack the quotes around a price; none if a field does not fit its format. -/
def packSnapshot (timestamp sid : ℕ) (price : ℚ) : Option MarketSnapshot := do
  guard (timestamp < 2 ^ 64 ∧ sid < 2 ^ 8)
  let bid ← packSingle (price * (9999 / 10000))
  let ask ← packSingle (price * (10001 / 10000))
  let last ← packSingle price
  let volume ← packSingle 1000
  return { timestamp, symbolId := sid, bid, ask, last, volume }

/-- The slots of a segment; none until something is published in a slot. -/
abbrev Slots := List (Option MarketSnapshot)

/-- The market's symbols in the order in which the simulator numbers them. -/
def sortedSymbols (symbols : List String) : List String := symbols.insertionSort (· ≤ ·)

/-- The slot of each published symbol. -/
def shmSymbolIds (maxSymbols : ℕ) (symbols : List String) : Dict String ℕ :=
  Dict.ofList Prod.fst Prod.snd ((sortedSymbols symbols).take maxSymbols).zipIdx

/-- Publish the symbols in turn. One without a price is passed over; one that cannot be packed or
has no slot ends the round. -/
def publishSlots (prices : Dict String ℚ) (timestamp : ℕ) : List (String × ℕ) → Slots → Slots
  | [], slots => slots
  | (sym, sid) :: rest, slots =>
    let price := (prices.find? sym).getD 0
    if price ≤ 0 then publishSlots prices timestamp rest slots
    else
      match packSnapshot timestamp sid price with
      | some snapshot =>
        if sid < slots.length then
          publishSlots prices timestamp rest (slots.set sid (some snapshot))
        else slots
      | none => slots

/-- One round of the simulator's `_publish_shm_snapshot`, at the prices of its first exchange. -/
def publishShmSnapshot (symbolIds : Dict String ℕ) (prices : Dict String ℚ) (timestamp : ℕ)
    (slots : Slots) : Slots :=
  publishSlots prices timestamp symbolIds.entries slots

/-- Take over the snapshot of one slot, if there is one. -/
def injectSlot (slots : Slots) (r : SignalReceiver) (sid : ℕ) : SignalReceiver :=
  match slots[sid]? with
  | some (some snapshot) => r.injectSnapshot sid snapshot.bid snapshot.ask snapshot.volume
  | _ => r

/-- One sweep of the bot over the slots. It counts slots in eight bits. -/
def pollShmMarketData (maxSymbols : ℕ) (slots : Slots) (r : SignalReceiver) : SignalReceiver :=
  if r.idToSymbol = [] then r
  else (List.range (maxSymbols % 2 ^ 8)).foldl (injectSlot slots) r

section Publishing

variable {prices : Dict String ℚ} {timestamp : ℕ}

theorem publishSlots_sound {entries : List (String × ℕ)} {slots : Slots} {sid : ℕ}
    {snapshot : MarketSnapshot}
    (h : (publishSlots prices timestamp entries slots)[sid]? = some (some snapshot)) :
    slots[sid]? = some (some snapshot) ∨ ∃ sym, (sym, sid) ∈ entries ∧
      packSnapshot timestamp sid ((prices.find? sym).getD 0) = some snapshot := by
  induction entries generalizing slots with
  | nil => exact Or.inl h
  | cons entry rest ih =>
    obtain ⟨sym, sid'⟩ := entry
    have hlater (slots' : Slots)
        (h' : (publishSlots prices timestamp rest slots')[sid]? = some (some snapshot)) :
        slots'[sid]? = some (some snapshot) ∨ ∃ sym', (sym', sid) ∈ (sym, sid') :: rest ∧
          packSnapshot timestamp sid ((prices.find? sym').getD 0) = some snapshot := by
      obtain hkept | ⟨sym', hmem, hpack⟩ := ih h'
      · exact Or.inl hkept
      · exact Or.inr ⟨sym', List.mem_cons_of_mem _ hmem, hpack⟩
    rw [publishSlots] at h
    split at h
    · exact hlater slots h
    · split at h
      · rename_i packed hpacked
        split at h
        · obtain hset | hfound := hlater _ h
          · rw [List.getElem?_set] at hset
            by_cases hsid : sid' = sid
            · subst hsid
              refine Or.inr ⟨sym, List.mem_cons_self, ?_⟩
              simp_all
            · rw [if_neg hsid] at hset
              exact Or.inl hset
          · exact Or.inr hfound
        · exact Or.inl h
      · exact Or.inl h

theorem length_publishSlots (entries : List (String × ℕ)) (slots : Slots) :
    (publishSlots prices timestamp entries slots).length = slots.length := by
  induction entries generalizing slots with
  | nil => rfl
  | cons entry rest ih =>
    rw [publishSlots]
    split
    · exact ih slots
    · split
      · split
        · rw [ih, List.length_set]
        · rfl
      · rfl

/-- Where every symbol before it is without a price or has a slot and packs, the quotes of a
symbol are published, and later symbols do not overwrite them. -/
theorem publishSlots_complete {before after : List (String × ℕ)} {sym : String} {sid : ℕ}
    {slots : Slots} {snapshot : MarketSnapshot} (hslot : sid < slots.length)
    (hbefore : ∀ e ∈ before, 0 < (prices.find? e.1).getD 0 → e.2 < slots.length ∧
      (packSnapshot timestamp e.2 ((prices.find? e.1).getD 0)).isSome)
    (hprice : 0 < (prices.find? sym).getD 0)
    (hpack : packSnapshot timestamp sid ((prices.find? sym).getD 0) = some snapshot)
    (hafter : ∀ e ∈ after, e.2 ≠ sid) :
    (publishSlots prices timestamp (before ++ (sym, sid) :: after) slots)[sid]? =
      some (some snapshot) := by
  induction before generalizing slots with
  | nil =>
    have hrest (entries : List (String × ℕ)) (slots' : Slots) (hother : ∀ e ∈ entries, e.2 ≠ sid) :
        (publishSlots prices timestamp entries slots')[sid]? = slots'[sid]? := by
      induction entries generalizing slots' with
      | nil => rfl
      | cons entry rest ih =>
        rw [List.forall_mem_cons] at hother
        rw [publishSlots]
        split
        · exact ih slots' hother.2
        · split
          · split
            · rw [ih _ hother.2, List.getElem?_set_ne hother.1]
            · rfl
          · rfl
    rw [List.nil_append, publishSlots, if_neg (not_le.mpr hprice), hpack]
    simp only [hslot, if_true]
    rw [hrest after _ hafter, List.getElem?_set_self hslot]
  | cons entry rest ih =>
    rw [List.forall_mem_cons] at hbefore
    rw [List.cons_append, publishSlots]
    split
    · exact ih hslot hbefore.2
    · rename_i hpriced
      obtain ⟨hlt, hpacked⟩ := hbefore.1 (not_le.mp hpriced)
      obtain ⟨packed, hpacked⟩ := Option.isSome_iff_exists.mp hpacked
      rw [hpacked]
      simp only [hlt, if_true]
      apply ih
      · rwa [List.length_set]
      · intro e he hpos
        rw [List.length_set]
        exact hbefore.2 e he hpos

end Publishing

section Polling

variable {slots : Slots} {r : SignalReceiver}

/-- A book that was injected into an empty one. -/
def quoteBook (sym : String) (snapshot : MarketSnapshot) : BookEntry where
  exchange := "shm"
  symbol := sym
  bids := [⟨snapshot.bid, snapshot.volume / 10⟩]
  asks := [⟨snapshot.ask, snapshot.volume / 10⟩]

theorem idToSymbol_injectSlot (sid : ℕ) : (injectSlot slots r sid).idToSymbol = r.idToSymbol := by
  unfold injectSlot
  split
  · unfold SignalReceiver.injectSnapshot
    split <;> rfl
  · rfl

theorem obsById_injectSlot_of_ne {sid id : ℕ} (h : sid ≠ id) :
    (injectSlot slots r sid).obsById[id]? = r.obsById[id]? := by
  unfold injectSlot
  split
  · unfold SignalReceiver.injectSnapshot
    split
    · rfl
    · exact List.getElem?_modify_ne _ _ h
  · rfl

theorem obsById_injectSlot_congr {s : SignalReceiver} {id : ℕ} (hids : s.idToSymbol = r.idToSymbol)
    (hbook : s.obsById[id]? = r.obsById[id]?) :
    (injectSlot slots s id).obsById[id]? = (injectSlot slots r id).obsById[id]? := by
  unfold injectSlot
  split
  · unfold SignalReceiver.injectSnapshot
    rw [hids]
    cases r.idToSymbol[id]? with
    | none => exact hbook
    | some sym => simp only [List.getElem?_modify, hbook]
  · exact hbook

theorem obsById_sweep (n id : ℕ) : ((List.range n).foldl (injectSlot slots) r).obsById[id]? =
      if id < n then (injectSlot slots r id).obsById[id]? else r.obsById[id]? := by
  induction n with
  | zero => simp
  | succ n ih =>
    have hids : ((List.range n).foldl (injectSlot slots) r).idToSymbol = r.idToSymbol :=
      run_unchanged SignalReceiver.idToSymbol (fun _ _ => idToSymbol_injectSlot _) r (List.range n)
    rw [List.range_succ, List.foldl_append, List.foldl_cons, List.foldl_nil]
    by_cases hid : n = id
    · subst hid
      rw [if_neg (lt_irrefl n)] at ih
      rw [if_pos (Nat.lt_succ_self n), obsById_injectSlot_congr hids ih]
    · rw [obsById_injectSlot_of_ne hid, ih]
      congr 1
      exact propext (by omega)

/-- The books that a fresh receiver serves by id after a sweep are those of the slots within
reach, under the configured symbols. -/
theorem getOrderBookById_poll_iff {maxSymbols id : ℕ} {defaultExchange : String}
    {configured : List String} {book : BookEntry} : (pollShmMarketData maxSymbols slots
        (SignalReceiver.init defaultExchange configured)).getOrderBookById id = some book ↔
      id < maxSymbols % 2 ^ 8 ∧ ∃ sym snapshot, configured[id]? = some sym ∧
        slots[id]? = some (some snapshot) ∧ quoteBook sym snapshot = book := by
  have hinit := SignalReceiver.getOrderBookById_init defaultExchange configured id
  have hids : (SignalReceiver.init defaultExchange configured).idToSymbol = configured := rfl
  have hobs : (SignalReceiver.init defaultExchange configured).obsById =
      List.replicate configured.length Bot.emptyBook := rfl
  unfold pollShmMarketData
  rw [hids]
  by_cases hnone : configured = []
  · simp [hnone, SignalReceiver.getOrderBookById_init]
  · rw [if_neg hnone, SignalReceiver.getOrderBookById_eq_some, obsById_sweep]
    have hnever : ¬ ((SignalReceiver.init defaultExchange configured).obsById[id]? = some book ∧
        book.bids ≠ []) := by
      rw [← SignalReceiver.getOrderBookById_eq_some, hinit]
      exact Option.some_ne_none book ∘ Eq.symm
    by_cases hreach : id < maxSymbols % 2 ^ 8
    · rw [if_pos hreach]
      unfold injectSlot
      split
      · rename_i snapshot hslot
        unfold SignalReceiver.injectSnapshot
        rw [hids]
        cases hsym : configured[id]? with
        | none => simpa [hsym] using hnever
        | some sym =>
          have hlt : id < configured.length := (List.getElem?_eq_some_iff.mp hsym).1
          have hwritten : ((SignalReceiver.init defaultExchange configured).obsById.modify id
              fun book => ⟨"shm", sym, SignalReceiver.setTop book.bids ⟨snapshot.bid, snapshot.volume / 10⟩,
                SignalReceiver.setTop book.asks ⟨snapshot.ask, snapshot.volume / 10⟩⟩)[id]? =
              some (quoteBook sym snapshot) := by
            simp [hobs, hlt, SignalReceiver.setTop, Bot.emptyBook, quoteBook]
          simp only [hwritten, hreach, hslot, Option.some.injEq, exists_and_left, exists_eq_left',
            true_and, and_iff_left_iff_imp]
          rintro rfl
          simp [quoteBook]
      · rename_i hslot
        simp only [hnever, hreach, true_and, false_iff, not_exists, not_and]
        intro sym snapshot _ hsome
        exact absurd hsome (hslot snapshot)
    · rw [if_neg hreach]
      simp only [hnever, hreach, false_and]

end Polling

theorem sortedSymbols_perm (symbols : List String) : (sortedSymbols symbols).Perm symbols :=
  List.perm_insertionSort _ symbols

/-- A slot is published for the symbol of its place in the sorted list, up to the limit. -/
theorem mem_shmSymbolIds_iff {symbols : List String} (hnodup : symbols.Nodup) (maxSymbols : ℕ)
    (sym : String) (sid : ℕ) : (sym, sid) ∈ (shmSymbolIds maxSymbols symbols).entries ↔
      sid < maxSymbols ∧ (sortedSymbols symbols)[sid]? = some sym := by
  rw [shmSymbolIds, Dict.entries_ofList]
  · simp [List.mem_zipIdx_iff_getElem?, List.getElem?_take]
  · rw [List.zipIdx_map_fst]
    exact (((sortedSymbols_perm symbols).nodup_iff).mpr hnodup).sublist (List.take_sublist _ _)

/-- The packed quotes are those around the price, rounded to single precision. -/
theorem packSnapshot_eq_some {timestamp sid : ℕ} {price : ℚ} {snapshot : MarketSnapshot}
    (h : packSnapshot timestamp sid price = some snapshot) :
    snapshot.bid = single (price * (9999 / 10000)) ∧ snapshot.ask = single (price * (10001 / 10000)) := by
  simp only [packSnapshot, Option.bind_eq_bind, Option.bind_eq_some_iff] at h
  obtain ⟨_, _, bid, hbid, ask, hask, last, _, volume, _, hsnapshot⟩ := h
  cases hsnapshot
  exact ⟨packSingle_eq_some hbid, packSingle_eq_some hask⟩

theorem isSome_packSnapshot_one {sid : ℕ} (h : sid < 2 ^ 8) : (packSnapshot 0 sid 1).isSome := by
  have hbid : (packSingle (1 * (9999 / 10000))).isSome := by decide +kernel
  have hask : (packSingle (1 * (10001 / 10000))).isSome := by decide +kernel
  have hlast : (packSingle 1).isSome := by decide +kernel
  have hvolume : (packSingle 1000).isSome := by decide +kernel
  obtain ⟨bid, hbid⟩ := Option.isSome_iff_exists.mp hbid
  obtain ⟨ask, hask⟩ := Option.isSome_iff_exists.mp hask
  obtain ⟨last, hlast⟩ := Option.isSome_iff_exists.mp hlast
  obtain ⟨volume, hvolume⟩ := Option.isSome_iff_exists.mp hvolume
  have hguard : 0 < 2 ^ 64 ∧ sid < 2 ^ 8 := ⟨by norm_num, h⟩
  simp only [packSnapshot, guard, if_pos hguard, hbid, hask, hlast, hvolume]
  rfl

section Rounds

variable (c : Market.MarketConfig) (configured : List String) (maxSymbols slotCount botMaxSymbols : ℕ)
  (defaultExchange : String)

/-- The fresh receiver after one round of publishing into an empty segment and one sweep. -/
def afterRound (prices : Dict String ℚ) (timestamp : ℕ) : SignalReceiver :=
  pollShmMarketData botMaxSymbols
    (publishShmSnapshot (shmSymbolIds maxSymbols c.symbols) prices timestamp
      (List.replicate slotCount none))
    (SignalReceiver.init defaultExchange configured)

/-- Every book that is served for a configured symbol has that symbol's bid and ask on top. -/
def QuotesOwn (prices : Dict String ℚ) (timestamp : ℕ) : Prop :=
  ∀ id sym, configured[id]? = some sym → ∀ book,
    (afterRound c configured maxSymbols slotCount botMaxSymbols defaultExchange prices
      timestamp).getOrderBookById id = some book →
    book.bids.head?.map Exchange.OrderBookLevel.price =
        some (single ((prices.find? sym).getD 0 * (9999 / 10000))) ∧
      book.asks.head?.map Exchange.OrderBookLevel.price =
        some (single ((prices.find? sym).getD 0 * (10001 / 10000)))

variable {c configured maxSymbols slotCount botMaxSymbols defaultExchange}

/-- When only one symbol has a price, its quotes are in the slot of its number. -/
theorem publish_only {sym : String} {sid : ℕ} (hsym : (sortedSymbols c.symbols)[sid]? = some sym)
    (hlimit : sid < maxSymbols) (hslot : sid < slotCount) (hfit : sid < 2 ^ 8) :
    ∃ snapshot, packSnapshot 0 sid 1 = some snapshot ∧
      (publishShmSnapshot (shmSymbolIds maxSymbols c.symbols) (Dict.empty.insert sym 1) 0
        (List.replicate slotCount none))[sid]? = some (some snapshot) := by
  obtain ⟨snapshot, hpack⟩ := Option.isSome_iff_exists.mp (isSome_packSnapshot_one hfit)
  refine ⟨snapshot, hpack, ?_⟩
  have hplaces := mem_shmSymbolIds_iff c.symbols_nodup maxSymbols
  have hsorted := ((sortedSymbols_perm c.symbols).nodup_iff).mpr c.symbols_nodup
  obtain ⟨before, after, hentries⟩ := List.append_of_mem ((hplaces sym sid).mpr ⟨hlimit, hsym⟩)
  have hmine : ∀ e ∈ before ++ (sym, sid) :: after, e.1 = sym → e.2 = sid := by
    rintro ⟨sym', sid'⟩ he rfl
    rw [← hentries, hplaces] at he
    obtain ⟨hlt, heq⟩ := List.getElem?_eq_some_iff.mp hsym
    obtain ⟨hlt', heq'⟩ := List.getElem?_eq_some_iff.mp he.2
    exact hsorted.getElem_inj_iff.mp (heq'.trans heq.symm)
  have hprice : ∀ sym', 0 < (((Dict.empty.insert sym 1 : Dict String ℚ)).find? sym').getD 0 →
      sym' = sym := by
    intro sym' hpos
    by_contra hne
    rw [Dict.find?_insert_of_ne _ hne] at hpos
    simp at hpos
  unfold publishShmSnapshot
  rw [hentries]
  apply publishSlots_complete
  · rwa [List.length_replicate]
  · intro e he hpos
    have hsym' := hprice e.1 hpos
    have hsid := hmine e (List.mem_append_left _ he) hsym'
    rw [hsym', hsid, List.length_replicate, Dict.find?_insert_self, Option.getD_some, hpack]
    exact ⟨hslot, rfl⟩
  · simp
  · simpa using hpack
  · intro e he hsid
    have hkeys := (shmSymbolIds maxSymbols c.symbols).nodup
    rw [hentries, List.map_append, List.map_cons, List.nodup_append] at hkeys
    have hmem : (e.1, sid) ∈ (shmSymbolIds maxSymbols c.symbols).entries := by
      rw [hentries, ← hsid]
      exact List.mem_append_right _ (List.mem_cons_of_mem _ he)
    have hsame : e.1 = sym :=
      Option.some.inj (((hplaces e.1 sid).mp hmem).2.symm.trans hsym)
    exact (List.nodup_cons.mp hkeys.2.1).1 (List.mem_map.mpr ⟨e, he, hsame⟩)

theorem symbol_of_quotesOwn (h : ∀ prices timestamp,
      QuotesOwn c configured maxSymbols slotCount botMaxSymbols defaultExchange prices timestamp)
    {id : ℕ} {sym sym' : String} (hsym : (sortedSymbols c.symbols)[id]? = some sym)
    (hlimit : id < maxSymbols) (hslot : id < slotCount) (hreach : id < botMaxSymbols % 2 ^ 8)
    (hsym' : configured[id]? = some sym') : sym' = sym := by
  by_contra hne
  -- Only the published symbol has a price, so the other one is quoted at a price it does not have.
  have hfit : id < 2 ^ 8 := hreach.trans (Nat.mod_lt _ (by norm_num))
  obtain ⟨snapshot, hpack, hpublished⟩ := publish_only (c := c) hsym hlimit hslot hfit
  have hbook : (afterRound c configured maxSymbols slotCount botMaxSymbols defaultExchange
      (Dict.empty.insert sym 1) 0).getOrderBookById id = some (quoteBook sym' snapshot) :=
    getOrderBookById_poll_iff.mpr ⟨hreach, sym', snapshot, hsym', hpublished, rfl⟩
  have hquotes := (h (Dict.empty.insert sym 1) 0 id sym' hsym' _ hbook).1
  have habsent : (Dict.empty.insert sym (1 : ℚ)).find? sym' = none := by
    rw [Dict.find?_insert_of_ne _ hne, Dict.find?_empty]
  rw [habsent, Option.getD_none, zero_mul, single_zero] at hquotes
  have hbid : snapshot.bid = 0 := Option.some.inj hquotes
  rw [(packSnapshot_eq_some hpack).1] at hbid
  exact absurd hbid (by decide +kernel)

/-- Quotes reach their own symbol, at all prices, exactly when the configuration begins with the
sorted symbols of the slots that both sides use. -/
theorem quotesOwn_iff_sortedPrefix (hperm : configured.Perm c.symbols) : (∀ prices timestamp,
        QuotesOwn c configured maxSymbols slotCount botMaxSymbols defaultExchange prices timestamp) ↔
      configured.take (min (min maxSymbols slotCount) (botMaxSymbols % 2 ^ 8)) =
        (sortedSymbols c.symbols).take (min (min maxSymbols slotCount) (botMaxSymbols % 2 ^ 8)) := by
  have hplaces := mem_shmSymbolIds_iff c.symbols_nodup maxSymbols
  constructor
  · intro h
    apply List.ext_getElem?
    intro id
    rw [List.getElem?_take, List.getElem?_take]
    split
    · rename_i hid
      simp only [lt_min_iff] at hid
      obtain ⟨⟨hlimit, hslot⟩, hreach⟩ := hid
      have hlength : configured.length = (sortedSymbols c.symbols).length :=
        hperm.length_eq.trans (sortedSymbols_perm c.symbols).length_eq.symm
      cases hsym : (sortedSymbols c.symbols)[id]? with
      | none =>
        rw [List.getElem?_eq_none_iff] at hsym ⊢
        omega
      | some sym =>
        have hlt : id < configured.length :=
          hlength ▸ (List.getElem?_eq_some_iff.mp hsym).1
        obtain ⟨sym', hsym'⟩ : ∃ sym', configured[id]? = some sym' :=
          ⟨_, List.getElem?_eq_getElem hlt⟩
        rw [hsym']
        exact congrArg some (symbol_of_quotesOwn h hsym hlimit hslot hreach hsym')
    · rfl
  · intro hsame prices timestamp id sym hsym book hbook
    obtain ⟨hreach, sym', snapshot, _, hslot, rfl⟩ := getOrderBookById_poll_iff.mp hbook
    have hcount : id < slotCount := by
      have hlt := (List.getElem?_eq_some_iff.mp hslot).1
      rwa [publishShmSnapshot, length_publishSlots, List.length_replicate] at hlt
    obtain hempty | ⟨owner, howner, hpack⟩ := publishSlots_sound hslot
    · rw [List.getElem?_replicate, if_pos hcount] at hempty
      cases hempty
    · obtain ⟨hlimit, hplace⟩ := (hplaces owner id).mp howner
      have hid := congrArg (fun l => l[id]?) hsame
      simp only [List.getElem?_take_of_lt (lt_min (lt_min hlimit hcount) hreach), hsym, hplace,
        Option.some.injEq] at hid
      subst hid
      obtain ⟨hbid, hask⟩ := packSnapshot_eq_some hpack
      exact ⟨congrArg some hbid, congrArg some hask⟩

end Rounds

theorem listedExchanges_nodup : (["binance", "bybit"] : List String).Nodup := by decide

theorem listedExchanges_ne_nil : (["binance", "bybit"] : List String) ≠ [] := by decide

theorem listedExchanges_separator_free : ∀ exchange ∈ ["binance", "bybit"], '|' ∉ exchange.toList := by
  decide

/-- A market of two symbols that are not listed in alphabetical order. -/
def listedMarket : Market.MarketConfig where
  symbols := ["BTC/USDT", "BNB/USDT"]
  exchanges := ["binance", "bybit"]
  initialPrices := fun _ => 1
  volatility := fun _ => 1
  symbolCorr := fun _ => 1
  symbols_nodup := by decide
  exchanges_nodup := listedExchanges_nodup
  symbols_ne_nil := by decide
  exchanges_ne_nil := listedExchanges_ne_nil
  timeframe_pos := by decide
  separator_free := listedExchanges_separator_free

/-- Its prices on the first exchange. -/
def listedPrices : Dict String ℚ := (Dict.empty.insert "BTC/USDT" 65000).insert "BNB/USDT" 580

/-- A bot that lists the symbols as the market does prices one with the quotes of the other. -/
theorem not_quotesOwn_of_marketOrder :
    ¬ QuotesOwn listedMarket ["BTC/USDT", "BNB/USDT"] 10 10 10 "binance" listedPrices 0 := by
  intro h
  have hserved : ((afterRound listedMarket ["BTC/USDT", "BNB/USDT"] 10 10 10 "binance" listedPrices
      0).getOrderBookById 0).isSome := by decide +kernel
  have hother : ((afterRound listedMarket ["BTC/USDT", "BNB/USDT"] 10 10 10 "binance" listedPrices
      0).getOrderBookById 0).map (fun book => book.bids.head?.map Exchange.OrderBookLevel.price) =
      some (some (single (580 * (9999 / 10000)))) := by decide +kernel
  obtain ⟨book, hbook⟩ := Option.isSome_iff_exists.mp hserved
  rw [hbook, Option.map_some, (h 0 "BTC/USDT" rfl book hbook).1] at hother
  exact absurd hother (by decide +kernel)

/-- A bot that lists the symbols in alphabetical order gets every symbol's own quotes. -/
theorem quotesOwn_of_sorted :
    QuotesOwn listedMarket ["BNB/USDT", "BTC/USDT"] 10 10 10 "binance" listedPrices 0 :=
  (quotesOwn_iff_sortedPrefix (by decide)).mpr (by decide +kernel) listedPrices 0

end TradingSim.Shm
