import TradingSim.Feed.GapRecovery

/-!
# What a subscription receives

A client's set starts as all symbols of the market; its requests replace it or take symbols out. The
broadcast loop builds one message for each encoding and set, and takes an empty set for one without
a filter.
-/

namespace TradingSim.Feed

open Foundations
open Market
open Session (tapedLibrary stillMarket)

/-- How messages are encoded for a client. -/
inductive Encoding where
  | json
  | msgpack
  deriving DecidableEq

/-- A broadcast with the prices by exchange and symbol. -/
structure BroadcastFrame extends MarketMessage where
  prices : Dict String (Dict String ℚ)

/-- What of a broadcast is about a set of symbols. Tables without entries are left out. -/
def BroadcastFrame.restrict (frame : BroadcastFrame) (subs : Finset String) : BroadcastFrame where
  type := frame.type
  seq := frame.seq
  timestamp := frame.timestamp
  candles := frame.candles.filter fun candle => candle.symbol ∈ subs
  prices := frame.prices.mapValues fun _ prices => prices.filter fun sym _ => sym ∈ subs
  orderbooks := frame.orderbooks.bind fun books =>
    nonEmpty (books.filter fun _ entry => entry.symbol ∈ subs)
  orderbookDeltas := frame.orderbookDeltas.bind fun deltas =>
    nonEmpty (deltas.filter fun _ entry => entry.symbol ∈ subs)

/-- `get_all_prices`. -/
def allPrices {σ : Type} (c : MarketConfig) (m : MarketSimulator σ) : Dict String (Dict String ℚ) :=
  Dict.ofList id (fun exchange =>
    Dict.ofList id (fun sym => m.getPrice (exchange, sym)) c.symbols) c.exchanges

/-- A client of a broadcast. -/
structure Recipient where
  id : ℕ
  encoding : Encoding
  subs : Finset String

/-- Whether a set is taken for no filter. -/
def isFull (c : MarketConfig) (subs : Finset String) : Bool := subs = c.symbols.toFinset ∨ subs = ∅

/-- The key of the message a client receives: the encoding, and the set unless it is no filter. -/
def Recipient.variant (c : MarketConfig) (r : Recipient) : Encoding × Option (Finset String) :=
  (r.encoding, if isFull c r.subs then none else some r.subs)

/-- The feed's server with the encodings of its clients. -/
structure FeedServer (σ : Type) where
  server : Server σ
  encodings : Dict ℕ Encoding := Dict.empty

/-- An event of the server; a subscription asks for an encoding, too. -/
structure EncodedEvent where
  event : Event
  encoding : Encoding := .json

namespace FeedServer

variable {σ : Type} (L : Library σ) (c : MarketConfig)

def encodingsAfter (x : FeedServer σ) (e : EncodedEvent) : Dict ℕ Encoding :=
  match e.event with
  | .subscribe client _ =>
    match x.server.clientSubscriptions.find? client with
    | some _ => x.encodings.insert client e.encoding
    | none => x.encodings
  | .disconnect client => x.encodings.erase client
  | _ => x.encodings

def step (x : FeedServer σ) (e : EncodedEvent) : FeedServer σ where
  server := (x.server.step L c e.event).1
  encodings := x.encodingsAfter e

/-- `_build_full_message`. -/
def fullFrame (x : FeedServer σ) : BroadcastFrame where
  toMarketMessage := x.server.buildFullMessage c (x.server.sequenceNumber + 1)
    (x.server.buildOrderbookData L c)
  prices := allPrices c x.server.market

/-- `_build_filtered_message`. -/
def filteredFrame (x : FeedServer σ) (subs : Finset String) : BroadcastFrame where
  toMarketMessage := x.server.buildFilteredMessage c (x.server.sequenceNumber + 1)
    (x.server.buildOrderbookData L c) subs
  prices := (allPrices c x.server.market).mapValues fun _ prices =>
    prices.filter fun sym _ => sym ∈ subs

/-- The encoded message of a variant. -/
def encodedVariant (x : FeedServer σ) (variant : Encoding × Option (Finset String)) :
    Encoding × BroadcastFrame :=
  (variant.1,
    match variant.2 with
    | none => x.fullFrame L c
    | some subs => x.filteredFrame L c subs)

/-- The clients that a broadcast goes to. -/
def recipients (x : FeedServer σ) : List Recipient :=
  x.server.clientSubscriptions.entries.map fun entry =>
    { id := entry.1
      encoding := (x.encodings.find? entry.1).getD .json
      subs := entry.2 }

/-- `_broadcast_market_data`: each variant is built and encoded once. -/
def broadcast (x : FeedServer σ) : List (ℕ × Encoding × BroadcastFrame) :=
  (x.recipients.map Recipient.id).zip
    ((Memo.empty (x.encodedVariant L c)).getAll (x.recipients.map (Recipient.variant c)))

/-- The broadcasts that the next event sends to a client. -/
def broadcastsTo (x : FeedServer σ) (client : ℕ) (e : EncodedEvent) : List BroadcastFrame :=
  if x.server.broadcasts e.event then
    ((x.broadcast L c).filter fun sent => sent.1 = client).map fun sent => sent.2.2
  else []

/-- The server before anything happened. -/
def init (rng : σ) : FeedServer σ := { server := Server.init L c rng }

end FeedServer

/-- What an event makes of a client's set: a non-empty list replaces it, a removal takes symbols out, and
anything but a list asks for all. -/
def requested (c : MarketConfig) (client : ℕ) (subs : Finset String) : Event → Finset String
  | .subscribe k (.listed (sym :: rest)) => if k = client then (sym :: rest).toFinset else subs
  | .subscribe k .notAList => if k = client then c.symbols.toFinset else subs
  | .unsubscribe k symbols => if k = client then subs \ symbols.toFinset else subs
  | _ => subs

/-- The set of a client that was connected before some events. -/
def currentSet (c : MarketConfig) (client : ℕ) (events : List EncodedEvent) : Finset String :=
  events.foldl (fun subs e => requested c client subs e.event) c.symbols.toFinset

theorem nonEmpty_bind_filter {α : Type} (d : Dict String α) (keep : String → α → Bool) :
    ((nonEmpty d).bind fun entries => nonEmpty (entries.filter keep)) = nonEmpty (d.filter keep) := by
  by_cases hempty : d.entries = []
  · have hnone : (d.filter keep).entries = [] := by
      unfold Dict.filter
      simp [hempty]
    rw [nonEmpty, if_pos hempty, nonEmpty, if_pos hnone]
    rfl
  · rw [nonEmpty, if_neg hempty]
    rfl

namespace FeedServer

variable {σ : Type} {L : Library σ} {c : MarketConfig}

/-- What is sent does not depend on the table of encoded messages. -/
theorem broadcast_eq (x : FeedServer σ) : x.broadcast L c =
      x.recipients.map fun r => (r.id, x.encodedVariant L c (r.variant c)) := by
  rw [broadcast, Memo.getAll_eq_map, List.map_map, List.zip_map']
  rfl

theorem filteredFrame_eq (x : FeedServer σ) (subs : Finset String) :
    x.filteredFrame L c subs = (x.fullFrame L c).restrict subs := by
  unfold filteredFrame BroadcastFrame.restrict fullFrame Server.buildFullMessage
    Server.buildFilteredMessage
  simp only [nonEmpty_bind_filter]

variable {x : FeedServer σ}

/-- Everything in the full message is about the market's symbols. -/
theorem restrict_fullFrame (hlabelled : x.server.market.Labelled) :
    (x.fullFrame L c).restrict c.symbols.toFinset = x.fullFrame L c := by
  have hcandles : ((x.server.market.getLatestCandles c).filter fun candle =>
      candle.symbol ∈ c.symbols.toFinset) = x.server.market.getLatestCandles c := by
    apply List.filter_eq_self.mpr
    intro candle hcandle
    exact decide_eq_true (List.mem_toFinset.mpr (hlabelled.symbol_mem hcandle))
  have hprices : ((allPrices c x.server.market).mapValues fun _ prices =>
      prices.filter fun sym _ => sym ∈ c.symbols.toFinset) = allPrices c x.server.market := by
    apply Dict.mapValues_eq_self
    intro exchange prices hprices
    rw [allPrices, Dict.find?_ofList] at hprices
    obtain ⟨_, -, rfl⟩ := Option.map_eq_some_iff.mp hprices
    apply Dict.filter_eq_self
    intro sym price hprice
    rw [Dict.find?_ofList] at hprice
    obtain ⟨sym', hlast, -⟩ := Option.map_eq_some_iff.mp hprice
    obtain ⟨hmem, rfl⟩ := KeyedList.mem_under.mp (List.mem_of_getLast? hlast)
    exact decide_eq_true (List.mem_toFinset.mpr hmem)
  have hbooks : ((x.server.buildOrderbookData L c).orderbooks.filter fun _ entry =>
      decide (entry.symbol ∈ c.symbols.toFinset)) = (x.server.buildOrderbookData L c).orderbooks := by
    apply Dict.filter_eq_self
    intro key entry hentry
    obtain ⟨-, read, hread, -, rfl⟩ := orderbooks_build_eq_some hentry
    exact decide_eq_true (List.mem_toFinset.mpr (List.mem_product.mp (pair_mem_of_read hread)).2)
  have hdeltas : ((x.server.buildOrderbookData L c).orderbookDeltas.filter fun _ entry =>
      decide (entry.symbol ∈ c.symbols.toFinset)) =
        (x.server.buildOrderbookData L c).orderbookDeltas := by
    apply Dict.filter_eq_self
    intro key delta hdelta
    obtain ⟨last, -, read, hread, -, hchange⟩ := orderbookDeltas_build_eq_some hdelta
    rw [bookDelta_eq_some hchange]
    exact decide_eq_true (List.mem_toFinset.mpr (List.mem_product.mp (pair_mem_of_read hread)).2)
  unfold BroadcastFrame.restrict fullFrame Server.buildFullMessage
  simp only [nonEmpty_bind_filter, hcandles, hprices, hbooks, hdeltas]

theorem find?_ofList_id {α : Type} (value : String → α) {l : List String} (hnodup : l.Nodup)
    {k : String} (hk : k ∈ l) : (Dict.ofList id value l).find? k = some (value k) := by
  rw [Dict.find?_ofList_of_nodup id value (by rwa [List.map_id])]
  obtain ⟨k', hfind⟩ := Option.isSome_iff_exists.mp
    (List.find?_isSome.mpr ⟨k, hk, decide_eq_true rfl⟩ : (l.find? fun b => id b = k).isSome)
  rw [hfind, Option.map_some, show k' = k by simpa using List.find?_some hfind]

/-- The full message has a price of every symbol. -/
theorem restrict_empty_ne (x : FeedServer σ) : (x.fullFrame L c).restrict ∅ ≠ x.fullFrame L c := by
  intro h
  obtain ⟨exchange, hexchange⟩ := List.exists_mem_of_ne_nil _ c.exchanges_ne_nil
  obtain ⟨sym, hsym⟩ := List.exists_mem_of_ne_nil _ c.symbols_ne_nil
  have hprices : (allPrices c x.server.market).find? exchange = some (Dict.ofList id
      (fun sym => x.server.market.getPrice (exchange, sym)) c.symbols) :=
    find?_ofList_id _ c.exchanges_nodup hexchange
  have hprice := find?_ofList_id (fun sym => x.server.market.getPrice (exchange, sym))
    c.symbols_nodup hsym
  have hnone := congrArg (fun frame => (frame.prices.find? exchange).bind fun prices =>
    prices.find? sym) h
  simp only [BroadcastFrame.restrict, fullFrame, Dict.find?_mapValues, hprices, Option.map_some,
    Option.bind_some, Dict.find?_filter, hprice] at hnone
  simp at hnone

/-- What a subscription asks for is what the server makes of it. -/
theorem requested_subscribe (client k : ℕ) (subs : Finset String) (symbols : SymbolsField) :
    requested c client subs (.subscribe k symbols) =
      if k = client then Server.subscribed c symbols subs else subs := by
  cases symbols with
  | absent => exact (ite_self subs).symm
  | listed symbols =>
    cases symbols with
    | nil => exact (ite_self subs).symm
    | cons sym rest => rfl
  | notAList => rfl

theorem find?_setSubscription {s : Server σ} {client k : ℕ} {subs subs' : Finset String}
    (change : Finset String → Finset String) (hsubs' : s.clientSubscriptions.find? k = some subs')
    (h : s.clientSubscriptions.find? client = some subs ∨ s.clientSubscriptions.find? client = none) :
    (s.clientSubscriptions.insert k (change subs')).find? client =
        some (if k = client then change subs else subs) ∨
      (s.clientSubscriptions.insert k (change subs')).find? client = none := by
  rw [Dict.find?_insert]
  by_cases hclient : client = k
  · subst hclient
    rw [if_pos rfl, if_pos rfl]
    rcases h with hsome | hnone
    · rw [hsome] at hsubs'
      exact Or.inl (by rw [Option.some.inj hsubs'])
    · rw [hnone] at hsubs'
      cases hsubs'
  · rw [if_neg hclient, if_neg (Ne.symm hclient)]
    exact h

variable {subs : Finset String}

/-- A request of a client that is not connected changes nothing. -/
theorem find?_of_absent {s : Server σ} {client k : ℕ}
    (change : Finset String → Finset String) (habsent : s.clientSubscriptions.find? k = none)
    (h : s.clientSubscriptions.find? client = some subs ∨ s.clientSubscriptions.find? client = none) :
    s.clientSubscriptions.find? client = some (if k = client then change subs else subs) ∨
      s.clientSubscriptions.find? client = none := by
  by_cases hclient : k = client
  · subst hclient
    exact Or.inr habsent
  · rw [if_neg hclient]
    exact h

/-- The set of a client is what its requests have made of it, as long as it is connected. -/
theorem find?_step {client : ℕ} (hknown : client < x.server.nextClient) (e : EncodedEvent)
    (h : x.server.clientSubscriptions.find? client = some subs ∨
      x.server.clientSubscriptions.find? client = none) : client < (step L c x e).server.nextClient ∧
      ((step L c x e).server.clientSubscriptions.find? client = some (requested c client subs e.event) ∨
        (step L c x e).server.clientSubscriptions.find? client = none) := by
  obtain ⟨event, encoding⟩ := e
  simp only [step]
  cases event with
  | connect =>
    refine ⟨Nat.lt_succ_of_lt hknown, ?_⟩
    simp only [Server.step, Server.connect, Dict.find?_insert_of_ne _ hknown.ne]
    exact h
  | disconnect k =>
    refine ⟨hknown, ?_⟩
    simp only [Server.step, Dict.find?_erase]
    split_ifs
    · exact Or.inr rfl
    · exact h
  | snapshot k =>
    simp only [Server.step]
    split <;> exact ⟨hknown, h⟩
  | subscribe k symbols =>
    rw [requested_subscribe]
    simp only [Server.step]
    split
    · rename_i subs' hsubs'
      exact ⟨hknown, find?_setSubscription (Server.subscribed c symbols) hsubs' h⟩
    · rename_i hnone
      exact ⟨hknown, find?_of_absent (Server.subscribed c symbols) hnone h⟩
  | unsubscribe k symbols =>
    simp only [Server.step, requested]
    split
    · rename_i subs' hsubs'
      exact ⟨hknown, find?_setSubscription (fun subs => subs \ symbols.toFinset) hsubs' h⟩
    · rename_i hnone
      exact ⟨hknown, find?_of_absent (fun subs => subs \ symbols.toFinset) hnone h⟩
  | syncState k lastTs =>
    simp only [Server.step]
    split <;> exact ⟨hknown, h⟩
  | readBook pair => exact ⟨hknown, h⟩
  | loop =>
    simp only [Server.step, Server.broadcastLoop]
    split
    · split <;> exact ⟨hknown, h⟩
    · exact ⟨hknown, h⟩

/-- A step leaves the candles filed under their pairs. -/
theorem labelled_run (h : x.server.market.Labelled) (events : List EncodedEvent) :
    (run (step L c) x events).server.market.Labelled := by
  have hstep : ∀ (x : FeedServer σ) (e : EncodedEvent), x.server.market.Labelled →
      (step L c x e).server.market.Labelled := fun x e h => labelled_step h e.event
  exact run_invariant hstep events h

/-- After any events the set of a client that is still connected is what its requests have made of
it. -/
theorem find?_run {client : ℕ} (events : List EncodedEvent) (hknown : client < x.server.nextClient)
    (h : x.server.clientSubscriptions.find? client = some subs ∨
      x.server.clientSubscriptions.find? client = none) :
    (run (step L c) x events).server.clientSubscriptions.find? client =
        some (events.foldl (fun subs e => requested c client subs e.event) subs) ∨
      (run (step L c) x events).server.clientSubscriptions.find? client = none := by
  induction events generalizing x subs with
  | nil => exact h
  | cons e rest ih =>
    obtain ⟨hknown', h'⟩ := find?_step (L := L) (c := c) hknown e h
    exact ih hknown' h'

/-- A client receives the message of its variant. -/
theorem eq_of_mem_broadcastsTo {client : ℕ} {e : EncodedEvent}
    {frame : BroadcastFrame} (hframe : frame ∈ x.broadcastsTo L c client e) :
    ∃ subs, x.server.clientSubscriptions.find? client = some subs ∧
      frame = if isFull c subs then x.fullFrame L c else x.filteredFrame L c subs := by
  unfold broadcastsTo at hframe
  split at hframe
  · obtain ⟨sent, hsent, rfl⟩ := List.mem_map.mp hframe
    obtain ⟨hmem, hclient⟩ := List.mem_filter.mp hsent
    rw [broadcast_eq] at hmem
    obtain ⟨r, hr, rfl⟩ := List.mem_map.mp hmem
    obtain ⟨entry, hentry, rfl⟩ := List.mem_map.mp hr
    refine ⟨entry.2, ?_, ?_⟩
    · rw [← of_decide_eq_true hclient]
      exact (Dict.mem_entries_iff _ _ _).mp hentry
    · unfold encodedVariant Recipient.variant
      split_ifs <;> rfl
  · cases hframe

variable (L c)

/-- The server after some events, the connection of a client and more events. -/
def served (rng : σ) (before after : List EncodedEvent) : FeedServer σ :=
  run (step L c) (init L c rng) (before ++ { event := .connect } :: after)

/-- The client that connects after some events. -/
def newClient (rng : σ) (before : List EncodedEvent) : ℕ :=
  (run (step L c) (init L c rng) before).server.nextClient

variable {L c}

/-- The set of the client that connected is what its requests have made of all symbols. -/
theorem find?_served (rng : σ) (before after : List EncodedEvent) :
    (served L c rng before after).server.clientSubscriptions.find? (newClient L c rng before) =
        some (currentSet c (newClient L c rng before) after) ∨
      (served L c rng before after).server.clientSubscriptions.find? (newClient L c rng before) =
        none := by
  unfold served
  rw [run_append]
  apply find?_run after
  · exact Nat.lt_succ_self _
  · exact Or.inl (Dict.find?_insert_self _ _ _)

/-- In every run, a client's broadcasts carry the data of the symbols in its current set, exactly
if that set is not empty. -/
theorem carries_iff (L : Library σ) (c : MarketConfig) (rng : σ) (before after : List EncodedEvent)
    (e : EncodedEvent) {frame : BroadcastFrame}
    (hframe : frame ∈ (served L c rng before after).broadcastsTo L c (newClient L c rng before) e) :
    frame = ((served L c rng before after).fullFrame L c).restrict
        (currentSet c (newClient L c rng before) after) ↔
      currentSet c (newClient L c rng before) after ≠ ∅ := by
  obtain ⟨subs, hsubs, rfl⟩ := eq_of_mem_broadcastsTo hframe
  have hcurrent : subs = currentSet c (newClient L c rng before) after := by
    rcases find?_served (L := L) (c := c) rng before after with hsome | hnone
    · exact Option.some.inj (hsubs.symm.trans hsome)
    · rw [hnone] at hsubs
      cases hsubs
  rw [← hcurrent]
  have hlabelled : (served L c rng before after).server.market.Labelled :=
    labelled_run (MarketSimulator.labelled_init rng) _
  by_cases hempty : subs = ∅
  · subst hempty
    have hfull : isFull c ∅ = true := decide_eq_true (Or.inr rfl)
    rw [if_pos hfull]
    exact iff_of_false (restrict_empty_ne _).symm (not_not.mpr rfl)
  · refine iff_of_true ?_ hempty
    by_cases hall : subs = c.symbols.toFinset
    · have hfull : isFull c subs = true := decide_eq_true (Or.inl hall)
      rw [if_pos hfull, hall, restrict_fullFrame hlabelled]
    · have hfiltered : ¬ isFull c subs = true := by
        rw [isFull, decide_eq_true_iff]
        exact not_or.mpr ⟨hall, hempty⟩
      rw [if_neg hfiltered, filteredFrame_eq]

/-- A client unsubscribes from its only symbol; then the market ticks. -/
def lastUnsubscribed : List EncodedEvent :=
  [{ event := .unsubscribe 0 ["BTC/USDT"] }, { event := .loop }]

theorem lastUnsubscribed_broadcast :
    (served (tapedLibrary []) stillMarket 0 [] lastUnsubscribed).broadcastsTo (tapedLibrary [])
      stillMarket (newClient (tapedLibrary []) stillMarket 0 []) { event := .loop } ≠ [] := by
  decide +kernel

/-- The equivalence at that broadcast. -/
theorem carries_iff_lastUnsubscribed :
    ((served (tapedLibrary []) stillMarket 0 [] lastUnsubscribed).broadcastsTo (tapedLibrary [])
        stillMarket (newClient (tapedLibrary []) stillMarket 0 []) { event := .loop }).head
          lastUnsubscribed_broadcast =
        ((served (tapedLibrary []) stillMarket 0 [] lastUnsubscribed).fullFrame (tapedLibrary [])
          stillMarket).restrict
          (currentSet stillMarket (newClient (tapedLibrary []) stillMarket 0 []) lastUnsubscribed) ↔
      currentSet stillMarket (newClient (tapedLibrary []) stillMarket 0 []) lastUnsubscribed ≠ ∅ :=
  carries_iff (tapedLibrary []) stillMarket 0 [] lastUnsubscribed { event := .loop } (List.head_mem _)

/-- The client that has unsubscribed from its only symbol goes on receiving it. -/
theorem not_carries_lastUnsubscribed :
    ¬ ∀ frame ∈ (served (tapedLibrary []) stillMarket 0 [] lastUnsubscribed).broadcastsTo
        (tapedLibrary []) stillMarket (newClient (tapedLibrary []) stillMarket 0 []) { event := .loop },
      frame = ((served (tapedLibrary []) stillMarket 0 [] lastUnsubscribed).fullFrame
        (tapedLibrary []) stillMarket).restrict
          (currentSet stillMarket (newClient (tapedLibrary []) stillMarket 0 [])
            lastUnsubscribed) := by
  intro h
  have hcandles := congrArg (fun frame => frame.candles.length)
    (h _ (List.head_mem lastUnsubscribed_broadcast))
  revert hcandles
  decide +kernel

end FeedServer

end TradingSim.Feed
