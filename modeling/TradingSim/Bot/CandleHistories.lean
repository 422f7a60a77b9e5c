import TradingSim.Bot.StrategyBooks
import TradingSim.Feed.GapRecovery
import TradingSim.Market.Histories

/-!
# Candle histories of the bots

The signal bot appends every candle of a market message to the history of its symbol, the trading bot
to the history of its exchange and symbol and, for the primary exchange, to the one of the symbol's
id. Neither looks at the time of a candle. A history is a series, then, only as long as no message
brings again what an earlier one brought, and as long as what is filed together is of one exchange.
-/

namespace TradingSim.Bot

open Foundations
open Feed
open Market (Candle InOrder Library MarketConfig)

def pairOf (candle : Candle) : String × String := (candle.exchange, candle.symbol)

/-- Append to a bounded queue, which drops its oldest entry. -/
def pushBounded (maxlen : ℕ) (history : List Candle) (candle : Candle) : List Candle :=
  let history := history ++ [candle]
  history.drop (history.length - maxlen)

/-- The candle histories of a client: of the signal bot by symbol, of the trading bot by exchange and
symbol and again by id. -/
inductive CandleClient
  | signalBot (candleHistory : Dict String (List Candle))
  | tradingBot (store : MarketStore)

namespace CandleClient

/-- The body of the loop over the candles in `_process_message`. -/
def appendCandle (candleHistory : Dict String (List Candle)) (candle : Candle) :
    Dict String (List Candle) :=
  if candle.symbol = "" then candleHistory
  else candleHistory.insert candle.symbol
    (pushBounded 200 ((candleHistory.find? candle.symbol).getD []) candle)

/-- One candle of a market message. -/
def receiveCandle : CandleClient → Candle → CandleClient
  | .signalBot candleHistory, candle => .signalBot (appendCandle candleHistory candle)
  | .tradingBot store, candle => .tradingBot (store.updateCandle candle)

/-- The client reads the time of a candle as it is. -/
def Reads : CandleClient → Candle → Prop
  | .signalBot _, _ => True
  | .tradingBot _, candle => wrap32 candle.timestamp = candle.timestamp

instance (client : CandleClient) (candle : Candle) : Decidable (client.Reads candle) := by
  cases client <;> unfold Reads <;> infer_instance

def receive (client : CandleClient) (message : MarketMessage) : CandleClient :=
  message.candles.foldl receiveCandle client

end CandleClient

/-- Strictly increasing times and one exchange. -/
def IsSeries (history : List Candle) : Prop :=
  history.Pairwise fun a b => a.timestamp < b.timestamp ∧ a.exchange = b.exchange

instance (history : List Candle) : Decidable (IsSeries history) :=
  inferInstanceAs (Decidable (history.Pairwise _))

namespace CandleClient

/-- All histories are series. -/
def AllSeries : CandleClient → Prop
  | .signalBot candleHistory => ∀ entry ∈ candleHistory.entries, IsSeries entry.2
  | .tradingBot store => (∀ entry ∈ store.candleHistory.entries, IsSeries entry.2) ∧
      ∀ history ∈ store.candlesById, IsSeries history

instance (client : CandleClient) : Decidable client.AllSeries :=
  match client with
  | .signalBot _ => inferInstanceAs (Decidable (∀ entry ∈ _, _))
  | .tradingBot _ => inferInstanceAs (Decidable (_ ∧ _))

/-- The trading bot stores candles of a pair under an id. -/
def filesById (store : MarketStore) (id : ℕ) (pair : String × String) : Bool :=
  store.primaryExchange pair.1 && decide (store.symbolToId.find? pair.2 = some id)

/-- Nothing that is filed together is of two exchanges: the signal bot's market has one, and the
trading bot's ids belong to one exchange and one symbol each. -/
def Separates (c : MarketConfig) : CandleClient → Prop
  | .signalBot _ => ∀ exchange ∈ c.exchanges, ∀ exchange' ∈ c.exchanges, exchange = exchange'
  | .tradingBot store => ∀ id, ∀ pair ∈ c.pairs, ∀ pair' ∈ c.pairs, filesById store id pair = true →
      filesById store id pair' = true → pair = pair'

end CandleClient

/-! ### Sessions -/

/-- A server and one of its clients with its connection. All candles that the client was sent are
noted. -/
structure CandleLink (σ : Type) where
  server : Server σ
  connection : Option ℕ := none
  client : CandleClient
  sent : List Candle := []

/-- What happens: an event of the server, whose messages arrive or do not, a new connection, or a new start
of the server. -/
inductive LinkEvent (σ : Type)
  | server (e : Event) (arrives : Bool)
  | reconnect
  | restart (rng : σ)

namespace CandleLink

variable {σ : Type} (L : Library σ) (c : MarketConfig)

/-- The messages that reach the client. -/
def received (x : CandleLink σ) : LinkEvent σ → List MarketMessage
  | .server e true =>
    match x.connection with
    | none => []
    | some id => Session.addressed id (x.server.step L c e).2
  | .server _ false => []
  | .reconnect => []
  | .restart _ => []

def serverAfter (x : CandleLink σ) : LinkEvent σ → Server σ
  | .server e _ => (x.server.step L c e).1
  | .reconnect => (x.server.step L c .connect).1
  | .restart rng => Server.init L c rng

def connectionAfter (x : CandleLink σ) : LinkEvent σ → Option ℕ
  | .server _ _ => x.connection
  | .reconnect => some x.server.nextClient
  | .restart _ => none

def step (x : CandleLink σ) (e : LinkEvent σ) : CandleLink σ where
  server := x.serverAfter L c e
  connection := x.connectionAfter e
  client := (x.received L c e).foldl CandleClient.receive x.client
  sent := x.sent ++ (x.received L c e).flatMap MarketMessage.candles

/-- Every history is a series after the event. -/
def KeepsSeries (x : CandleLink σ) (e : LinkEvent σ) : Prop := (x.step L c e).client.AllSeries

/-- A message that reaches the client brings only candles whose times it reads as they are and that are
newer than those it was sent before. -/
def Advances (x : CandleLink σ) (e : LinkEvent σ) : Prop :=
  ∀ message ∈ x.received L c e, ∀ candle ∈ message.candles, x.client.Reads candle ∧
    ∀ old ∈ x.sent, pairOf old = pairOf candle → old.timestamp < candle.timestamp

instance (x : CandleLink σ) (e : LinkEvent σ) : Decidable (x.KeepsSeries L c e) :=
  inferInstanceAs (Decidable (CandleClient.AllSeries _))

instance (x : CandleLink σ) (e : LinkEvent σ) : Decidable (x.Advances L c e) :=
  inferInstanceAs (Decidable (∀ message ∈ _, ∀ candle ∈ _, _ ∧ ∀ old ∈ _, _ → _))

/-- A server that has just started and a client that has received nothing. -/
def init (rng : σ) (client : CandleClient) : CandleLink σ where
  server := Server.init L c rng
  client := client

end CandleLink

/-! ### Histories that hold candles once -/

section Histories

variable {c : MarketConfig} {sent : List Candle} {files : String × String → Bool}
  {history history' : List Candle} {candle : Candle}

theorem pushBounded_sublist (maxlen : ℕ) (history : List Candle) (candle : Candle) :
    (pushBounded maxlen history candle).Sublist (history ++ [candle]) :=
  List.drop_sublist _ _

theorem pushCandle_sublist (history : List Candle) (candle : Candle) :
    (pushCandle history candle).Sublist (history ++ [candle]) := by
  unfold pushCandle
  dsimp only
  split
  · exact List.drop_sublist _ _
  · exact List.Sublist.refl _

/-- A history is a series of candles that were sent and are filed in it. -/
structure Holds (c : MarketConfig) (sent : List Candle) (files : String × String → Bool)
    (history : List Candle) : Prop where
  series : IsSeries history
  filed : ∀ a ∈ history, files (pairOf a) = true ∧ pairOf a ∈ c.pairs
  sent : ∀ a ∈ history, a ∈ sent

theorem Holds.nil : Holds c sent files [] :=
  ⟨List.Pairwise.nil, fun _ h => absurd h List.not_mem_nil, fun _ h => absurd h List.not_mem_nil⟩

/-- More may be sent. -/
theorem Holds.append (h : Holds c sent files history) (candles : List Candle) :
    Holds c (sent ++ candles) files history :=
  ⟨h.series, h.filed, fun a ha => List.mem_append_left _ (h.sent a ha)⟩

/-- A history takes a candle that is newer than those sent before. -/
theorem Holds.push (h : Holds c sent files history)
    (hseparates : ∀ pair ∈ c.pairs, ∀ pair' ∈ c.pairs, files pair = true → files pair' = true →
      pair = pair') (hfiles : files (pairOf candle) = true) (hpair : pairOf candle ∈ c.pairs)
    (hnewer : ∀ old ∈ sent, pairOf old = pairOf candle → old.timestamp < candle.timestamp)
    (hsub : history'.Sublist (history ++ [candle])) : Holds c (sent ++ [candle]) files history' := by
  have hwhole : Holds c (sent ++ [candle]) files (history ++ [candle]) := by
    constructor
    · apply List.pairwise_append.mpr
      refine ⟨h.series, List.pairwise_singleton _ _, fun a ha b hb => ?_⟩
      obtain rfl := List.mem_singleton.mp hb
      obtain ⟨hfiled, hmem⟩ := h.filed a ha
      have hsame := hseparates _ hmem _ hpair hfiled hfiles
      exact ⟨hnewer a (h.sent a ha) hsame, congrArg Prod.fst hsame⟩
    · intro a ha
      rcases List.mem_append.mp ha with hold | hnew
      · exact h.filed a hold
      · obtain rfl := List.mem_singleton.mp hnew
        exact ⟨hfiles, hpair⟩
    · intro a ha
      rcases List.mem_append.mp ha with hold | hnew
      · exact List.mem_append_left _ (h.sent a hold)
      · exact List.mem_append_right _ hnew
  exact ⟨List.Pairwise.sublist hsub hwhole.series, fun a ha => hwhole.filed a (hsub.subset ha),
    fun a ha => hwhole.sent a (hsub.subset ha)⟩

end Histories

namespace CandleClient

variable {c : MarketConfig} {sent : List Candle} {candle : Candle}

/-- Every history of a client is such a series. -/
def AllHold (c : MarketConfig) (sent : List Candle) : CandleClient → Prop
  | .signalBot candleHistory => ∀ symbol history, candleHistory.find? symbol = some history →
      Holds c sent (fun pair => pair.2 = symbol) history
  | .tradingBot store =>
    (∀ key history, store.candleHistory.find? key = some history →
      Holds c sent (fun pair => bookKey pair = key) history) ∧
    ∀ id history, store.candlesById[id]? = some history → Holds c sent (filesById store id) history

variable {client : CandleClient}

theorem AllHold.allSeries (h : client.AllHold c sent) : client.AllSeries := by
  cases client with
  | signalBot candleHistory =>
    exact fun entry hentry => (h entry.1 entry.2 ((Dict.mem_entries_iff _ _ _).mp hentry)).series
  | tradingBot store =>
    constructor
    · exact fun entry hentry => (h.1 entry.1 entry.2 ((Dict.mem_entries_iff _ _ _).mp hentry)).series
    · intro history hhistory
      obtain ⟨id, hid⟩ := List.mem_iff_getElem?.mp hhistory
      exact (h.2 id history hid).series

/-- The history of a key, or an empty one. -/
theorem holds_getD {histories : Dict String (List Candle)} {files : String × String → Bool}
    {key : String} (h : ∀ history, histories.find? key = some history → Holds c sent files history) :
    Holds c sent files ((histories.find? key).getD []) := by
  cases hfind : histories.find? key with
  | none => exact Holds.nil
  | some history => exact h history hfind

/-- A client that separates its histories takes a candle that is newer than those sent before, if it reads
the candle's time as it is. -/
theorem AllHold.receiveCandle (h : client.AllHold c sent)
    (hseparates : client.Separates c) (hpair : pairOf candle ∈ c.pairs) (hreads : client.Reads candle)
    (hnewer : ∀ old ∈ sent, pairOf old = pairOf candle → old.timestamp < candle.timestamp) :
    (client.receiveCandle candle).AllHold c (sent ++ [candle]) := by
  cases client with
  | signalBot candleHistory =>
    intro symbol history hfind
    unfold appendCandle at hfind
    split at hfind
    · exact (h symbol history hfind).append _
    · rw [Dict.find?_insert] at hfind
      split at hfind
      · rename_i hsymbol
        obtain rfl := Option.some.inj hfind
        subst hsymbol
        refine (holds_getD (h candle.symbol)).push ?_ (decide_eq_true rfl) hpair hnewer
          (pushBounded_sublist _ _ _)
        intro pair hmem pair' hmem' hfiles hfiles'
        have hexchange := hseparates _ (List.mem_product.mp hmem).1 _ (List.mem_product.mp hmem').1
        have hsymbol := (of_decide_eq_true hfiles).trans (of_decide_eq_true hfiles').symm
        exact Prod.ext hexchange hsymbol
      · exact (h symbol history hfind).append _
  | tradingBot store =>
    have hfiled : store.updateCandle candle = store.fileCandle candle :=
      congrArg (fun time => store.fileCandle { candle with timestamp := time }) hreads
    rw [CandleClient.receiveCandle, hfiled]
    constructor
    · intro key history hfind
      change (store.candleHistory.insert (bookKey (pairOf candle)) _).find? key = some history at hfind
      rw [Dict.find?_insert] at hfind
      split at hfind
      · rename_i hkey
        obtain rfl := Option.some.inj hfind
        subst hkey
        refine (holds_getD (h.1 _)).push ?_ (decide_eq_true rfl) hpair hnewer (pushCandle_sublist _ _)
        intro pair hmem pair' hmem' hfiles hfiles'
        exact bookKey_injOn c hmem hmem'
          ((of_decide_eq_true hfiles).trans (of_decide_eq_true hfiles').symm)
      · exact (h.1 key history hfind).append _
    · intro id history hfind
      dsimp only [MarketStore.fileCandle] at hfind
      split at hfind
      · rename_i hprimary
        cases hsymbol : store.symbolToId.find? candle.symbol with
        | none =>
          rw [hsymbol] at hfind
          exact (h.2 id history hfind).append _
        | some id' =>
          rw [hsymbol] at hfind
          rw [List.getElem?_modify] at hfind
          by_cases hid : id' = id
          · subst hid
            obtain ⟨old, hold, hpushed⟩ := Option.map_eq_some_iff.mp hfind
            rw [if_pos rfl] at hpushed
            subst hpushed
            have hfiles : filesById store id' (pairOf candle) = true := by
              rw [filesById, Bool.and_eq_true]
              exact ⟨hprimary, decide_eq_true hsymbol⟩
            exact (h.2 id' old hold).push (hseparates id') hfiles hpair hnewer (pushCandle_sublist _ _)
          · simp only [if_neg hid] at hfind
            exact (h.2 id history (by simpa using hfind)).append _
      · exact (h.2 id history hfind).append _

theorem Separates.receiveCandle (h : client.Separates c) (candle : Candle) :
    (client.receiveCandle candle).Separates c := by
  cases client with
  | signalBot candleHistory => exact h
  | tradingBot store => exact h

theorem Reads.receiveCandle {next : Candle} (h : client.Reads next) (candle : Candle) :
    (client.receiveCandle candle).Reads next := by
  cases client with
  | signalBot candleHistory => exact h
  | tradingBot store => exact h

/-- A client takes the candles of a message that is in order and newer than what was sent before. -/
theorem AllHold.receive {candles : List Candle} (h : client.AllHold c sent) (hseparates : client.Separates c)
    (hpairs : ∀ candle ∈ candles, pairOf candle ∈ c.pairs) (horder : InOrder candles)
    (hnewer : ∀ candle ∈ candles, client.Reads candle ∧
      ∀ old ∈ sent, pairOf old = pairOf candle → old.timestamp < candle.timestamp) :
    (candles.foldl CandleClient.receiveCandle client).AllHold c (sent ++ candles) := by
  induction candles generalizing client sent with
  | nil =>
    rw [List.append_nil]
    exact h
  | cons candle rest ih =>
    obtain ⟨hfirst, hrest⟩ := List.pairwise_cons.mp horder
    obtain ⟨hreads, hnew⟩ := hnewer candle List.mem_cons_self
    have htaken := h.receiveCandle hseparates (hpairs candle List.mem_cons_self) hreads hnew
    rw [List.append_cons]
    apply ih htaken (hseparates.receiveCandle candle)
    · exact fun next hnext => hpairs next (List.mem_cons_of_mem _ hnext)
    · exact hrest
    · intro next hnext
      obtain ⟨hnextReads, hlater⟩ := hnewer next (List.mem_cons_of_mem _ hnext)
      refine ⟨hnextReads.receiveCandle candle, fun old hold hsame => ?_⟩
      rcases List.mem_append.mp hold with hbefore | hnow
      · exact hlater old hbefore hsame
      · obtain rfl := List.mem_singleton.mp hnow
        exact hfirst next hnext hsame

end CandleClient

/-! ### Messages of the server -/

section Messages

variable {σ : Type} {L : Library σ} {c : MarketConfig} {s : Server σ}

/-- The candles of a message are the market's, in order. -/
structure Drawn (c : MarketConfig) (message : MarketMessage) : Prop where
  order : InOrder message.candles
  pairs : ∀ candle ∈ message.candles, pairOf candle ∈ c.pairs

theorem drawn_of_latest (hlabelled : s.market.Labelled) {message : MarketMessage}
    (hsub : message.candles.Sublist (s.market.getLatestCandles c)) : Drawn c message := by
  constructor
  · exact hlabelled.inOrder_latest.sublist hsub
  · intro candle hcandle
    obtain ⟨pair, hpair, hlast⟩ := List.mem_filterMap.mp (hsub.subset hcandle)
    rw [pairOf, hlabelled pair candle (List.mem_of_getLast? hlast)]
    exact hpair

theorem drawn_sendSyncState (hlabelled : s.market.Labelled) (hordered : s.market.Ordered)
    (lastTs : ℤ) : Drawn c (s.sendSyncState L c lastTs).1 := by
  constructor
  · exact hordered.inOrder_after hlabelled 200 lastTs
  · intro candle hcandle
    obtain ⟨pair, hpair, hmem⟩ := List.mem_flatMap.mp hcandle
    have hhistory := (Market.MarketSimulator.getHistory_sublist s.market pair 200).subset
      (List.mem_of_mem_filter hmem)
    rw [pairOf, hlabelled pair candle hhistory]
    exact hpair

theorem drawn_messageFor (hlabelled : s.market.Labelled) (seq : ℕ) (update : FeedUpdate)
    (subs : Finset String) : Drawn c (s.messageFor c seq update subs) := by
  apply drawn_of_latest hlabelled
  unfold Server.messageFor
  split
  · exact List.Sublist.refl _
  · exact List.filter_sublist

/-- A client receives one message of an event at most, and its candles are in order. -/
theorem addressed_step (hlabelled : s.market.Labelled) (hordered : s.market.Ordered) (id : ℕ)
    (e : Event) : Session.addressed id (s.step L c e).2 = [] ∨
      ∃ message, Session.addressed id (s.step L c e).2 = [message] ∧ Drawn c message := by
  have hsingle : ∀ (client : ℕ) {message : MarketMessage}, Drawn c message →
      Session.addressed id [(client, message)] = [] ∨
        ∃ m, Session.addressed id [(client, message)] = [m] ∧ Drawn c m := by
    intro client message hdrawn
    rw [Session.addressed_single]
    split
    · exact Or.inr ⟨message, rfl, hdrawn⟩
    · exact Or.inl rfl
  cases e with
  | connect => exact Or.inl rfl
  | disconnect client => exact Or.inl rfl
  | snapshot client =>
    simp only [Server.step]
    cases s.clientSubscriptions.find? client with
    | none => exact Or.inl rfl
    | some subs => exact hsingle client (drawn_of_latest hlabelled (List.Sublist.refl _))
  | subscribe client symbols =>
    simp only [Server.step]
    cases s.clientSubscriptions.find? client with
    | none => exact Or.inl rfl
    | some subs => exact hsingle client (drawn_of_latest hlabelled (List.Sublist.refl _))
  | unsubscribe client symbols =>
    simp only [Server.step]
    cases s.clientSubscriptions.find? client with
    | none => exact Or.inl rfl
    | some subs => exact Or.inl rfl
  | syncState client lastTs =>
    simp only [Server.step]
    cases s.clientSubscriptions.find? client with
    | none => exact Or.inl rfl
    | some subs => exact hsingle client (drawn_sendSyncState hlabelled hordered lastTs)
  | readBook pair => exact Or.inl rfl
  | loop =>
    simp only [Server.step, Server.broadcastLoop]
    cases s.phase with
    | waiting =>
      dsimp only
      split
      · exact Or.inl rfl
      · exact Or.inl rfl
    | ticked =>
      rw [Session.addressed_broadcast]
      cases s.clientSubscriptions.find? id with
      | none => exact Or.inl rfl
      | some subs => exact Or.inr ⟨_, rfl, drawn_messageFor hlabelled _ _ subs⟩

theorem ordered_step (h : s.market.Ordered) (e : Event) : (s.step L c e).1.market.Ordered := by
  cases step_moves (L := L) (c := c) s e with
  | quiet _ _ hhistory htime => exact h.congr hhistory htime
  | tick _ _ hmarket =>
    rw [hmarket]
    exact (h.generateCandlesInner (L := L) (c := c)).congr rfl rfl
  | broadcast _ _ hhistory htime => exact h.congr hhistory htime

end Messages

/-! ### Runs -/

namespace CandleLink

variable {σ : Type} {L : Library σ} {c : MarketConfig}

/-- The market's histories are in order, and the client's hold what it was sent. -/
structure Tracked (c : MarketConfig) (x : CandleLink σ) : Prop where
  labelled : x.server.market.Labelled
  ordered : x.server.market.Ordered
  separates : x.client.Separates c
  held : x.client.AllHold c x.sent

variable {x : CandleLink σ}

theorem labelled_serverAfter (h : x.server.market.Labelled) (e : LinkEvent σ) :
    (x.serverAfter L c e).market.Labelled := by
  cases e with
  | server e arrives => exact labelled_step h e
  | reconnect => exact labelled_step h .connect
  | restart rng => exact Market.MarketSimulator.labelled_init rng

theorem ordered_serverAfter (h : x.server.market.Ordered) (e : LinkEvent σ) :
    (x.serverAfter L c e).market.Ordered := by
  cases e with
  | server e arrives => exact ordered_step h e
  | reconnect => exact ordered_step h .connect
  | restart rng => exact Market.MarketSimulator.ordered_init rng

theorem received_cases (h : x.Tracked c) (e : LinkEvent σ) :
    x.received L c e = [] ∨ ∃ message, x.received L c e = [message] ∧ Drawn c message := by
  cases e with
  | server e arrives =>
    cases arrives with
    | false => exact Or.inl rfl
    | true =>
      cases hconnection : x.connection with
      | none =>
        left
        simp only [received, hconnection]
      | some id =>
        simp only [received, hconnection]
        exact addressed_step h.labelled h.ordered id e
  | reconnect => exact Or.inl rfl
  | restart rng => exact Or.inl rfl

/-- An event whose message advances keeps the client's histories. -/
theorem tracked_step (x : CandleLink σ) (e : LinkEvent σ) (h : x.Tracked c)
    (hadvances : x.Advances L c e) : (x.step L c e).Tracked c := by
  have hlabelled := labelled_serverAfter (L := L) (c := c) h.labelled e
  have hordered := ordered_serverAfter (L := L) (c := c) h.ordered e
  rcases received_cases (L := L) h e with hnone | ⟨message, hone, hdrawn⟩
  · refine ⟨hlabelled, hordered, ?_, ?_⟩
    · simp only [step, hnone, List.foldl_nil]
      exact h.separates
    · simp only [step, hnone, List.foldl_nil, List.flatMap_nil, List.append_nil]
      exact h.held
  · have hnewer : ∀ candle ∈ message.candles, x.client.Reads candle ∧
        ∀ old ∈ x.sent, pairOf old = pairOf candle → old.timestamp < candle.timestamp := by
      apply hadvances message
      rw [hone]
      exact List.mem_singleton_self message
    refine ⟨hlabelled, hordered, ?_, ?_⟩
    · have hkept : ∀ (candles : List Candle) (client : CandleClient), client.Separates c →
          (candles.foldl CandleClient.receiveCandle client).Separates c := by
        intro candles
        induction candles with
        | nil => exact fun _ hclient => hclient
        | cons candle rest ih => exact fun _ hclient => ih _ (hclient.receiveCandle candle)
      simp only [step, hone, List.foldl_cons, List.foldl_nil]
      exact hkept message.candles x.client h.separates
    · simp only [step, hone, List.foldl_cons, List.foldl_nil, List.flatMap_cons, List.flatMap_nil,
        List.append_nil]
      exact h.held.receive h.separates hdrawn.pairs hdrawn.order hnewer

/-- A client that has received nothing. -/
def Starts (client : CandleClient) : Prop :=
  client = .signalBot Dict.empty ∨
    ∃ defaultExchange symbols, client = .tradingBot (MarketStore.init defaultExchange symbols)

theorem tracked_init (rng : σ) {client : CandleClient} (hstarts : Starts client)
    (hseparates : client.Separates c) : (init L c rng client).Tracked c := by
  refine ⟨Market.MarketSimulator.labelled_init rng, Market.MarketSimulator.ordered_init rng,
    hseparates, ?_⟩
  rcases hstarts with rfl | ⟨defaultExchange, symbols, rfl⟩
  · intro symbol history hfind
    cases hfind
  · constructor
    · intro key history hfind
      cases hfind
    · intro id history hid
      have hmem := List.mem_of_getElem? hid
      obtain rfl := List.eq_of_mem_replicate (hmem : history ∈ List.replicate symbols.length [])
      exact Holds.nil

/-- If the histories of a client are of one exchange and symbol each, and every message that it receives
brings only newer candles than it was sent before, all its histories are series throughout. -/
theorem keepsSeries_of_advances (L : Library σ) (c : MarketConfig) (rng : σ) (client : CandleClient)
    (events : List (LinkEvent σ)) (hstarts : Starts client) (hseparates : client.Separates c)
    (hadvances : Along (step L c) (Advances L c) (init L c rng client) events) :
    Along (step L c) (KeepsSeries L c) (init L c rng client) events :=
  along_imp (Tracked c) (fun x e h hguard => tracked_step x e h hguard)
    (fun x e h hguard => (tracked_step x e h hguard).held.allSeries)
    (tracked_init rng hstarts hseparates) hadvances

/-- The client connects and gets the snapshot and the broadcasts of two ticks. -/
def twoBroadcasts : List (LinkEvent ℕ) :=
  [.reconnect, .server (.snapshot 0) true, .server .loop true, .server .loop true, .server .loop true,
    .server .loop true]

theorem keepsSeries_twoBroadcasts : Along (step (Session.tapedLibrary []) Session.stillMarket)
      (KeepsSeries (Session.tapedLibrary []) Session.stillMarket)
      (init (Session.tapedLibrary []) Session.stillMarket 0
        (.tradingBot (MarketStore.init "binance" ["BTC/USDT"]))) twoBroadcasts := by
  apply keepsSeries_of_advances (Session.tapedLibrary []) Session.stillMarket 0
    (.tradingBot (MarketStore.init "binance" ["BTC/USDT"])) twoBroadcasts
    (Or.inr ⟨"binance", ["BTC/USDT"], rfl⟩)
  · intro id pair hpair pair' hpair' _ _
    have hone : Session.stillMarket.pairs = [("binance", "BTC/USDT")] := rfl
    rw [hone, List.mem_singleton] at hpair hpair'
    exact hpair.trans hpair'.symm
  · decide +kernel

/-- The same symbol on a second exchange. -/
def twoVenues : MarketConfig :=
  { Session.stillMarket with
    exchanges := ["binance", "bybit"]
    exchanges_nodup := by decide
    exchanges_ne_nil := by decide
    separator_free := by decide }

/-- The trading bot subscribes after the broadcast of a tick, and the snapshot in answer brings the
tick's candle again. The signal bot mixes the candles of two exchanges at the first broadcast. -/
theorem not_keepsSeries_subscribe : ¬ Along (step (Session.tapedLibrary []) Session.stillMarket)
        (KeepsSeries (Session.tapedLibrary []) Session.stillMarket)
        (init (Session.tapedLibrary []) Session.stillMarket 0
          (.tradingBot (MarketStore.init "binance" ["BTC/USDT"])))
        [.reconnect, .server (.snapshot 0) true, .server .loop true, .server .loop true,
          .server (.subscribe 0 .absent) true] ∧ ¬ Along (step (Session.tapedLibrary []) twoVenues)
        (KeepsSeries (Session.tapedLibrary []) twoVenues)
        (init (Session.tapedLibrary []) twoVenues 0 (.signalBot Dict.empty))
        [.reconnect, .server (.snapshot 0) true, .server .loop true, .server .loop true] := by
  decide +kernel

end CandleLink

end TradingSim.Bot
