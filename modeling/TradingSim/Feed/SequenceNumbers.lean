import TradingSim.Feed.GapRecovery

/-!
# Contiguous sequence numbers

A tick that raises is logged and the loop goes on with the next one. The market and the record of
broadcast books are advanced early in a tick and the sequence number late, so what a tick produced
before it raised is lost without a gap in the numbers; only a failure after the number was taken
leaves one.

What a client is owed is counted from the last broadcast that was sent.
-/

namespace TradingSim.Feed

open Foundations
open Exchange (OrderBook OrderBookLevel)
open Market
open Session (tapedLibrary stillMarket)

/-- Where a tick raises after the candles were generated: at the weekend check, while events and arbitrage
are processed, after some books were recorded, or once the number was taken. -/
inductive FailurePoint
  | weekendCheck
  | beforeBooks
  | inBooks (read recorded : ℕ)
  | numbered
  deriving DecidableEq

/-- The sequence number of the message was not taken yet. -/
def FailurePoint.early : FailurePoint → Bool
  | .numbered => false
  | _ => true

/-- An event of the server, or the failure of the tick under way. -/
inductive FeedEvent
  | server (e : Event)
  | fails (point : FailurePoint)
  deriving DecidableEq

/-- The tick raises before it takes its number. -/
def FeedEvent.failsEarly : FeedEvent → Bool
  | .server _ => false
  | .fails point => point.early

/-- The server with what its clients are owed: the number of the last broadcast that was sent, the
candles generated since and the record of books it left. -/
structure FeedRun (σ : Type) where
  server : Server σ
  sent : Option ℕ := none
  generated : List Candle := []
  recorded : Dict String EncodedBook := Dict.empty

namespace Server

variable {σ : Type} (L : Library σ) (c : MarketConfig)

/-- The candles of a tick whose loop goes no further. -/
def failedTick (s : Server σ) : Server σ := { s with market := s.market.generateCandlesInner L c }

/-- A tick that raises while it builds the books: some were read, and of these some recorded. -/
def failedBooks (s : Server σ) (read recorded : ℕ) : Server σ :=
  let books := MarketSimulator.generateOrderBooks L c s.market (c.pairs.take read)
  let update : FeedUpdate := { lastOrderbooks := s.lastOrderbooks }
  { s with
    market := books.2
    lastOrderbooks := ((books.1.take recorded).foldl FeedUpdate.addBook update).lastOrderbooks
    phase := .waiting }

/-- The tick under way raises, and the loop goes back to its start. -/
def fail (s : Server σ) : FailurePoint → Server σ
  | .weekendCheck =>
    if s.phase = .waiting ∧ s.clientSubscriptions.entries ≠ [] then s.failedTick L c else s
  | .beforeBooks => { s with phase := .waiting }
  | .inBooks read recorded => if s.phase = .ticked then s.failedBooks L c read recorded else s
  | .numbered => if s.phase = .ticked then (s.broadcastMarketData L c).1 else s

end Server

namespace FeedRun

variable {σ : Type} (L : Library σ) (c : MarketConfig)

/-- The server after an event. -/
def next (x : FeedRun σ) : FeedEvent → Server σ
  | .server e => (x.server.step L c e).1
  | .fails point => x.server.fail L c point

/-- The messages of an event; a tick that raises sends none. -/
def messages (x : FeedRun σ) : FeedEvent → List (ℕ × MarketMessage)
  | .server e => (x.server.step L c e).2
  | .fails _ => []

/-- A broadcast is sent. -/
def broadcasts (x : FeedRun σ) : FeedEvent → Bool
  | .server e => x.server.broadcasts e
  | .fails _ => false

/-- Candles are generated: the loop begins a tick, whether or not it comes to its end. -/
def ticks (x : FeedRun σ) : FeedEvent → Bool
  | .server e => e = .loop ∧ x.server.phase = .waiting ∧ x.server.clientSubscriptions.entries ≠ []
  | .fails point => point = .weekendCheck ∧ x.server.phase = .waiting ∧
      x.server.clientSubscriptions.entries ≠ []

def step (x : FeedRun σ) (e : FeedEvent) : FeedRun σ :=
  let server := x.next L c e
  if x.broadcasts e then
    { server := server, sent := some server.sequenceNumber, recorded := server.lastOrderbooks }
  else if x.ticks e then
    { x with server := server, generated := x.generated ++ server.market.getLatestCandles c }
  else { x with server := server }

/-- A server that has just started. -/
def init (rng : σ) : FeedRun σ := { server := Server.init L c rng }

end FeedRun

/-- The subscription takes data of the symbol; an empty one takes all. -/
def Takes (subs : Finset String) (symbol : String) : Prop := subs = ∅ ∨ symbol ∈ subs

instance (subs : Finset String) (symbol : String) : Decidable (Takes subs symbol) :=
  inferInstanceAs (Decidable (_ ∨ _))

/-- A message carries what became of a recorded book: all its changes, or the whole book if none was
recorded before. -/
def MarketMessage.Carries (message : MarketMessage) (key : String) (old new : Option EncodedBook) : Prop :=
  match old, new with
  | some old, some new =>
    (∀ change ∈ sideChanges old.bids new.bids,
      change ∈ ((message.delta? key).map DeltaEntry.bids).getD []) ∧
    ∀ change ∈ sideChanges old.asks new.asks,
      change ∈ ((message.delta? key).map DeltaEntry.asks).getD []
  | none, some new =>
    (message.book? key).map (fun entry => (levelMap entry.bids).entries) = some new.bids.entries ∧
    (message.book? key).map (fun entry => (levelMap entry.asks).entries) = some new.asks.entries
  | _, none => True

instance (message : MarketMessage) (key : String) (old new : Option EncodedBook) :
    Decidable (message.Carries key old new) := by
  unfold MarketMessage.Carries
  split <;> infer_instance

namespace FeedRun

variable {σ : Type} (L : Library σ) (c : MarketConfig)

/-- A broadcast whose number is the next one after the last that was sent carries, of the symbols a
client takes, every candle generated since and every change of the recorded books. -/
def MissesNothing (x : FeedRun σ) (e : FeedEvent) : Prop :=
  x.broadcasts e = true → x.sent.map Nat.succ = some (x.next L c e).sequenceNumber →
    ∀ entry ∈ x.server.clientSubscriptions.entries, ∀ sent ∈ x.messages L c e, sent.1 = entry.1 →
      (∀ candle ∈ x.generated, Takes entry.2 candle.symbol → candle ∈ sent.2.candles) ∧
      ∀ pair ∈ c.pairs, Takes entry.2 pair.2 → sent.2.Carries (bookKey pair)
        (x.recorded.find? (bookKey pair)) ((x.next L c e).lastOrderbooks.find? (bookKey pair))

instance (x : FeedRun σ) (e : FeedEvent) : Decidable (x.MissesNothing L c e) :=
  inferInstanceAs (Decidable (_ → _ → _))

end FeedRun

section Broadcasts

variable {σ : Type} {L : Library σ} {c : MarketConfig} {s : Server σ}

theorem messageFor_empty (seq : ℕ) (update : FeedUpdate) :
    s.messageFor c seq update ∅ = s.messageFor c seq update c.symbols.toFinset := by
  simp [Server.messageFor]

/-- A broadcast has the latest candle of every pair whose symbol is taken. -/
theorem mem_candles_messageFor {candle : Candle} (h : candle ∈ s.market.getLatestCandles c)
    (seq : ℕ) (update : FeedUpdate) {subs : Finset String} (htakes : Takes subs candle.symbol) :
    candle ∈ (s.messageFor c seq update subs).candles := by
  unfold Server.messageFor
  split
  · exact h
  · rename_i hfiltered
    have hsub : candle.symbol ∈ subs := htakes.resolve_left fun hempty => hfiltered (Or.inr hempty)
    exact List.mem_filter.mpr ⟨h, decide_eq_true hsub⟩

/-- A broadcast carries what becomes of the recorded book of a pair whose symbol is in the
subscription. -/
theorem carries_of_mem (s : Server σ) (seq : ℕ) {pair : String × String} (hpair : pair ∈ c.pairs)
    {subs : Finset String} (hsub : pair.2 ∈ subs) :
    (s.messageFor c seq (s.buildOrderbookData L c) subs).Carries (bookKey pair)
      (s.lastOrderbooks.find? (bookKey pair))
      ((s.buildOrderbookData L c).lastOrderbooks.find? (bookKey pair)) := by
  obtain ⟨book, hread⟩ := exists_read (L := L) s hpair
  have hnew : (s.buildOrderbookData L c).lastOrderbooks.find? (bookKey pair) =
      (addView (pair, book) ⟨none, none, s.lastOrderbooks.find? (bookKey pair)⟩).last :=
    congrArg KeyView.last (view_of_read hread)
  have hfull := book?_messageFor hread seq hsub
  have hdelta := delta?_messageFor hread seq hsub
  rw [hnew]
  cases hlast : s.lastOrderbooks.find? (bookKey pair) with
  | none =>
    rw [hlast, addView_none] at hfull
    simp only [addView_none, MarketMessage.Carries, hfull]
    exact ⟨rfl, rfl⟩
  | some last =>
    rw [hlast, addView_some] at hdelta
    simp only [addView_some, MarketMessage.Carries, hdelta, encoded]
    cases hchange : bookDelta last (pair, book) with
    | none =>
      obtain ⟨hbids, hasks⟩ := bookDelta_eq_none hchange
      simp [hbids, hasks]
    | some delta => simp [bookDelta_eq_some hchange]

/-- The same for a pair whose symbol is taken. -/
theorem carries_of_takes (s : Server σ) (seq : ℕ) {pair : String × String} (hpair : pair ∈ c.pairs)
    {subs : Finset String} (htakes : Takes subs pair.2) :
    (s.messageFor c seq (s.buildOrderbookData L c) subs).Carries (bookKey pair)
      (s.lastOrderbooks.find? (bookKey pair))
      ((s.buildOrderbookData L c).lastOrderbooks.find? (bookKey pair)) := by
  rcases htakes with rfl | hsub
  · rw [messageFor_empty]
    exact carries_of_mem s seq hpair (List.mem_toFinset.mpr (List.mem_product.mp hpair).2)
  · exact carries_of_mem s seq hpair hsub

end Broadcasts

namespace FeedRun

variable {σ : Type} {L : Library σ} {c : MarketConfig}

/-- Unless a number was lost since the last broadcast that was sent, the recorded books are those it left
and the candles since are the ones to be sent next. -/
def Accounted (c : MarketConfig) (x : FeedRun σ) : Prop :=
  ∀ m, x.sent = some m → m ≤ x.server.sequenceNumber ∧ (x.server.sequenceNumber = m →
    x.recorded = x.server.lastOrderbooks ∧ x.generated =
      match x.server.phase with
      | .waiting => []
      | .ticked => x.server.market.getLatestCandles c)

/-- What a broadcast depends on, apart from the books that are read for it. -/
def standing (s : Server σ) : ℕ × Dict String EncodedBook × LoopPhase × (String × String → List Candle) :=
  (s.sequenceNumber, s.lastOrderbooks, s.phase, s.market.candleHistory)

/-- What the server does at an event of its own: it broadcasts, it ticks, or it stands as before. -/
inductive ServerMove (L : Library σ) (c : MarketConfig) (x : FeedRun σ) (e : Event) : Prop
  | broadcast (hevent : e = .loop) (hphase : x.server.phase = .ticked)
  | tick (hevent : e = .loop) (hphase : x.server.phase = .waiting)
      (hclients : x.server.clientSubscriptions.entries ≠ [])
  | quiet (hbroadcasts : x.server.broadcasts e = false) (hticks : x.ticks (.server e) = false)
      (hstanding : standing (x.server.step L c e).1 = standing x.server)

theorem standing_readBooks (s : Server σ) :
    standing { s with market := (s.readBooks L c).2 } = standing s := by
  have hframe := MarketSimulator.generateOrderBooks_frame (L := L) (c := c) s.market c.pairs
  simp only [standing, Server.readBooks, hframe.1]

theorem serverMove (x : FeedRun σ) (e : Event) : ServerMove L c x e := by
  cases e with
  | connect => exact .quiet rfl rfl rfl
  | disconnect client => exact .quiet rfl rfl rfl
  | snapshot client =>
    refine .quiet rfl rfl ?_
    simp only [Server.step]
    split
    · exact standing_readBooks x.server
    · rfl
  | subscribe client symbols =>
    refine .quiet rfl rfl ?_
    simp only [Server.step]
    split
    · rename_i subs _
      exact standing_readBooks (x.server.setSubscription client (Server.subscribed c symbols subs))
    · rfl
  | unsubscribe client symbols =>
    refine .quiet rfl rfl ?_
    simp only [Server.step]
    split <;> rfl
  | syncState client lastTs =>
    refine .quiet rfl rfl ?_
    simp only [Server.step]
    split
    · exact standing_readBooks x.server
    · rfl
  | readBook pair =>
    refine .quiet rfl rfl ?_
    have hframe := MarketSimulator.generateOrderBook_frame (L := L) (c := c) x.server.market pair
    simp only [Server.step, standing, hframe.1]
  | loop =>
    cases hphase : x.server.phase with
    | ticked => exact .broadcast rfl hphase
    | waiting =>
      by_cases hclients : x.server.clientSubscriptions.entries = []
      · refine .quiet (by simp [Server.broadcasts, hphase]) (by simp [ticks, hclients]) ?_
        simp [Server.step, Server.broadcastLoop, hphase, hclients]
      · exact .tick rfl hphase hclients

theorem step_loop_of_ticked {s : Server σ} (h : s.phase = .ticked) :
    s.step L c .loop = s.broadcastMarketData L c := by
  simp only [Server.step, Server.broadcastLoop, h]

theorem step_loop_of_waiting {s : Server σ} (h : s.phase = .waiting)
    (hclients : s.clientSubscriptions.entries ≠ []) : s.step L c .loop = (s.tick L c, []) := by
  simp only [Server.step, Server.broadcastLoop, h, if_neg hclients]

theorem Accounted.of_standing {x y : FeedRun σ} (h : x.Accounted c)
    (hstanding : standing y.server = standing x.server) (hsent : y.sent = x.sent)
    (hgenerated : y.generated = x.generated) (hrecorded : y.recorded = x.recorded) : y.Accounted c := by
  simp only [standing, Prod.mk.injEq] at hstanding
  obtain ⟨hnumber, hlast, hphase, hhistory⟩ := hstanding
  have hlatest : y.server.market.getLatestCandles c = x.server.market.getLatestCandles c := by
    simp only [MarketSimulator.getLatestCandles, hhistory]
  intro m hm
  rw [hnumber, hlast, hphase, hlatest, hgenerated, hrecorded]
  exact h m (hsent ▸ hm)

theorem accounted_server (x : FeedRun σ) (e : Event) (h : x.Accounted c) :
    (x.step L c (.server e)).Accounted c := by
  cases serverMove (L := L) (c := c) x e with
  | broadcast hevent hphase =>
    subst hevent
    have hbroadcasts : x.broadcasts (.server .loop) = true := by
      simp [broadcasts, Server.broadcasts, hphase]
    simp only [step, if_pos hbroadcasts, next, step_loop_of_ticked hphase]
    intro m hm
    cases hm
    exact ⟨Nat.le_refl _, fun _ => ⟨rfl, rfl⟩⟩
  | tick hevent hphase hclients =>
    subst hevent
    have hbroadcasts : ¬ x.broadcasts (.server .loop) = true := by
      simp [broadcasts, Server.broadcasts, hphase]
    have hticks : x.ticks (.server .loop) = true := by simp [ticks, hphase, hclients]
    simp only [step, if_neg hbroadcasts, if_pos hticks, next, step_loop_of_waiting hphase hclients]
    intro m hm
    obtain ⟨hle, haccount⟩ := h m hm
    refine ⟨hle, fun hnumber => ?_⟩
    obtain ⟨hrecorded, hgenerated⟩ := haccount hnumber
    rw [hphase] at hgenerated
    refine ⟨hrecorded, ?_⟩
    rw [hgenerated, List.nil_append]
    rfl
  | quiet hbroadcasts hticks hstanding =>
    have hquiet : x.step L c (.server e) = { x with server := (x.server.step L c e).1 } := by
      simp [step, broadcasts, hbroadcasts, hticks, next]
    rw [hquiet]
    exact h.of_standing hstanding rfl rfl rfl

theorem accounted_step (x : FeedRun σ) (e : FeedEvent) (h : x.Accounted c)
    (hlate : e.failsEarly = false) : (x.step L c e).Accounted c := by
  cases e with
  | server e => exact accounted_server x e h
  | fails point =>
    cases point with
    | numbered =>
      have hstep : x.step L c (.fails .numbered) =
          { x with server := x.server.fail L c .numbered } := by
        simp [step, broadcasts, ticks, next]
      rw [hstep]
      by_cases hphase : x.server.phase = .ticked
      · -- the number is gone: the next broadcast shows a gap
        intro m hm
        have hle := (h m hm).1
        simp only [Server.fail, if_pos hphase, Server.broadcastMarketData]
        exact ⟨by omega, fun hnumber => by omega⟩
      · simp only [Server.fail, if_neg hphase]
        exact h
    | weekendCheck => cases hlate
    | beforeBooks => cases hlate
    | inBooks read recorded => cases hlate

theorem missesNothing_of_accounted (x : FeedRun σ) (e : FeedEvent) (h : x.Accounted c) :
    x.MissesNothing L c e := by
  intro hbroadcasts hnumber entry hentry sent hsent hclient
  cases e with
  | fails point => cases hbroadcasts
  | server e =>
    simp only [broadcasts, Server.broadcasts, decide_eq_true_eq] at hbroadcasts
    obtain ⟨rfl, hphase⟩ := hbroadcasts
    simp only [next, messages, step_loop_of_ticked hphase] at hnumber hsent ⊢
    obtain ⟨m, hm, hsucc⟩ := Option.map_eq_some_iff.mp hnumber
    have hseq : x.server.sequenceNumber = m := Nat.succ.inj hsucc.symm
    obtain ⟨hrecorded, hgenerated⟩ := (h m hm).2 hseq
    rw [hphase] at hgenerated
    obtain ⟨entry', hentry', rfl⟩ := List.mem_map.mp hsent
    have hsame : entry'.2 = entry.2 := by
      have hfind := (Dict.mem_entries_iff _ _ _).mp hentry'
      rw [hclient, (Dict.mem_entries_iff _ _ _).mp hentry] at hfind
      exact (Option.some.inj hfind).symm
    rw [hsame, hgenerated, hrecorded]
    constructor
    · intro candle hcandle htakes
      exact mem_candles_messageFor hcandle _ _ htakes
    · intro pair hpair htakes
      exact carries_of_takes x.server _ hpair htakes

/-- In every run in which no tick raises before it takes its number, no broadcast with the next
number misses a candle or a change of a book. -/
theorem missesNothing_of_failsLate (L : Library σ) (c : MarketConfig) (rng : σ)
    (events : List FeedEvent) (hlate : ∀ e ∈ events, e.failsEarly = false) :
    Along (step L c) (MissesNothing L c) (init L c rng) events := by
  refine along_imp (Accounted c) (fun x e h hguard => accounted_step x e h hguard)
    (fun x e h _ => missesNothing_of_accounted x e h) (fun m hm => by cases hm) ?_
  exact (along_input_iff (step L c) (fun e => e.failsEarly = false) (init L c rng) events).mpr hlate

/-- A client has received a broadcast. -/
def firstBroadcast : List FeedEvent :=
  [.server .connect, .server (.snapshot 0), .server .loop, .server .loop]

/-- The next tick raises before it builds the books, and the one after it is broadcast with the next
number: the candle of the tick that raised is in no message. -/
theorem not_missesNothing_beforeBooks :
    ¬ Along (step (tapedLibrary []) stillMarket) (MissesNothing (tapedLibrary []) stillMarket)
      (init (tapedLibrary []) stillMarket 0)
      (firstBroadcast ++ [.server .loop, .fails .beforeBooks, .server .loop, .server .loop]) := by
  decide +kernel

/-- Two broadcasts in a row, then a tick that raises after it took its number. -/
theorem missesNothing_numbered :
    Along (step (tapedLibrary []) stillMarket) (MissesNothing (tapedLibrary []) stillMarket)
      (init (tapedLibrary []) stillMarket 0)
      (firstBroadcast ++ [.server .loop, .server .loop, .server .loop, .fails .numbered,
        .server .loop, .server .loop]) :=
  missesNothing_of_failsLate (tapedLibrary []) stillMarket 0 _ (by decide)

end FeedRun

end TradingSim.Feed
