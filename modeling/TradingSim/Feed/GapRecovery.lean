import TradingSim.Market.Ticks
import TradingSim.Feed.Sessions

/-!
# Recovering missed candles

A message is stamped with the clock after its tick, the candles in it with the clock before. The
candles of the first broadcast a client misses therefore carry the very time of the last message it
has processed, and the reply to its request, which takes the candles after that time, leaves them
out.
-/

namespace TradingSim.Feed

open Foundations
open Market

section Moves

variable {σ : Type} {L : Library σ} {c : MarketConfig}

/-- Whether an event makes a server broadcast. -/
def Server.broadcasts (s : Server σ) (e : Event) : Bool := e = .loop ∧ s.phase = .ticked

/-- What a step does to the market and the broadcast loop. -/
inductive MarketMove (L : Library σ) (c : MarketConfig) (s s' : Server σ) (e : Event) : Prop
  | quiet (hquiet : s.broadcasts e = false) (hphase : s'.phase = s.phase)
      (hhistory : s'.market.candleHistory = s.market.candleHistory)
      (htime : s'.market.currentTs = s.market.currentTs)
  | tick (hwaiting : s.phase = .waiting) (hphase : s'.phase = .ticked)
      (hmarket : s'.market = (s.market.generateCandlesInner L c).autoCheckWeekend)
  | broadcast (hbroadcasts : s.broadcasts e = true) (hphase : s'.phase = .waiting)
      (hhistory : s'.market.candleHistory = s.market.candleHistory)
      (htime : s'.market.currentTs = s.market.currentTs)

theorem MarketMove.reads {s s' : Server σ} {e : Event} (hquiet : s.broadcasts e = false)
    (hphase : s'.phase = s.phase) (hmarket : s'.market = (s.readBooks L c).2) : MarketMove L c s s' e := by
  obtain ⟨hhistory, htime⟩ := MarketSimulator.generateOrderBooks_frame (L := L) (c := c) s.market c.pairs
  exact .quiet hquiet hphase (hmarket ▸ hhistory) (hmarket ▸ htime)

theorem step_moves (s : Server σ) (e : Event) : MarketMove L c s (s.step L c e).1 e := by
  cases e with
  | connect => exact .quiet rfl rfl rfl rfl
  | disconnect client => exact .quiet rfl rfl rfl rfl
  | snapshot client =>
    simp only [Server.step]
    cases s.clientSubscriptions.find? client with
    | none => exact .quiet rfl rfl rfl rfl
    | some subs => exact .reads rfl rfl rfl
  | subscribe client symbols =>
    simp only [Server.step]
    cases s.clientSubscriptions.find? client with
    | none => exact .quiet rfl rfl rfl rfl
    | some subs => exact .reads rfl rfl rfl
  | unsubscribe client symbols =>
    simp only [Server.step]
    cases s.clientSubscriptions.find? client with
    | none => exact .quiet rfl rfl rfl rfl
    | some subs => exact .quiet rfl rfl rfl rfl
  | syncState client lastTs =>
    simp only [Server.step]
    cases s.clientSubscriptions.find? client with
    | none => exact .quiet rfl rfl rfl rfl
    | some subs => exact .reads rfl rfl rfl
  | readBook pair =>
    obtain ⟨hhistory, htime⟩ := MarketSimulator.generateOrderBook_frame (L := L) (c := c) s.market pair
    exact .quiet rfl rfl hhistory htime
  | loop =>
    simp only [Server.step, Server.broadcastLoop]
    cases hphase : s.phase with
    | waiting =>
      simp only
      split
      · exact .quiet (by simp [Server.broadcasts, hphase]) rfl rfl rfl
      · exact .tick hphase rfl rfl
    | ticked =>
      obtain ⟨hhistory, htime⟩ :=
        MarketSimulator.generateOrderBooks_frame (L := L) (c := c) s.market c.pairs
      exact .broadcast (by simp [Server.broadcasts, hphase]) rfl hhistory htime

variable {s : Server σ}

/-- Every step leaves the candles filed under their pairs. -/
theorem labelled_step (h : s.market.Labelled) (e : Event) : (s.step L c e).1.market.Labelled := by
  cases step_moves (L := L) (c := c) s e with
  | quiet _ _ hhistory _ => exact h.congr hhistory
  | tick _ _ hmarket =>
    rw [hmarket]
    exact (h.generateCandlesInner (L := L) (c := c)).congr rfl
  | broadcast _ _ hhistory _ => exact h.congr hhistory

/-- The candles of a time are still to be broadcast: either their tick is still to come, or every
pair's latest candle carries the time. -/
def Server.Owes (c : MarketConfig) (t : ℤ) (s : Server σ) : Prop :=
  (s.phase = .waiting ∧ s.market.currentTs = t) ∨
    (s.phase = .ticked ∧ ∀ pair ∈ c.pairs, s.market.Fresh t pair)

/-- Until it broadcasts, a server goes on owing the candles. -/
theorem Server.Owes.step {t : ℤ} (h : s.Owes c t) {e : Event}
    (hquiet : s.broadcasts e = false) : (s.step L c e).1.Owes c t := by
  cases step_moves (L := L) (c := c) s e with
  | quiet _ hphase hhistory htime =>
    rcases h with ⟨hwaiting, hclock⟩ | ⟨hticked, hfresh⟩
    · exact Or.inl ⟨hphase.trans hwaiting, htime.trans hclock⟩
    · exact Or.inr ⟨hphase.trans hticked, fun pair hpair => (hfresh pair hpair).congr hhistory⟩
  | tick hwaiting hphase hmarket =>
    rcases h with ⟨_, hclock⟩ | ⟨hticked, _⟩
    · refine Or.inr ⟨hphase, fun pair hpair => ?_⟩
      rw [hmarket, ← hclock]
      exact (MarketSimulator.fresh_generateCandlesInner s.market hpair).congr rfl
    · rw [hwaiting] at hticked
      cases hticked
  | broadcast hbroadcasts _ _ _ =>
    rw [hquiet] at hbroadcasts
    cases hbroadcasts

/-- A subscription that receives some symbol of the market; an empty one receives all. -/
def Listens (c : MarketConfig) (subs : Finset String) : Prop :=
  subs = ∅ ∨ ∃ symbol ∈ c.symbols, symbol ∈ subs

variable {subs : Finset String}

theorem Server.Owes.candle_of_broadcast {t : ℤ} (h : s.Owes c t)
    (hlabelled : s.market.Labelled) {e : Event} (hbroadcasts : s.broadcasts e = true)
    (hlistens : Listens c subs) (seq : ℕ) (update : FeedUpdate) :
    ∃ candle ∈ (s.messageFor c seq update subs).candles, candle.timestamp = t := by
  have hticked : s.phase = .ticked := by
    simp only [Server.broadcasts, decide_eq_true_eq] at hbroadcasts
    exact hbroadcasts.2
  have hfresh : ∀ pair ∈ c.pairs, s.market.Fresh t pair := by
    rcases h with ⟨hwaiting, _⟩ | ⟨_, hfresh⟩
    · rw [hticked] at hwaiting
      cases hwaiting
    · exact hfresh
  obtain ⟨exchange, hexchange⟩ := List.exists_mem_of_ne_nil _ c.exchanges_ne_nil
  unfold Server.messageFor
  split
  · obtain ⟨symbol, hsymbol⟩ := List.exists_mem_of_ne_nil _ c.symbols_ne_nil
    have hpair : (exchange, symbol) ∈ c.pairs := List.mem_product.mpr ⟨hexchange, hsymbol⟩
    obtain ⟨candle, hmem, htime, _⟩ := (hfresh _ hpair).mem_latest hlabelled hpair
    exact ⟨candle, hmem, htime⟩
  · rename_i hfiltered
    obtain ⟨symbol, hsymbol, hsub⟩ := hlistens.resolve_left fun h => hfiltered (Or.inr h)
    have hpair : (exchange, symbol) ∈ c.pairs := List.mem_product.mpr ⟨hexchange, hsymbol⟩
    obtain ⟨candle, hmem, htime, hof⟩ := (hfresh _ hpair).mem_latest hlabelled hpair
    exact ⟨candle, List.mem_filter.mpr ⟨hmem, decide_eq_true (hof ▸ hsub)⟩, htime⟩

theorem candles_eq_nil (hlabelled : s.market.Labelled)
    (h : ¬ Listens c subs) (seq : ℕ) (update : FeedUpdate) :
    (s.messageFor c seq update subs).candles = [] := by
  have hforeign : ∀ symbol ∈ c.symbols, symbol ∉ subs := fun symbol hsymbol hsub =>
    h (Or.inr ⟨symbol, hsymbol, hsub⟩)
  unfold Server.messageFor
  split
  · rename_i hfull
    rcases hfull with hall | hempty
    · obtain ⟨symbol, hsymbol⟩ := List.exists_mem_of_ne_nil _ c.symbols_ne_nil
      exact absurd (hall ▸ List.mem_toFinset.mpr hsymbol) (hforeign symbol hsymbol)
    · exact absurd (Or.inl hempty) h
  · refine List.filter_eq_nil_iff.mpr ?_
    intro candle hcandle
    simpa using hforeign _ (hlabelled.symbol_mem hcandle)

/-- The broadcasts a server makes during events, as a subscription receives them. -/
def broadcastsFor (L : Library σ) (c : MarketConfig) (subs : Finset String) :
    Server σ → List Event → List MarketMessage
  | _, [] => []
  | s, e :: rest =>
    let later := broadcastsFor L c subs (s.step L c e).1 rest
    if s.broadcasts e then
      s.messageFor c (s.sequenceNumber + 1) (s.buildOrderbookData L c) subs :: later
    else later

theorem Server.Owes.candle_of_gap {t : ℤ} (hlistens : Listens c subs)
    {gap : List Event} (h : s.Owes c t) (hlabelled : s.market.Labelled)
    (hmissed : broadcastsFor L c subs s gap ≠ []) :
    ∃ message ∈ broadcastsFor L c subs s gap, ∃ candle ∈ message.candles, candle.timestamp = t := by
  induction gap generalizing s with
  | nil => exact absurd rfl hmissed
  | cons e rest ih =>
    rw [broadcastsFor] at hmissed ⊢
    by_cases hbroadcasts : s.broadcasts e = true
    · rw [if_pos hbroadcasts]
      obtain ⟨candle, hmem, htime⟩ := h.candle_of_broadcast hlabelled hbroadcasts hlistens _ _
      exact ⟨_, List.mem_cons_self, candle, hmem, htime⟩
    · rw [if_neg hbroadcasts] at hmissed ⊢
      exact ih (h.step (by simpa using hbroadcasts)) (labelled_step hlabelled e) hmissed

theorem candles_of_gap_eq_nil (h : ¬ Listens c subs) {gap : List Event} (hlabelled : s.market.Labelled) :
    ∀ message ∈ broadcastsFor L c subs s gap, message.candles = [] := by
  induction gap generalizing s with
  | nil =>
    intro message hmessage
    cases hmessage
  | cons e rest ih =>
    intro message hmessage
    rw [broadcastsFor] at hmessage
    by_cases hbroadcasts : s.broadcasts e = true
    · rw [if_pos hbroadcasts] at hmessage
      rcases List.mem_cons.mp hmessage with rfl | hlater
      · exact candles_eq_nil hlabelled h _ _
      · exact ih (labelled_step hlabelled e) message hlater
    · rw [if_neg hbroadcasts] at hmessage
      exact ih (labelled_step hlabelled e) message hmessage

/-- A reply holds only candles after the requested time. -/
theorem lt_of_mem_syncState {lastTs : ℤ} {candle : Candle}
    (h : candle ∈ (s.sendSyncState L c lastTs).1.candles) : lastTs < candle.timestamp := by
  obtain ⟨pair, _, hcandle⟩ := List.mem_flatMap.mp h
  simpa using (List.mem_filter.mp hcandle).2

end Moves

namespace Session

variable {σ : Type} {L : Library σ} {c : MarketConfig} {d : Decoder} {id : ℕ}

/-- Processing a message never lowers the cursor. -/
theorem lastTimestamp_le_deliver (x : Session σ) (message : MarketMessage) :
    x.client.lastTimestamp ≤ (x.deliver d message).client.lastTimestamp := by
  change _ ≤ (if message.timestamp ≠ 0 then max x.client.lastTimestamp message.timestamp
    else x.client.lastTimestamp)
  split
  · exact le_max_left _ _
  · exact le_refl _

/-- A cursor that is not negative is at least the time of the message just processed. -/
theorem timestamp_le_deliver {x : Session σ} (h : 0 ≤ x.client.lastTimestamp)
    (message : MarketMessage) : message.timestamp ≤ (x.deliver d message).client.lastTimestamp := by
  change _ ≤ (if message.timestamp ≠ 0 then max x.client.lastTimestamp message.timestamp
    else x.client.lastTimestamp)
  split
  · exact le_max_right _ _
  · rename_i hzero
    rw [not_not.mp hzero]
    exact h

/-- Processing messages never lowers the cursor. -/
theorem lastTimestamp_le_foldl (messages : List MarketMessage) (x : Session σ) :
    x.client.lastTimestamp ≤ (messages.foldl (deliver d) x).client.lastTimestamp := by
  induction messages generalizing x with
  | nil => exact le_refl _
  | cons message rest ih => exact (lastTimestamp_le_deliver x message).trans (ih _)

theorem server_foldl (messages : List MarketMessage) (x : Session σ) :
    (messages.foldl (deliver d) x).server = x.server := by
  induction messages generalizing x with
  | nil => rfl
  | cons message rest ih => exact ih _

theorem server_step (x : Session σ) (e : Event) : (x.step L c d id e).server = (x.server.step L c e).1 :=
  server_foldl _ _

/-- A session's market has its candles filed and its cursor is not negative. -/
structure Sane (x : Session σ) : Prop where
  labelled : x.server.market.Labelled
  cursor : 0 ≤ x.client.lastTimestamp

theorem Sane.step {x : Session σ} (h : x.Sane) (e : Event) : (x.step L c d id e).Sane where
  labelled := by
    rw [server_step]
    exact labelled_step h.labelled e
  cursor := h.cursor.trans (lastTimestamp_le_foldl _ { x with server := (x.server.step L c e).1 })

theorem sane_run (L : Library σ) (c : MarketConfig) (d : Decoder) (id : ℕ) (rng : σ)
    (events : List Event) : (run (Session.step L c d id) (Session.init L c rng) events).Sane := by
  have hinit : (Session.init L c rng).Sane := ⟨MarketSimulator.labelled_init rng, le_refl _⟩
  generalize Session.init L c rng = x at hinit
  induction events generalizing x with
  | nil => exact hinit
  | cons e rest ih => exact ih _ (hinit.step e)

theorem lastTimestamp_le_gap (gap : List Event) (x : Session σ) :
    x.client.lastTimestamp ≤ (run (stepMissing L c d id) x gap).client.lastTimestamp := by
  induction gap generalizing x with
  | nil => exact le_refl _
  | cons e rest ih =>
    have hstep : x.client.lastTimestamp ≤ (x.stepMissing L c d id e).client.lastTimestamp :=
      lastTimestamp_le_foldl _ { x with server := (x.server.step L c e).1 }
    exact hstep.trans (ih _)

/-- The reply holds every candle of the broadcasts that a gap made for a subscription. -/
def Recovers (L : Library σ) (c : MarketConfig) (subs : Finset String) (s : Server σ)
    (gap : List Event) (reply : MarketMessage) : Prop :=
  ∀ message ∈ broadcastsFor L c subs s gap, ∀ candle ∈ message.candles, candle ∈ reply.candles

instance (subs : Finset String) (s : Server σ) (gap : List Event) (reply : MarketMessage) :
    Decidable (Recovers L c subs s gap reply) :=
  inferInstanceAs (Decidable (∀ message ∈ broadcastsFor L c subs s gap,
    ∀ candle ∈ message.candles, candle ∈ reply.candles))

/-- A connected client that processes a broadcast has a cursor at the server's clock. -/
theorem clock_le_lastTimestamp {x : Session σ} {subs : Finset String}
    (hcursor : 0 ≤ x.client.lastTimestamp) (hconnected : x.server.clientSubscriptions.find? id = some subs)
    (hticked : x.server.phase = .ticked) :
    (x.step L c d id .loop).server.Owes c (x.server.market.currentTs) ∧
      x.server.market.currentTs ≤ (x.step L c d id .loop).client.lastTimestamp := by
  have hloop : x.server.step L c .loop = x.server.broadcastMarketData L c := by
    simp only [Server.step, Server.broadcastLoop, hticked]
  constructor
  · rw [server_step, hloop]
    exact Or.inl ⟨rfl, (MarketSimulator.generateOrderBooks_frame x.server.market c.pairs).2⟩
  · rw [step_eq, hloop, addressed_broadcast, hconnected]
    have htime : (x.server.messageFor c (x.server.sequenceNumber + 1)
        (x.server.buildOrderbookData L c) subs).timestamp = x.server.market.currentTs := by
      unfold Server.messageFor
      split <;> rfl
    rw [← htime]
    exact timestamp_le_deliver hcursor _

/-- A client that has processed the broadcast after a run. -/
def afterBroadcast (L : Library σ) (c : MarketConfig) (d : Decoder) (id : ℕ) (rng : σ)
    (before : List Event) : Session σ :=
  run (step L c d id) (Session.init L c rng) (before ++ [.loop])

/-- The client after missing the broadcasts of a gap. -/
def afterGap (L : Library σ) (c : MarketConfig) (d : Decoder) (id : ℕ) (rng : σ)
    (before gap : List Event) : Session σ :=
  run (stepMissing L c d id) (afterBroadcast L c d id rng before) gap

/-- The reply to the client's request after the gap, made once more events have passed. -/
def gapReply (L : Library σ) (c : MarketConfig) (d : Decoder) (id : ℕ) (rng : σ)
    (before gap later : List Event) : MarketMessage :=
  ((run (step L c d id) (afterGap L c d id rng before gap) later).server.sendSyncState L c
    (afterGap L c d id rng before gap).client.lastTimestamp).1

/-- After a processed broadcast and a gap of missed ones, the reply to the client's request is
complete only for a subscription without any symbol of the market. -/
theorem recovers_iff (L : Library σ) (c : MarketConfig) (d : Decoder) (id : ℕ) (rng : σ)
    (before gap later : List Event) (subs : Finset String)
    (hticked : (run (step L c d id) (Session.init L c rng) before).server.phase = .ticked)
    (hconnected : (run (step L c d id) (Session.init L c rng)
      before).server.clientSubscriptions.find? id = some subs)
    (hmissed : 1 ≤ (broadcastsFor L c subs (afterBroadcast L c d id rng before).server gap).length) :
    Recovers L c subs (afterBroadcast L c d id rng before).server gap
        (gapReply L c d id rng before gap later) ↔ ¬ Listens c subs := by
  have hsane := sane_run L c d id rng before
  have hlabelled : (afterBroadcast L c d id rng before).server.market.Labelled :=
    (sane_run L c d id rng (before ++ [Event.loop])).labelled
  have hlast : afterBroadcast L c d id rng before =
      (run (step L c d id) (Session.init L c rng) before).step L c d id .loop :=
    run_append _ _ _ _
  constructor
  · intro hrecovers hlistens
    obtain ⟨howes, hclock⟩ :=
      clock_le_lastTimestamp (L := L) (c := c) (d := d) hsane.cursor hconnected hticked
    rw [← hlast] at howes hclock
    have hsome := List.ne_nil_of_length_pos hmissed
    obtain ⟨message, hmessage, candle, hcandle, htime⟩ := howes.candle_of_gap hlistens hlabelled hsome
    have hlater := lt_of_mem_syncState (hrecovers message hmessage candle hcandle)
    have hcursor : (run (step L c d id) (Session.init L c rng) before).server.market.currentTs ≤
        (afterGap L c d id rng before gap).client.lastTimestamp :=
      hclock.trans (lastTimestamp_le_gap gap _)
    rw [htime] at hlater
    exact absurd hlater (not_lt.mpr hcursor)
  · intro hdeaf message hmessage candle hcandle
    rw [candles_of_gap_eq_nil hdeaf hlabelled message hmessage] at hcandle
    cases hcandle

/-- A client connects and processes one broadcast after its tick. -/
def oneBroadcast : List Event := [.connect, .snapshot 0, .loop]

/-- The next broadcast. -/
def oneMissed : List Event := [.loop, .loop]

/-- The equivalence at one missed broadcast. -/
theorem recovers_iff_oneMissed : Recovers (tapedLibrary []) stillMarket {"BTC/USDT"}
        (afterBroadcast (tapedLibrary []) stillMarket .dashboard 0 0 oneBroadcast).server oneMissed
        (gapReply (tapedLibrary []) stillMarket .dashboard 0 0 oneBroadcast oneMissed []) ↔
      ¬ Listens stillMarket {"BTC/USDT"} :=
  recovers_iff (tapedLibrary []) stillMarket .dashboard 0 0 oneBroadcast oneMissed [] {"BTC/USDT"}
    (by decide +kernel) (by decide +kernel) (by decide +kernel)

/-- The reply after one missed broadcast lacks its candle. -/
theorem not_recovers_oneMissed : ¬ Recovers (tapedLibrary []) stillMarket {"BTC/USDT"}
      (afterBroadcast (tapedLibrary []) stillMarket .dashboard 0 0 oneBroadcast).server oneMissed
      (gapReply (tapedLibrary []) stillMarket .dashboard 0 0 oneBroadcast oneMissed []) := by
  decide +kernel

end Session

end TradingSim.Feed
