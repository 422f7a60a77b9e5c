import TradingSim.Market.Ticks

/-!
# Candle histories in the order of time

A tick adds one candle to the history of each exchange and symbol, stamped with the clock, and moves
the clock on when it is through. So every history is in strictly increasing order of time, and in a
list that is drawn from the histories pair by pair the candles of each pair are.
-/

namespace TradingSim.Market

/-- The candles of each exchange and symbol stand in strictly increasing order of time. -/
def InOrder (candles : List Candle) : Prop :=
  candles.Pairwise fun a b =>
    (a.exchange, a.symbol) = (b.exchange, b.symbol) → a.timestamp < b.timestamp

theorem InOrder.sublist {candles candles' : List Candle} (h : InOrder candles)
    (hsub : candles'.Sublist candles) : InOrder candles' :=
  List.Pairwise.sublist hsub h

theorem inOrder_flatMap {pairs : List (String × String)} (hnodup : pairs.Nodup)
    {drawn : String × String → List Candle}
    (hlabel : ∀ pair, ∀ candle ∈ drawn pair, (candle.exchange, candle.symbol) = pair)
    (horder : ∀ pair, (drawn pair).Pairwise fun a b => a.timestamp < b.timestamp) :
    InOrder (pairs.flatMap drawn) := by
  apply List.pairwise_flatMap.mpr
  constructor
  · intro pair _
    apply List.Pairwise.imp _ (horder pair)
    exact fun hlt _ => hlt
  · apply List.Pairwise.imp _ hnodup
    intro pair pair' hne a ha b hb heq
    rw [hlabel pair a ha, hlabel pair' b hb] at heq
    exact absurd heq hne

namespace MarketSimulator

variable {σ : Type} {L : Library σ} {c : MarketConfig}

/-- Every history is in strictly increasing order and lies before the clock. -/
structure Ordered (m : MarketSimulator σ) : Prop where
  increasing : ∀ pair, (m.candleHistory pair).Pairwise fun a b => a.timestamp < b.timestamp
  past : ∀ pair, ∀ candle ∈ m.candleHistory pair, candle.timestamp < m.currentTs

theorem Ordered.congr {m m' : MarketSimulator σ} (h : m.Ordered)
    (hhistory : m'.candleHistory = m.candleHistory) (htime : m'.currentTs = m.currentTs) : m'.Ordered := by
  constructor
  · rw [hhistory]
    exact h.increasing
  · rw [hhistory, htime]
    exact h.past

/-- Within a tick the histories reach up to the clock, and those that are still to be extended lie
before it. -/
structure Extending (m : MarketSimulator σ) (remaining : String × String → Prop) : Prop where
  increasing : ∀ pair, (m.candleHistory pair).Pairwise fun a b => a.timestamp < b.timestamp
  reached : ∀ pair, ∀ candle ∈ m.candleHistory pair, candle.timestamp ≤ m.currentTs
  past : ∀ pair, remaining pair → ∀ candle ∈ m.candleHistory pair, candle.timestamp < m.currentTs

variable {remaining remaining' : String × String → Prop}

variable {m : MarketSimulator σ}

theorem Ordered.extending (h : m.Ordered) : m.Extending remaining where
  increasing := h.increasing
  reached pair candle hcandle := (h.past pair candle hcandle).le
  past pair _ := h.past pair

theorem Extending.congr {m m' : MarketSimulator σ} (h : m.Extending remaining)
    (hhistory : m'.candleHistory = m.candleHistory) (htime : m'.currentTs = m.currentTs) :
    m'.Extending remaining := by
  constructor
  · rw [hhistory]
    exact h.increasing
  · rw [hhistory, htime]
    exact h.reached
  · rw [hhistory, htime]
    exact h.past

/-- A candle extends the history of its pair. -/
theorem Extending.generateExchangeCandle (h : m.Extending remaining)
    {symbol : String} {basePrice newBasePrice ret : ℚ} {exchange : String}
    (hpair : remaining (exchange, symbol))
    (hrest : ∀ pair, remaining' pair → pair ≠ (exchange, symbol) ∧ remaining pair) :
    (generateExchangeCandle L c symbol basePrice newBasePrice ret m exchange).Extending remaining' := by
  obtain ⟨candle, htime, -, hhistory⟩ :=
    generateExchangeCandle_history (L := L) (c := c) symbol basePrice newBasePrice ret m exchange
  constructor
  · intro pair
    rw [hhistory]
    by_cases hself : pair = (exchange, symbol)
    · subst hself
      rw [Function.update_self]
      apply List.pairwise_append.mpr
      refine ⟨h.increasing _, List.pairwise_singleton _ _, fun a ha b hb => ?_⟩
      obtain rfl := List.mem_singleton.mp hb
      rw [htime]
      exact h.past _ hpair a ha
    · rw [Function.update_of_ne hself]
      exact h.increasing pair
  · intro pair old hold
    rw [hhistory] at hold
    by_cases hself : pair = (exchange, symbol)
    · subst hself
      rw [Function.update_self, List.mem_append, List.mem_singleton] at hold
      rcases hold with hold | rfl
      · exact h.reached _ old hold
      · exact htime.le
    · rw [Function.update_of_ne hself] at hold
      exact h.reached pair old hold
  · intro pair hremains old hold
    obtain ⟨hother, hremaining⟩ := hrest pair hremains
    rw [hhistory, Function.update_of_ne hother] at hold
    exact h.past pair hremaining old hold

/-- The candles of a symbol extend its history on each of the exchanges once. -/
theorem Extending.foldl_exchanges {symbol : String} {basePrice newBasePrice ret : ℚ}
    {exchanges : List String} (hnodup : exchanges.Nodup)
    (h : m.Extending fun pair => (pair.1 ∈ exchanges ∧ pair.2 = symbol) ∨ remaining pair)
    (hother : ∀ pair, remaining pair → pair.2 ≠ symbol) :
    (exchanges.foldl (MarketSimulator.generateExchangeCandle L c symbol basePrice newBasePrice ret)
      m).Extending remaining := by
  induction exchanges generalizing m with
  | nil => exact ⟨h.increasing, h.reached, fun pair hpair => h.past pair (Or.inr hpair)⟩
  | cons exchange rest ih =>
    obtain ⟨hfresh, hrest⟩ := List.nodup_cons.mp hnodup
    apply ih hrest
    apply h.generateExchangeCandle (Or.inl ⟨List.mem_cons_self, rfl⟩)
    rintro pair (⟨hmem, hsymbol⟩ | hpair)
    · refine ⟨?_, Or.inl ⟨List.mem_cons_of_mem _ hmem, hsymbol⟩⟩
      rintro rfl
      exact hfresh hmem
    · refine ⟨?_, Or.inr hpair⟩
      rintro rfl
      exact hother _ hpair rfl

/-- The candles of all symbols extend every history once. -/
theorem Extending.foldl_symbols (zShared sqrtCpy : ℚ) {symbols : List String} (hnodup : symbols.Nodup)
    (h : m.Extending fun pair => pair.2 ∈ symbols) :
    (symbols.foldl (generateSymbolCandles L c zShared sqrtCpy) m).Extending fun _ => False := by
  induction symbols generalizing m with
  | nil => exact ⟨h.increasing, h.reached, fun _ hfalse => hfalse.elim⟩
  | cons symbol rest ih =>
    obtain ⟨hfresh, hrest⟩ := List.nodup_cons.mp hnodup
    apply ih hrest
    have hdrawn : ({ m with rng := (L.gauss m.rng).2 } : MarketSimulator σ).Extending fun pair =>
        (pair.1 ∈ c.exchanges ∧ pair.2 = symbol) ∨ pair.2 ∈ rest := by
      refine ⟨h.increasing, h.reached, fun pair hpair => h.past pair ?_⟩
      rcases hpair with ⟨-, rfl⟩ | hmem
      · exact List.mem_cons_self
      · exact List.mem_cons_of_mem _ hmem
    refine (Extending.foldl_exchanges c.exchanges_nodup hdrawn fun pair hmem => ?_).congr rfl rfl
    rintro rfl
    exact hfresh hmem

/-- Moving the clock on leaves all histories behind it. -/
theorem Extending.advanceClock (h : m.Extending remaining) : (MarketSimulator.advanceClock c m).Ordered := by
  have hkept : ∀ pair, ((MarketSimulator.advanceClock c m).candleHistory pair).Sublist (m.candleHistory pair) := by
    intro pair
    change (if maxCandleHistory < (m.candleHistory pair).length then
      lastN maxCandleHistory (m.candleHistory pair) else m.candleHistory pair).Sublist _
    split
    · rw [lastN, if_neg (by decide)]
      exact List.drop_sublist _ _
    · exact List.Sublist.refl _
  constructor
  · exact fun pair => (h.increasing pair).sublist (hkept pair)
  · intro pair candle hcandle
    have hreached := h.reached pair candle ((hkept pair).subset hcandle)
    have hlater : m.currentTs < (MarketSimulator.advanceClock c m).currentTs := by
      have htimeframe := c.timeframe_pos
      change m.currentTs < m.currentTs + c.timeframeSeconds
      omega
    exact hreached.trans_lt hlater

/-- A tick keeps the histories in order. -/
theorem Ordered.generateCandlesInner (h : m.Ordered) : (generateCandlesInner L c m).Ordered := by
  have hnews : (ageNews (maybeTriggerNews L c m)).Ordered := h.congr (news_frame m).1 (news_frame m).2
  unfold MarketSimulator.generateCandlesInner
  generalize ageNews (maybeTriggerNews L c m) = news at hnews
  simp only
  have hdrawn : ({ news with rng := (L.gauss news.rng).2 } : MarketSimulator σ).Ordered :=
    hnews.congr rfl rfl
  have hfold := (Extending.foldl_symbols (L := L) (c := c) (L.gauss news.rng).1
    (L.sqrt (365 * 24 * 3600 / c.timeframeSeconds)) c.symbols_nodup hdrawn.extending)
  split
  · exact (hfold.advanceClock (c := c)).congr (updateFundingRates_frame _).1 (updateFundingRates_frame _).2
  · exact hfold.advanceClock

/-- The histories of a new market are in order. -/
theorem ordered_init (rng : σ) : (MarketSimulator.init L c rng).Ordered := by
  unfold MarketSimulator.init
  induction c.warmupCandles with
  | zero => exact ⟨fun _ => List.Pairwise.nil, fun _ _ h => absurd h List.not_mem_nil⟩
  | succ n ih =>
    rw [Function.iterate_succ_apply']
    exact ih.generateCandlesInner

/-- No pair is listed twice. -/
theorem nodup_pairs (c : MarketConfig) : c.pairs.Nodup := c.exchanges_nodup.product c.symbols_nodup

/-- The latest candles of the pairs are in order. -/
theorem Labelled.inOrder_latest (hlabelled : m.Labelled) : InOrder (m.getLatestCandles c) := by
  have hdrawn : m.getLatestCandles c =
      c.pairs.flatMap fun pair => (m.candleHistory pair).getLast?.toList := by
    rw [getLatestCandles, List.filterMap_eq_flatMap_toList]
  rw [hdrawn]
  apply inOrder_flatMap (nodup_pairs c)
  · intro pair candle hcandle
    exact hlabelled pair candle (List.mem_of_getLast? (Option.mem_toList.mp hcandle))
  · intro pair
    cases (m.candleHistory pair).getLast? with
    | none => exact List.Pairwise.nil
    | some candle => exact List.pairwise_singleton _ _

/-- The history that is returned is part of the one that is kept. -/
theorem getHistory_sublist (m : MarketSimulator σ) (pair : String × String) (n : ℕ) :
    (m.getHistory pair n).Sublist (m.candleHistory pair) := by
  unfold getHistory lastN
  dsimp only
  split
  · split
    · exact List.Sublist.refl _
    · exact List.drop_sublist _ _
  · exact List.Sublist.refl _

/-- The candles after a time are in order. -/
theorem Ordered.inOrder_after (h : m.Ordered) (hlabelled : m.Labelled) (n : ℕ) (lastTs : ℤ) :
    InOrder (c.pairs.flatMap fun pair =>
      (m.getHistory pair n).filter fun candle => lastTs < candle.timestamp) := by
  have hsub : ∀ pair, ((m.getHistory pair n).filter fun candle => lastTs < candle.timestamp).Sublist
      (m.candleHistory pair) := fun pair => List.filter_sublist.trans (getHistory_sublist m pair n)
  apply inOrder_flatMap (nodup_pairs c)
  · exact fun pair candle hcandle => hlabelled pair candle ((hsub pair).subset hcandle)
  · exact fun pair => (h.increasing pair).sublist (hsub pair)

end MarketSimulator

end TradingSim.Market
