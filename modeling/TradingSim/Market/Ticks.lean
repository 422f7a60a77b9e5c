import Mathlib.Data.List.ProdSigma
import TradingSim.Market.Simulator

/-!
# Ticks and reads of the market

A tick gives every exchange and symbol a candle stamped with the time before the tick, and
advances the clock afterwards. Reading books moves neither the candles nor the clock.
-/

namespace TradingSim.Market

namespace MarketSimulator

variable {σ : Type} {L : Library σ} {c : MarketConfig}

/-- Every candle is filed under its own exchange and symbol. -/
def Labelled (m : MarketSimulator σ) : Prop :=
  ∀ pair, ∀ candle ∈ m.candleHistory pair, (candle.exchange, candle.symbol) = pair

/-- The latest candle of a pair carries a given time. -/
def Fresh (t : ℤ) (pair : String × String) (m : MarketSimulator σ) : Prop :=
  ∃ candle, (m.candleHistory pair).getLast? = some candle ∧ candle.timestamp = t

variable {m : MarketSimulator σ} {pair : String × String}

theorem Fresh.congr {t : ℤ} {m m' : MarketSimulator σ}
    (h : m.Fresh t pair) (heq : m'.candleHistory = m.candleHistory) : m'.Fresh t pair := by
  obtain ⟨candle, hlast, htime⟩ := h
  exact ⟨candle, by rw [heq]; exact hlast, htime⟩

theorem Labelled.congr {m m' : MarketSimulator σ} (h : m.Labelled)
    (heq : m'.candleHistory = m.candleHistory) : m'.Labelled := by
  intro pair candle hcandle
  rw [heq] at hcandle
  exact h pair candle hcandle

/-- A candle is filed under its pair with the time of the clock. -/
theorem generateExchangeCandle_history (symbol : String) (basePrice newBasePrice ret : ℚ)
    (m : MarketSimulator σ) (exchange : String) : ∃ candle : Candle, candle.timestamp = m.currentTs ∧
      (candle.exchange, candle.symbol) = (exchange, symbol) ∧
      (generateExchangeCandle L c symbol basePrice newBasePrice ret m exchange).candleHistory =
        Function.update m.candleHistory (exchange, symbol)
          (m.candleHistory (exchange, symbol) ++ [candle]) :=
  ⟨_, rfl, rfl, rfl⟩

variable {basePrice newBasePrice ret : ℚ} {symbol : String}

theorem fresh_generateExchangeCandle {exchange : String} (pair : String × String)
    (h : pair = (exchange, symbol) ∨ m.Fresh m.currentTs pair) :
    (generateExchangeCandle L c symbol basePrice newBasePrice ret m exchange).Fresh m.currentTs pair := by
  obtain ⟨candle, htime, _, hhistory⟩ :=
    generateExchangeCandle_history (L := L) (c := c) symbol basePrice newBasePrice ret m exchange
  by_cases hpair : pair = (exchange, symbol)
  · subst hpair
    refine ⟨candle, ?_, htime⟩
    rw [hhistory, Function.update_self, List.getLast?_concat]
  · obtain ⟨old, hold, hfields⟩ := h.resolve_left hpair
    refine ⟨old, ?_, hfields⟩
    rw [hhistory, Function.update_of_ne hpair]
    exact hold

/-- A candle is labelled with the pair it is filed under. -/
theorem Labelled.generateExchangeCandle (h : m.Labelled) (exchange : String) :
    (generateExchangeCandle L c symbol basePrice newBasePrice ret m exchange).Labelled := by
  obtain ⟨candle, _, hlabel, hhistory⟩ :=
    generateExchangeCandle_history (L := L) (c := c) symbol basePrice newBasePrice ret m exchange
  intro pair old hold
  rw [hhistory] at hold
  by_cases hpair : pair = (exchange, symbol)
  · subst hpair
    rw [Function.update_self, List.mem_append, List.mem_singleton] at hold
    rcases hold with hold | rfl
    · exact h _ old hold
    · exact hlabel
  · rw [Function.update_of_ne hpair] at hold
    exact h pair old hold

/-- Every exchange of a symbol gets a candle of the time. -/
theorem fresh_foldl_exchanges (exchanges : List String) (m : MarketSimulator σ) :
    (exchanges.foldl (generateExchangeCandle L c symbol basePrice newBasePrice ret) m).currentTs =
        m.currentTs ∧
      ∀ pair : String × String, (pair.1 ∈ exchanges ∧ pair.2 = symbol) ∨ m.Fresh m.currentTs pair →
        (exchanges.foldl (generateExchangeCandle L c symbol basePrice newBasePrice ret) m).Fresh
          m.currentTs pair := by
  induction exchanges generalizing m with
  | nil => exact ⟨rfl, fun pair h => h.resolve_left fun h => List.not_mem_nil h.1⟩
  | cons exchange rest ih =>
    obtain ⟨htime, hfresh⟩ := ih (generateExchangeCandle L c symbol basePrice newBasePrice ret m exchange)
    refine ⟨htime, fun pair h => hfresh pair ?_⟩
    by_cases hrest : pair.1 ∈ rest ∧ pair.2 = symbol
    · exact Or.inl hrest
    · refine Or.inr (fresh_generateExchangeCandle pair ?_)
      rcases h with ⟨hmem, hsymbol⟩ | hold
      · rcases List.mem_cons.mp hmem with hhead | htail
        · exact Or.inl (Prod.ext hhead hsymbol)
        · exact absurd ⟨htail, hsymbol⟩ hrest
      · exact Or.inr hold

/-- Every pair gets a candle of the time. -/
theorem fresh_foldl_symbols (zShared sqrtCpy : ℚ) (symbols : List String) (m : MarketSimulator σ) :
    (symbols.foldl (generateSymbolCandles L c zShared sqrtCpy) m).currentTs = m.currentTs ∧
      ∀ pair : String × String, (pair.1 ∈ c.exchanges ∧ pair.2 ∈ symbols) ∨ m.Fresh m.currentTs pair →
        (symbols.foldl (generateSymbolCandles L c zShared sqrtCpy) m).Fresh m.currentTs pair := by
  induction symbols generalizing m with
  | nil => exact ⟨rfl, fun pair h => h.resolve_left fun h => List.not_mem_nil h.2⟩
  | cons symbol rest ih =>
    have hsymbol : (generateSymbolCandles L c zShared sqrtCpy m symbol).currentTs = m.currentTs ∧
        ∀ pair : String × String, (pair.1 ∈ c.exchanges ∧ pair.2 = symbol) ∨ m.Fresh m.currentTs pair →
          (generateSymbolCandles L c zShared sqrtCpy m symbol).Fresh m.currentTs pair :=
      fresh_foldl_exchanges c.exchanges { m with rng := (L.gauss m.rng).2 }
    obtain ⟨htime, hfresh⟩ := ih (generateSymbolCandles L c zShared sqrtCpy m symbol)
    rw [hsymbol.1] at htime hfresh
    refine ⟨htime, fun pair h => hfresh pair ?_⟩
    by_cases hrest : pair.1 ∈ c.exchanges ∧ pair.2 ∈ rest
    · exact Or.inl hrest
    · refine Or.inr (hsymbol.2 pair ?_)
      rcases h with ⟨hexchange, hmem⟩ | hold
      · rcases List.mem_cons.mp hmem with hhead | htail
        · exact Or.inl ⟨hexchange, hhead⟩
        · exact absurd ⟨hexchange, htail⟩ hrest
      · exact Or.inr hold

/-- Generating the candles of a list of symbols files them under their pairs. -/
theorem Labelled.foldl_symbols (zShared sqrtCpy : ℚ) (symbols : List String) (h : m.Labelled) :
    (symbols.foldl (generateSymbolCandles L c zShared sqrtCpy) m).Labelled := by
  have hexchanges (symbol : String) (basePrice newBasePrice ret : ℚ) (exchanges : List String)
      (m : MarketSimulator σ) (h : m.Labelled) : (exchanges.foldl
        (MarketSimulator.generateExchangeCandle L c symbol basePrice newBasePrice ret) m).Labelled := by
    induction exchanges generalizing m with
    | nil => exact h
    | cons exchange rest ih => exact ih _ (h.generateExchangeCandle exchange)
  induction symbols generalizing m with
  | nil => exact h
  | cons symbol rest ih =>
    have hsymbol : (generateSymbolCandles L c zShared sqrtCpy m symbol).Labelled :=
      hexchanges symbol _ _ _ c.exchanges { m with rng := (L.gauss m.rng).2 } h
    exact ih hsymbol

/-- Dropping old candles keeps the latest one. -/
theorem Fresh.advanceClock {t : ℤ} (h : m.Fresh t pair) : (advanceClock c m).Fresh t pair := by
  obtain ⟨candle, hlast, hfields⟩ := h
  refine ⟨candle, ?_, hfields⟩
  change (if maxCandleHistory < (m.candleHistory pair).length then
    lastN maxCandleHistory (m.candleHistory pair) else m.candleHistory pair).getLast? = some candle
  split
  · rename_i hlong
    rw [lastN, if_neg (by decide), List.getLast?_drop, if_neg (by rw [maxCandleHistory] at *; omega)]
    exact hlast
  · exact hlast

/-- Dropping old candles leaves the others filed. -/
theorem Labelled.advanceClock (h : m.Labelled) : (advanceClock c m).Labelled := by
  intro pair candle hcandle
  change candle ∈ (if maxCandleHistory < (m.candleHistory pair).length then
    lastN maxCandleHistory (m.candleHistory pair) else m.candleHistory pair) at hcandle
  split at hcandle
  · rw [lastN, if_neg (by decide)] at hcandle
    exact h pair candle (List.mem_of_mem_drop hcandle)
  · exact h pair candle hcandle

/-- Funding leaves the candles and the clock alone. -/
theorem updateFundingRates_frame (m : MarketSimulator σ) :
    (updateFundingRates L c m).candleHistory = m.candleHistory ∧
      (updateFundingRates L c m).currentTs = m.currentTs := by
  unfold updateFundingRates
  induction c.exchanges generalizing m with
  | nil => exact ⟨rfl, rfl⟩
  | cons exchange rest ih => exact ih _

/-- News leave the candles and the clock alone. -/
theorem news_frame (m : MarketSimulator σ) :
    (ageNews (maybeTriggerNews L c m)).candleHistory = m.candleHistory ∧
      (ageNews (maybeTriggerNews L c m)).currentTs = m.currentTs := by
  unfold maybeTriggerNews
  split
  · simp only
    split <;> exact ⟨rfl, rfl⟩
  · exact ⟨rfl, rfl⟩

/-- After a tick every pair has a candle with the time before the tick. -/
theorem fresh_generateCandlesInner (m : MarketSimulator σ)
    (h : pair ∈ c.pairs) : (generateCandlesInner L c m).Fresh m.currentTs pair := by
  obtain ⟨hexchange, hsymbol⟩ := List.mem_product.mp (show (pair.1, pair.2) ∈ c.pairs from h)
  have htime := (news_frame (L := L) (c := c) m).2
  unfold generateCandlesInner
  generalize ageNews (maybeTriggerNews L c m) = news at htime
  simp only
  have hfold := (fresh_foldl_symbols (L := L) (c := c) (L.gauss news.rng).1
    (L.sqrt (365 * 24 * 3600 / c.timeframeSeconds)) c.symbols { news with rng := (L.gauss news.rng).2 }).2
    pair (Or.inl ⟨hexchange, hsymbol⟩)
  rw [← htime]
  split
  · exact (hfold.advanceClock (c := c)).congr (updateFundingRates_frame _).1
  · exact hfold.advanceClock

/-- A tick files its candles under their pairs. -/
theorem Labelled.generateCandlesInner (h : m.Labelled) : (generateCandlesInner L c m).Labelled := by
  have hnews : (ageNews (maybeTriggerNews L c m)).Labelled := h.congr (news_frame m).1
  unfold MarketSimulator.generateCandlesInner
  generalize ageNews (maybeTriggerNews L c m) = news at hnews
  simp only
  have hdrawn : ({ news with rng := (L.gauss news.rng).2 } : MarketSimulator σ).Labelled := hnews
  have hfold := hdrawn.foldl_symbols (L := L) (c := c) (L.gauss news.rng).1
    (L.sqrt (365 * 24 * 3600 / c.timeframeSeconds)) c.symbols
  split
  · exact (hfold.advanceClock (c := c)).congr (updateFundingRates_frame _).1
  · exact hfold.advanceClock

/-- A warmed-up simulator has its candles filed. -/
theorem labelled_init (rng : σ) : (MarketSimulator.init L c rng).Labelled := by
  unfold MarketSimulator.init
  induction c.warmupCandles with
  | zero => exact fun _ _ h => by cases h
  | succ n ih =>
    rw [Function.iterate_succ_apply']
    exact ih.generateCandlesInner

/-- Reading a book leaves the candles and the clock alone. -/
theorem generateOrderBook_frame (m : MarketSimulator σ) (pair : String × String) :
    (generateOrderBook L c m pair).2.candleHistory = m.candleHistory ∧
      (generateOrderBook L c m pair).2.currentTs = m.currentTs := by
  unfold generateOrderBook
  simp only
  split <;> exact ⟨rfl, rfl⟩

/-- Reading books leaves the candles and the clock alone. -/
theorem generateOrderBooks_frame (m : MarketSimulator σ) (pairs : List (String × String)) :
    (generateOrderBooks L c m pairs).2.candleHistory = m.candleHistory ∧
      (generateOrderBooks L c m pairs).2.currentTs = m.currentTs := by
  induction pairs generalizing m with
  | nil => exact ⟨rfl, rfl⟩
  | cons pair rest ih =>
    obtain ⟨hhistory, htime⟩ := ih (generateOrderBook L c m pair).2
    obtain ⟨hhistory', htime'⟩ := generateOrderBook_frame (L := L) (c := c) m pair
    exact ⟨hhistory.trans hhistory', htime.trans htime'⟩

/-- A fresh candle is among the latest ones. -/
theorem Fresh.mem_latest {t : ℤ} (h : m.Fresh t pair) (hlabelled : m.Labelled) (hpair : pair ∈ c.pairs) :
    ∃ candle ∈ m.getLatestCandles c, candle.timestamp = t ∧ candle.symbol = pair.2 := by
  obtain ⟨candle, hlast, htime⟩ := h
  have hlabel := hlabelled pair candle (List.mem_of_getLast? hlast)
  exact ⟨candle, List.mem_filterMap.mpr ⟨pair, hpair, hlast⟩, htime, congrArg Prod.snd hlabel⟩

/-- The latest candles are of the market's symbols. -/
theorem Labelled.symbol_mem (h : m.Labelled) {candle : Candle}
    (hcandle : candle ∈ m.getLatestCandles c) : candle.symbol ∈ c.symbols := by
  obtain ⟨pair, hpair, hlast⟩ := List.mem_filterMap.mp hcandle
  have hlabel := h pair candle (List.mem_of_getLast? hlast)
  have hsymbol : candle.symbol = pair.2 := congrArg Prod.snd hlabel
  rw [hsymbol]
  exact (List.mem_product.mp (show (pair.1, pair.2) ∈ c.pairs from hpair)).2

end MarketSimulator

end TradingSim.Market
