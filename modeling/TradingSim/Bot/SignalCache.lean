import Mathlib.Data.Int.ConditionallyCompleteOrder
import Mathlib.Order.Monotone.Basic
import TradingSim.Foundations.Dict
import TradingSim.Foundations.Ranges
import TradingSim.Foundations.Run
import TradingSim.Bot.SignalEngine

/-!
# The signal engine's indicator cache

The engine keeps the indicators of each symbol between calls. While a symbol's cache warms up, a
call feeds every candle of its window; from then on it feeds the last one, if it is new. The cache
sees every candle once exactly as long as these are the candles that no earlier window of the symbol
held.
-/

namespace TradingSim.Bot

open Foundations
open Market (Candle)

/-- The cached indicators of a symbol. -/
structure IndicatorCache extends Indicators ℚ where
  initialized : Bool := false
  lastCandleTs : ℤ := 0
  candleCount : ℕ := 0

namespace IndicatorCache

/-- The cache of a symbol that was never analyzed. -/
def fresh (params : SignalEngineV2Params) : IndicatorCache := { Indicators.fresh params with }

/-- Whether a call replays its whole window. -/
def warmingUp (params : SignalEngineV2Params) (ic : IndicatorCache) : Bool :=
  !ic.initialized || ic.candleCount < params.emaSlowPeriod + params.emaSignalPeriod + 2

/-- Feed a window to the cache: all of it while warming up, its latest candle if it is new. -/
def updateIndicatorCache (params : SignalEngineV2Params) (ic : IndicatorCache)
    (candles : List Candle) (latest : Candle) : IndicatorCache :=
  if ic.warmingUp params then
    { candles.foldl Indicators.feed ic.toIndicators with
      candleCount := candles.length
      lastCandleTs := latest.timestamp
      initialized := true }
  else if latest.timestamp ≠ ic.lastCandleTs then
    { ic.toIndicators.feed latest with
      candleCount := ic.candleCount + 1
      lastCandleTs := latest.timestamp
      initialized := ic.initialized }
  else ic

end IndicatorCache

/-- The engine with its caches by symbol. -/
structure SignalEngineV2 where
  params : SignalEngineV2Params
  cache : Dict String IndicatorCache := Dict.empty

namespace SignalEngineV2

/-- The cache of a symbol, made on first use. -/
def getCache (engine : SignalEngineV2) (symbol : String) : IndicatorCache :=
  (engine.cache.find? symbol).getD (IndicatorCache.fresh engine.params)

/-- Make the caches of a list of symbols. -/
def prepopulate (engine : SignalEngineV2) (symbols : List String) : SignalEngineV2 :=
  symbols.foldl (fun engine symbol =>
    if (engine.cache.find? symbol).isSome then engine
    else { engine with cache := engine.cache.insert symbol (IndicatorCache.fresh engine.params) }) engine

/-- What analyzing a window does to the caches. -/
def analyzeIncremental (engine : SignalEngineV2) (symbol : String) (candles : List Candle) :
    SignalEngineV2 :=
  match candles.getLast? with
  | none => engine
  | some latest =>
    { engine with
      cache := engine.cache.insert symbol
        ((engine.getCache symbol).updateIndicatorCache engine.params candles latest) }

theorem getCache_prepopulate (engine : SignalEngineV2) (symbols : List String) (symbol : String) :
    (engine.prepopulate symbols).params = engine.params ∧
      (engine.prepopulate symbols).getCache symbol = engine.getCache symbol := by
  unfold prepopulate
  induction symbols generalizing engine with
  | nil => exact ⟨rfl, rfl⟩
  | cons symbol' rest ih =>
    rw [List.foldl_cons]
    split
    · exact ih engine
    · rename_i habsent
      obtain ⟨hparams, hcache⟩ := ih
        { engine with cache := engine.cache.insert symbol' (IndicatorCache.fresh engine.params) }
      refine ⟨hparams, hcache.trans ?_⟩
      simp only [getCache, Dict.find?_insert]
      split
      · rename_i hsame
        subst hsame
        rw [Option.not_isSome_iff_eq_none.mp habsent]
        rfl
      · rfl

@[simp] theorem params_analyzeIncremental (engine : SignalEngineV2) (symbol : String)
    (candles : List Candle) : (engine.analyzeIncremental symbol candles).params = engine.params := by
  unfold analyzeIncremental
  split
  · rfl
  · rfl

theorem getCache_analyzeIncremental_of_ne (engine : SignalEngineV2) {symbol symbol' : String}
    (h : symbol' ≠ symbol) (candles : List Candle) :
    (engine.analyzeIncremental symbol candles).getCache symbol' = engine.getCache symbol' := by
  unfold analyzeIncremental
  split
  · rfl
  · simp only [getCache, Dict.find?_insert_of_ne _ h]

theorem getCache_analyzeIncremental (engine : SignalEngineV2) (symbol : String)
    {candles : List Candle} {latest : Candle} (h : candles.getLast? = some latest) :
    (engine.analyzeIncremental symbol candles).getCache symbol =
      (engine.getCache symbol).updateIndicatorCache engine.params candles latest := by
  simp only [analyzeIncremental, h, getCache, Dict.find?_insert_self, Option.getD_some]

end SignalEngineV2

/-! ### The scoring engine

The engine that also scores keeps the same caches: what it does to them is what is done here, as long as
its 32-bit counts do not wrap. -/

/-- A candle as the scoring engine takes it. -/
def timedBar (candle : Candle) : Engine.TimedBar ℚ where
  high := candle.highP
  low := candle.lowP
  close := candle.closeP
  volume := candle.volume
  timestamp := candle.timestamp

/-- A cache of the scoring engine that holds the same. -/
structure IndicatorCache.Matches (ic : IndicatorCache) (c : Engine.Cache ℚ) : Prop where
  indicators : c.toIndicators = ic.toIndicators
  initialized : c.initialized = ic.initialized
  lastCandleTs : c.lastCandleTs = ic.lastCandleTs
  candleCount : c.candleCount = ic.candleCount

/-- Candles that are fed without a division by zero leave what they leave if fed at all. -/
theorem foldlM_feedBar? {candles : List Candle} {start i : Indicators ℚ}
    (h : (candles.map timedBar).foldlM Engine.Cache.feedBar? start = some i) :
    i = candles.foldl Indicators.feed start := by
  induction candles generalizing start with
  | nil =>
    cases h
    rfl
  | cons candle rest ih =>
    rw [List.map_cons, List.foldlM_cons, Engine.Cache.feedBar?] at h
    split_ifs at h
    · cases h
    · exact ih h

/-- An update keeps the caches the same. -/
theorem IndicatorCache.Matches.update {ic : IndicatorCache} {c c' : Engine.Cache ℚ} {p : Engine.Params ℚ}
    {candles : List Candle} {latest : Candle} (hp : p.Accepted)
    (hperiods : p.emaSlowPeriod.toInt + p.emaSignalPeriod.toInt + 2 < 2 ^ 31)
    (hlength : candles.length < 2 ^ 31) (hcount : ic.candleCount + 1 < 2 ^ 31) (h : ic.Matches c)
    (hc : c.updateIndicatorCache p (candles.map timedBar) (timedBar latest) = some c') :
    (ic.updateIndicatorCache p.periods candles latest).Matches c' := by
  have hslow := hp.slow
  have hsignal := hp.signal
  have hsum := wrap32_of_lt (n := p.emaSlowPeriod.toInt + p.emaSignalPeriod.toInt) (by omega) (by omega)
  have hwarm : (c.initialized = false ∨
      c.candleCount < wrap32 (wrap32 (p.emaSlowPeriod.toInt + p.emaSignalPeriod.toInt) + 2)) ↔
        ic.warmingUp p.periods := by
    rw [hsum, wrap32_of_lt (by omega) hperiods, h.initialized, h.candleCount, warmingUp, Bool.or_eq_true,
      Bool.not_eq_true', decide_eq_true_eq]
    refine or_congr_right ?_
    simp only [Engine.Params.periods]
    omega
  rw [Engine.Cache.updateIndicatorCache] at hc
  simp only [hwarm, h.lastCandleTs] at hc
  rw [updateIndicatorCache]
  split at hc
  · rename_i hwarming
    rw [if_pos hwarming]
    obtain ⟨i, hi, hc⟩ := Option.bind_eq_some_iff.mp hc
    cases hc
    rw [h.indicators] at hi
    exact ⟨foldlM_feedBar? hi, rfl, rfl, by rw [List.length_map, wrap32_of_lt (by omega) (by omega)]⟩
  · rename_i hwarming
    rw [if_neg hwarming]
    by_cases hnew : (timedBar latest).timestamp ≠ ic.lastCandleTs
    · rw [if_pos hnew] at hc
      rw [if_pos (show latest.timestamp ≠ _ from hnew)]
      obtain ⟨i, hi, hc⟩ := Option.bind_eq_some_iff.mp hc
      cases hc
      rw [h.indicators, Engine.Cache.feedBar?] at hi
      split_ifs at hi
      cases hi
      refine ⟨rfl, h.initialized, rfl, ?_⟩
      change wrap32 (c.candleCount + 1) = _
      rw [h.candleCount, wrap32_of_lt (by omega) (by omega)]
      rfl
    · rw [if_neg hnew] at hc
      rw [if_neg (show ¬ latest.timestamp ≠ _ from hnew)]
      cases hc
      exact h

/-- The scoring engine holds the same caches. -/
structure SignalEngineV2.Matches (engine : SignalEngineV2) (e : Engine ℚ) : Prop where
  params : engine.params = e.params.periods
  cache : ∀ symbol, (engine.getCache symbol).Matches (e.getCache symbol)

theorem SignalEngineV2.matches_new (p : Engine.Params ℚ) :
    SignalEngineV2.Matches { params := p.periods } (Engine.new p) where
  params := rfl
  cache _ := ⟨rfl, rfl, rfl, rfl⟩

/-- An analysis keeps the caches of both engines the same. -/
theorem SignalEngineV2.Matches.analyzeIncremental {engine : SignalEngineV2} {e e' : Engine ℚ}
    {symbol : String} {candles : List Candle} {ob : DepthBook ℚ} {pressure : PressureResult ℚ}
    {timestampNs : ℤ} {sig : Engine.FastSignal ℚ} [SquareRoot ℚ] (hp : e.params.Accepted)
    (hperiods : e.params.emaSlowPeriod.toInt + e.params.emaSignalPeriod.toInt + 2 < 2 ^ 31)
    (hlength : candles.length < 2 ^ 31) (hcount : (engine.getCache symbol).candleCount + 1 < 2 ^ 31)
    (h : engine.Matches e)
    (he : e.analyzeIncremental symbol (candles.map timedBar) ob pressure timestampNs = some (sig, e')) :
    (engine.analyzeIncremental symbol candles).Matches e' := by
  rw [Engine.analyzeIncremental, List.getLast?_map] at he
  cases hlast : candles.getLast? with
  | none =>
    rw [hlast] at he
    cases he
    rw [SignalEngineV2.analyzeIncremental, hlast]
    exact h
  | some latest =>
    rw [hlast] at he
    obtain ⟨c, hc, he⟩ := Option.bind_eq_some_iff.mp he
    have hmatches := (h.cache symbol).update hp hperiods hlength hcount hc
    -- The scoring engine may also note when it sent a signal.
    obtain ⟨c', hc', hparams, hcache⟩ : ∃ c', ((engine.getCache symbol).updateIndicatorCache
        e.params.periods candles latest).Matches c' ∧ e'.params = e.params ∧
          e'.cache = e.cache.insert symbol c' := by
      dsimp only at he
      split_ifs at he
      · cases he
        exact ⟨c, hmatches, rfl, rfl⟩
      · obtain ⟨d, -, he⟩ := Option.bind_eq_some_iff.mp he
        cases he
        refine ⟨_, ?_, rfl, rfl⟩
        split_ifs
        · exact ⟨hmatches.indicators, hmatches.initialized, hmatches.lastCandleTs, hmatches.candleCount⟩
        · exact hmatches
    refine ⟨by rw [params_analyzeIncremental, h.params, hparams], fun symbol' => ?_⟩
    by_cases hsame : symbol' = symbol
    · subst hsame
      rw [getCache_analyzeIncremental _ _ hlast, h.params, Engine.getCache, hcache, Dict.find?_insert_self]
      exact hc'
    · rw [getCache_analyzeIncremental_of_ne _ hsame, Engine.getCache, hcache,
        Dict.find?_insert_of_ne _ hsame, hparams]
      exact h.cache symbol'

/-- A call on a window of a symbol's series: at least thirty candles from `lo` on. -/
structure IndicatorCall where
  symbol : String
  lo : ℕ
  n : ℕ
  enough : 30 ≤ n

namespace IndicatorCall

/-- The position after the window. -/
def stop (call : IndicatorCall) : ℕ := call.lo + call.n

/-- The positions of the window. -/
def positions (call : IndicatorCall) : List ℕ := List.range' call.lo call.n

/-- The candles of the window. -/
def candles (series : String → ℕ → Candle) (call : IndicatorCall) : List Candle :=
  call.positions.map (series call.symbol)

theorem lo_lt_stop (call : IndicatorCall) : call.lo < call.stop := by
  have := call.enough
  unfold stop
  omega

theorem getLast?_candles (series : String → ℕ → Candle) (call : IndicatorCall) :
    (call.candles series).getLast? = some (series call.symbol (call.stop - 1)) := by
  have hn : call.n = (call.n - 1) + 1 := by
    have := call.enough
    omega
  have hlast : call.lo + (call.n - 1) = call.stop - 1 := by
    unfold stop
    omega
  rw [candles, positions, hn, List.range'_concat, List.map_append, List.map_singleton,
    List.getLast?_append, List.getLast?_singleton, Option.some_or, Nat.one_mul, hlast]

end IndicatorCall

/-- The engine, and the windows of each symbol that were analyzed, the latest first. -/
structure Analysis where
  engine : SignalEngineV2
  windows : String → List (ℕ × ℕ) := fun _ => []

namespace Analysis

/-- The engine at start, with the caches of some symbols made ahead. -/
def init (params : SignalEngineV2Params) (symbols : List String) : Analysis where
  engine := SignalEngineV2.prepopulate { params := params } symbols

/-- Analyze a window. -/
def step (series : String → ℕ → Candle) (x : Analysis) (call : IndicatorCall) : Analysis where
  engine := x.engine.analyzeIncremental call.symbol (call.candles series)
  windows := Function.update x.windows call.symbol
    ((call.lo, call.stop) :: x.windows call.symbol)

/-- Where the series of a symbol ended at the last call. -/
def stop (x : Analysis) (symbol : String) : ℕ := (x.windows symbol).head?.elim 0 Prod.snd

/-- A position of a symbol's series that some window held. -/
def Seen (x : Analysis) (symbol : String) (i : ℕ) : Prop :=
  ∃ w ∈ x.windows symbol, w.1 ≤ i ∧ i < w.2

instance (x : Analysis) (symbol : String) : DecidablePred (x.Seen symbol) := fun i =>
  inferInstanceAs (Decidable (∃ w ∈ x.windows symbol, w.1 ≤ i ∧ i < w.2))

/-- The positions seen, each once and in order. -/
def seen (x : Analysis) (symbol : String) : List ℕ :=
  (List.range (x.stop symbol)).filter fun i => x.Seen symbol i

/-- The cached indicators are those that the candles seen, each fed once and in order, leave. -/
def FedOnce (series : String → ℕ → Candle) (x : Analysis) (symbol : String) : Prop :=
  (x.engine.getCache symbol).toIndicators =
    ((x.seen symbol).map (series symbol)).foldl Indicators.feed (Indicators.fresh x.engine.params)

/-- The window of a call does not end before the last one of its symbol. -/
def Successive (x : Analysis) (call : IndicatorCall) : Prop := x.stop call.symbol ≤ call.stop

instance (x : Analysis) (call : IndicatorCall) : Decidable (x.Successive call) :=
  inferInstanceAs (Decidable (_ ≤ _))

/-- The positions that a call feeds: its window while the cache warms up, else the latest
position if the series has grown. -/
def fed (x : Analysis) (call : IndicatorCall) : List ℕ :=
  if (x.engine.getCache call.symbol).warmingUp x.engine.params then call.positions
  else if call.stop ≠ x.stop call.symbol then [call.stop - 1]
  else []

/-- The positions of a call's window that no earlier window held. -/
def unseen (x : Analysis) (call : IndicatorCall) : List ℕ :=
  call.positions.filter fun i => ¬ x.Seen call.symbol i

/-- A call feeds exactly the positions that no earlier window held. -/
def FeedsUnseen (x : Analysis) (call : IndicatorCall) : Prop := x.fed call = x.unseen call

instance (x : Analysis) (call : IndicatorCall) : Decidable (x.FeedsUnseen call) :=
  inferInstanceAs (Decidable (_ = _))

/-- What the cache of a symbol remembers of the calls on it. -/
structure Remembers (series : String → ℕ → Candle) (x : Analysis) (symbol : String) : Prop where
  seen_lt : ∀ i, x.Seen symbol i → i < x.stop symbol
  seen_last : x.windows symbol ≠ [] → 0 < x.stop symbol ∧ x.Seen symbol (x.stop symbol - 1)
  initialized : (x.engine.getCache symbol).initialized → x.windows symbol ≠ [] ∧
    (x.engine.getCache symbol).lastCandleTs = (series symbol (x.stop symbol - 1)).timestamp

variable {series : String → ℕ → Candle} {x : Analysis} {call : IndicatorCall}

theorem seen_step (i : ℕ) : (x.step series call).Seen call.symbol i ↔
    x.Seen call.symbol i ∨ (call.lo ≤ i ∧ i < call.stop) := by
  simp only [Seen, step, Function.update_self, List.mem_cons, exists_eq_or_imp]
  exact or_comm

theorem stop_step : (x.step series call).stop call.symbol = call.stop := by
  simp [stop, step]

/-- A call leaves what was seen of other symbols alone. -/
theorem windows_step_of_ne (series : String → ℕ → Candle) (x : Analysis) {symbol : String}
    (h : symbol ≠ call.symbol) : (x.step series call).windows symbol = x.windows symbol :=
  Function.update_of_ne h _ _

theorem mem_positions (i : ℕ) : i ∈ call.positions ↔ call.lo ≤ i ∧ i < call.stop :=
  List.mem_range'_1

theorem mem_unseen (i : ℕ) :
    i ∈ x.unseen call ↔ (call.lo ≤ i ∧ i < call.stop) ∧ ¬ x.Seen call.symbol i := by
  simp [unseen, mem_positions]

/-- The positions seen after a call, with those of earlier windows set apart. -/
theorem seen_step_eq_filter : (x.step series call).seen call.symbol =
    (List.range call.stop).filter fun i =>
      x.Seen call.symbol i ∨ (call.lo ≤ i ∧ i < call.stop ∧ ¬ x.Seen call.symbol i) := by
  rw [seen, stop_step]
  apply List.filter_congr
  intro i _
  rw [decide_eq_decide, seen_step]
  tauto

/-- The positions no earlier window held, as a selection of the whole series. -/
theorem unseen_eq_filter : (List.range call.stop).filter (fun i =>
    call.lo ≤ i ∧ i < call.stop ∧ ¬ x.Seen call.symbol i) = x.unseen call := by
  rw [IndicatorCall.stop, filter_range_window]
  apply List.filter_congr
  intro i hi
  have : i < call.lo + call.n := (List.mem_range'_1.mp hi).2
  simp [this]

/-- When everything seen lies below everything unseen, a call appends the unseen positions. -/
theorem seen_step_of_lt (hremembers : x.Remembers series call.symbol) (hsuccessive : x.Successive call)
    (hlt : ∀ i j, x.Seen call.symbol i → j ∈ x.unseen call → i < j) :
    (x.step series call).seen call.symbol = x.seen call.symbol ++ x.unseen call := by
  rw [seen_step_eq_filter, filter_range_or, unseen_eq_filter,
    filter_range_of_lt hsuccessive hremembers.seen_lt]
  · rfl
  · intro i j hi hj
    exact hlt i j hi ((mem_unseen j).mpr ⟨⟨hj.1, hj.2.1⟩, hj.2.2⟩)

/-- A call adds the weight of the unseen positions to that of the positions seen. -/
theorem sum_seen_step (hremembers : x.Remembers series call.symbol) (hsuccessive : x.Successive call)
    (v : ℕ → ℚ) : (((x.step series call).seen call.symbol).map v).sum =
      ((x.seen call.symbol).map v).sum + ((x.unseen call).map v).sum := by
  rw [seen_step_eq_filter, sum_filter_or, unseen_eq_filter,
    filter_range_of_lt hsuccessive hremembers.seen_lt]
  · rfl
  · intro i hi hunseen
    exact hunseen.2.2 hi

theorem toIndicators_step (htimes : StrictMono fun i => (series call.symbol i).timestamp)
    (hremembers : x.Remembers series call.symbol) :
    ((x.step series call).engine.getCache call.symbol).toIndicators =
      ((x.fed call).map (series call.symbol)).foldl Indicators.feed
        (x.engine.getCache call.symbol).toIndicators := by
  have hlast := call.getLast?_candles series
  have hstop := call.lo_lt_stop
  rw [step, SignalEngineV2.getCache_analyzeIncremental _ _ hlast, IndicatorCache.updateIndicatorCache,
    fed]
  cases hwarm : (x.engine.getCache call.symbol).warmingUp x.engine.params with
  | true => rfl
  | false =>
    have hinitialized : (x.engine.getCache call.symbol).initialized := by
      simp only [IndicatorCache.warmingUp, Bool.or_eq_false_iff, Bool.not_eq_false'] at hwarm
      exact hwarm.1
    obtain ⟨hwindows, hts⟩ := hremembers.initialized hinitialized
    have hpos := (hremembers.seen_last hwindows).1
    have hnew : (series call.symbol (call.stop - 1)).timestamp ≠
        (x.engine.getCache call.symbol).lastCandleTs ↔ call.stop ≠ x.stop call.symbol := by
      rw [hts, ne_eq, ne_eq, htimes.injective.eq_iff]
      omega
    simp only [hnew, Bool.false_eq_true, if_false]
    split
    · rfl
    · rfl

theorem Remembers.step (hsuccessive : x.Successive call)
    (h : ∀ symbol, x.Remembers series symbol) (symbol : String) : (x.step series call).Remembers series symbol := by
  by_cases hsame : symbol = call.symbol
  · subst hsame
    have hstop := call.lo_lt_stop
    refine ⟨fun i hi => ?_, fun _ => ?_, fun _ => ?_⟩
    · rw [stop_step]
      rcases (seen_step i).mp hi with hold | hwindow
      · exact ((h call.symbol).seen_lt i hold).trans_le hsuccessive
      · exact hwindow.2
    · rw [stop_step, seen_step]
      exact ⟨by omega, Or.inr (by omega)⟩
    · refine ⟨by simp [Analysis.step], ?_⟩
      rw [stop_step, Analysis.step,
        SignalEngineV2.getCache_analyzeIncremental _ _ (call.getLast?_candles series),
        IndicatorCache.updateIndicatorCache]
      split
      · rfl
      · split
        · rfl
        · rename_i hold
          exact (not_not.mp hold).symm
  · have hwindows := windows_step_of_ne series x hsame
    have hcache := x.engine.getCache_analyzeIncremental_of_ne hsame (call.candles series)
    obtain ⟨hlt, hlast, hinitialized⟩ := h symbol
    have hstop : (x.step series call).stop symbol = x.stop symbol := by rw [stop, hwindows, stop]
    have hseen (i : ℕ) : (x.step series call).Seen symbol i ↔ x.Seen symbol i := by
      rw [Seen, hwindows, Seen]
    refine ⟨?_, ?_, ?_⟩
    · simpa only [hseen, hstop] using hlt
    · simpa only [hwindows, hseen, hstop] using hlast
    · rw [hwindows, hstop]
      change ((x.engine.analyzeIncremental call.symbol (call.candles series)).getCache symbol).initialized →
        _ ∧ ((x.engine.analyzeIncremental call.symbol (call.candles series)).getCache
          symbol).lastCandleTs = _
      rw [hcache]
      exact hinitialized

/-- Unless the cache warms up, a call on a grown series has an unseen position after all those
seen, and a call on any other none. -/
theorem fed_cases (hremembers : x.Remembers series call.symbol) (hsuccessive : x.Successive call) :
    (x.fed call = call.positions ∧ (x.unseen call).Sublist (x.fed call)) ∨
      (x.fed call = [call.stop - 1] ∧ (x.fed call).Sublist (x.unseen call) ∧
        ∀ i, x.Seen call.symbol i → i < call.stop - 1) ∨
      (x.fed call = [] ∧ (x.fed call).Sublist (x.unseen call)) := by
  have hstop := call.lo_lt_stop
  unfold Successive at hsuccessive
  unfold fed
  split
  · exact Or.inl ⟨rfl, List.filter_sublist⟩
  · split
    · rename_i hgrown
      have hbelow (i : ℕ) (hi : x.Seen call.symbol i) : i < call.stop - 1 := by
        have := hremembers.seen_lt i hi
        omega
      have hmem : call.stop - 1 ∈ x.unseen call := by
        rw [mem_unseen]
        exact ⟨by omega, fun hseen => absurd (hbelow _ hseen) (lt_irrefl _)⟩
      exact Or.inr (Or.inl ⟨rfl, List.singleton_sublist.mpr hmem, hbelow⟩)
    · exact Or.inr (Or.inr ⟨rfl, List.nil_sublist _⟩)

theorem lt_of_feedsUnseen (hremembers : x.Remembers series call.symbol)
    (hsuccessive : x.Successive call) (h : x.FeedsUnseen call) (i j : ℕ)
    (hi : x.Seen call.symbol i) (hj : j ∈ x.unseen call) : i < j := by
  obtain ⟨hfed, -⟩ | ⟨hfed, -, hbelow⟩ | ⟨hfed, -⟩ := fed_cases hremembers hsuccessive
  · have hunseen : i ∉ call.positions := by
      rw [← hfed, h, mem_unseen]
      exact fun hmem => hmem.2 hi
    rw [mem_positions] at hunseen
    have hwindow := ((mem_unseen j).mp hj).1
    have := hremembers.seen_lt i hi
    unfold Successive at hsuccessive
    omega
  · rw [← h, hfed, List.mem_singleton] at hj
    exact hj ▸ hbelow i hi
  · rw [← h, hfed] at hj
    contradiction

@[simp] theorem params_step : (x.step series call).engine.params = x.engine.params :=
  SignalEngineV2.params_analyzeIncremental ..

theorem FedOnce.step_of_ne {symbol : String} (h : x.FedOnce series symbol)
    (hne : symbol ≠ call.symbol) : (x.step series call).FedOnce series symbol := by
  have hwindows := windows_step_of_ne series x hne
  have hcache : (x.step series call).engine.getCache symbol = x.engine.getCache symbol :=
    x.engine.getCache_analyzeIncremental_of_ne hne (call.candles series)
  have hstop : (x.step series call).stop symbol = x.stop symbol := by rw [stop, hwindows, stop]
  have hseen : (x.step series call).seen symbol = x.seen symbol := by
    rw [seen, seen, hstop]
    apply List.filter_congr
    intro i _
    rw [decide_eq_decide, Seen, hwindows, Seen]
  rw [FedOnce, hcache, hseen, params_step]
  exact h

theorem FedOnce.step (htimes : StrictMono fun i => (series call.symbol i).timestamp)
    (hsuccessive : x.Successive call) (hremembers : x.Remembers series call.symbol)
    (h : x.FedOnce series call.symbol) (hfeeds : x.FeedsUnseen call) :
    (x.step series call).FedOnce series call.symbol := by
  rw [FedOnce, toIndicators_step htimes hremembers, h, hfeeds,
    seen_step_of_lt hremembers hsuccessive (lt_of_feedsUnseen hremembers hsuccessive hfeeds),
    List.map_append, List.foldl_append, params_step]

/-- On volumes above zero, a call that keeps every candle fed once feeds exactly the unseen
positions: the volume-weighted price adds up what it was fed. -/
theorem feedsUnseen_of_fedOnce (htimes : StrictMono fun i => (series call.symbol i).timestamp)
    (hvolumes : ∀ i, 0 < (series call.symbol i).volume) (hsuccessive : x.Successive call)
    (hremembers : x.Remembers series call.symbol) (h : x.FedOnce series call.symbol)
    (hafter : (x.step series call).FedOnce series call.symbol) : x.FeedsUnseen call := by
  have hsum : ((x.fed call).map fun i => (series call.symbol i).volume).sum =
      ((x.unseen call).map fun i => (series call.symbol i).volume).sum := by
    rw [FedOnce, toIndicators_step htimes hremembers, h, params_step] at hafter
    have hcumV := congrArg (fun i => i.vwap.cumV) hafter
    simp only [Indicators.cumV_foldl_feed, List.map_map] at hcumV
    have hseen := sum_seen_step hremembers hsuccessive
      fun i => (series call.symbol i).volume
    simp only [Function.comp_def] at hcumV
    linarith
  obtain ⟨-, hsub⟩ | ⟨-, hsub, -⟩ | ⟨-, hsub⟩ := fed_cases hremembers hsuccessive
  · exact (eq_of_sublist_of_sum_eq hsub hvolumes hsum.symm).symm
  · exact eq_of_sublist_of_sum_eq hsub hvolumes hsum
  · exact eq_of_sublist_of_sum_eq hsub hvolumes hsum

/-- What holds of the caches as long as every candle was fed once. -/
def Sound (series : String → ℕ → Candle) (x : Analysis) : Prop :=
  (∀ symbol, x.Remembers series symbol) ∧ ∀ symbol, x.FedOnce series symbol

theorem sound_init (params : SignalEngineV2Params) (symbols : List String) :
    (init params symbols).Sound series := by
  have hcache (symbol : String) := SignalEngineV2.getCache_prepopulate { params := params } symbols symbol
  constructor
  · intro symbol
    refine ⟨fun i hi => ?_, fun h => absurd rfl h, fun h => ?_⟩
    · obtain ⟨w, hw, -⟩ := hi
      exact absurd hw List.not_mem_nil
    · rw [init, (hcache symbol).2] at h
      contradiction
  · intro symbol
    rw [FedOnce, init, (hcache symbol).2, (hcache symbol).1]
    rfl

/-- Over every run of calls on successive windows, the caches see every candle once after every
call if every call feeds exactly the positions that no earlier window held; on volumes above
zero, only then. -/
theorem fedOnce_of_feedsUnseen (params : SignalEngineV2Params) (symbols : List String)
    (series : String → ℕ → Candle) (htimes : ∀ symbol, StrictMono fun i => (series symbol i).timestamp)
    (calls : List IndicatorCall)
    (hsuccessive : Along (step series) Successive (init params symbols) calls) :
    (Along (step series) FeedsUnseen (init params symbols) calls →
      Along (step series) (fun x call => ∀ symbol, (x.step series call).FedOnce series symbol)
        (init params symbols) calls) ∧ ((∀ symbol i, 0 < (series symbol i).volume) →
      Along (step series) (fun x call => ∀ symbol, (x.step series call).FedOnce series symbol)
        (init params symbols) calls → Along (step series) FeedsUnseen (init params symbols) calls) := by
  have hfed (x : Analysis) (call : IndicatorCall) (hx : x.Sound series)
      (h : x.Successive call ∧ x.FeedsUnseen call) (symbol : String) :
      (x.step series call).FedOnce series symbol := by
    by_cases hsame : symbol = call.symbol
    · subst hsame
      exact FedOnce.step (htimes call.symbol) h.1 (hx.1 call.symbol) (hx.2 call.symbol) h.2
    · exact (hx.2 symbol).step_of_ne hsame
  constructor
  · intro hfeeds
    exact along_imp (Sound series)
      (fun x call hx h => ⟨Remembers.step h.1 hx.1, hfed x call hx h⟩) hfed
      (sound_init params symbols) ((along_and ..).mpr ⟨hsuccessive, hfeeds⟩)
  · intro hvolumes honce
    exact along_imp (Sound series) (fun x call hx h => ⟨Remembers.step h.1 hx.1, h.2⟩)
      (fun x call hx h => feedsUnseen_of_fedOnce (htimes call.symbol) (hvolumes call.symbol) h.1
        (hx.1 call.symbol) (hx.2 call.symbol) (h.2 call.symbol))
      (sound_init params symbols) ((along_and ..).mpr ⟨hsuccessive, honce⟩)

/-- Candles at a constant price, one a second, each with a volume of one. -/
def steadySeries (symbol : String) (i : ℕ) : Candle :=
  { timestamp := i, openP := 100, highP := 100, lowP := 100, closeP := 100, volume := 1
    symbol := symbol, exchange := "binance" }

/-- A call on the first thirty candles. -/
def firstThirty : IndicatorCall := { symbol := "BTC/USDT", lo := 0, n := 30, enough := le_refl _ }

theorem strictMono_steadySeries (symbol : String) :
    StrictMono fun i => (steadySeries symbol i).timestamp :=
  fun _ _ h => Int.ofNat_lt.mpr h

/-- The first call on a symbol feeds every candle once. -/
theorem fedOnce_of_feedsUnseen_firstThirty :
    Along (step steadySeries) (fun x call => ∀ symbol, (x.step steadySeries call).FedOnce steadySeries symbol)
      (init {} ["BTC/USDT"]) [firstThirty] :=
  (fedOnce_of_feedsUnseen {} ["BTC/USDT"] steadySeries strictMono_steadySeries [firstThirty]
    ⟨Nat.zero_le _, trivial⟩).1 ⟨by decide +kernel, trivial⟩

/-- A repeated call on an unchanged window feeds every candle again while the cache warms up. -/
theorem not_fedOnce_repeatedCall :
    Along (step steadySeries) Successive (init {} ["BTC/USDT"]) [firstThirty, firstThirty] ∧
      ¬ Along (step steadySeries)
        (fun x call => ∀ symbol, (x.step steadySeries call).FedOnce steadySeries symbol)
        (init {} ["BTC/USDT"]) [firstThirty, firstThirty] := by
  refine ⟨⟨Nat.zero_le _, by decide +kernel, trivial⟩, ?_⟩
  rintro ⟨-, hsecond, -⟩
  have hvolume := congrArg (fun i => i.vwap.cumV) (hsecond "BTC/USDT")
  revert hvolume
  decide +kernel

end Analysis

end TradingSim.Bot
