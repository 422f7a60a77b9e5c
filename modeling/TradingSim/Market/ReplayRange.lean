import TradingSim.Market.Histories

/-!
# Replayed steps and replay ranges

A replay reads the candles of one step, an offset from the latest ones, or those of a range of steps. Of each
series the range holds the candles of the steps between the two offsets, except that the latest of
them is left out unless the second offset is zero.
-/

namespace TradingSim.Market

/-- The slice `xs[lo:hi]` between two bounds that are not negative. -/
def slice {α : Type*} (xs : List α) (lo hi : ℤ) : List α := (xs.drop lo.toNat).take (hi.toNat - lo.toNat)

namespace MarketSimulator

variable {σ : Type} {c : MarketConfig}

/-- The candle of a series some steps ago. -/
def replayCandle (history : List Candle) (offset : ℤ) : Option Candle :=
  let idx : ℤ := history.length - 1 - offset
  if 0 ≤ idx ∧ idx < history.length then history[idx.toNat]? else none

/-- The candles some steps ago. -/
def getReplayCandles (c : MarketConfig) (m : MarketSimulator σ) (offset : ℤ) : List Candle :=
  c.pairs.filterMap fun pair => replayCandle (m.candleHistory pair) offset

/-- The candles of a series that a range of offsets holds. -/
def replayRange (history : List Candle) (startOffset endOffset : ℤ) : List Candle :=
  let total : ℤ := history.length
  let idxA := max 0 (total - 1 - startOffset)
  let idxB := if endOffset = 0 then total else max 0 (total - 1 - endOffset)
  let lo := min idxA idxB
  let hi := max idxA idxB
  slice history lo hi

def getReplayRange (c : MarketConfig) (m : MarketSimulator σ) (startOffset endOffset : ℤ) : List Candle :=
  c.pairs.flatMap fun pair => replayRange (m.candleHistory pair) startOffset endOffset

/-- The offsets between two, the oldest first. -/
def offsetsBetween (a b : ℤ) : List ℤ :=
  (List.range (max a b - min a b + 1).toNat).map fun (i : ℕ) => max a b - i

/-- The candles of an exchange and symbol. -/
def ofPair (pair : String × String) (candles : List Candle) : List Candle :=
  candles.filter fun candle => (candle.exchange, candle.symbol) = pair

variable (history : List Candle) {pair : String × String}

theorem ofPair_flatMap {pairs : List (String × String)} (hnodup : pairs.Nodup)
    {drawn : String × String → List Candle}
    (hlabel : ∀ pair, ∀ candle ∈ drawn pair, (candle.exchange, candle.symbol) = pair)
    (hpair : pair ∈ pairs) : ofPair pair (pairs.flatMap drawn) = drawn pair := by
  induction pairs with
  | nil => exact absurd hpair List.not_mem_nil
  | cons first rest ih =>
    obtain ⟨hfresh, hrest⟩ := List.nodup_cons.mp hnodup
    have hfirst : ofPair pair (drawn first) = if first = pair then drawn first else [] := by
      split_ifs with heq
      · exact List.filter_eq_self.mpr fun candle hcandle => by simp [hlabel first candle hcandle, heq]
      · exact List.filter_eq_nil_iff.mpr fun candle hcandle => by simp [hlabel first candle hcandle, heq]
    rw [List.flatMap_cons, ofPair, List.filter_append, ← ofPair, ← ofPair, hfirst]
    rcases List.mem_cons.mp hpair with rfl | hmem
    · have hnone : ofPair pair (rest.flatMap drawn) = [] := by
        apply List.filter_eq_nil_iff.mpr
        intro candle hcandle
        obtain ⟨other, hother, hdrawn⟩ := List.mem_flatMap.mp hcandle
        have hne : other ≠ pair := by
          rintro rfl
          exact hfresh hother
        simp [hlabel other candle hdrawn, hne]
      rw [if_pos rfl, hnone, List.append_nil]
    · have hne : first ≠ pair := by
        rintro rfl
        exact hfresh hmem
      rw [if_neg hne, List.nil_append, ih hrest hmem]

/-- An offset counts from the newest candle backwards. -/
theorem replayCandle_eq (idx : ℤ) : replayCandle history (history.length - 1 - idx) =
      if 0 ≤ idx then history[idx.toNat]? else none := by
  have hidx : (history.length : ℤ) - 1 - (history.length - 1 - idx) = idx := by omega
  rw [replayCandle, hidx]
  by_cases hpos : 0 ≤ idx
  · by_cases hlt : idx < history.length
    · simp [hpos, hlt]
    · simp only [hpos, hlt, and_false, if_true, if_false]
      rw [List.getElem?_eq_none (by omega)]
  · simp [hpos]

/-- Successive offsets give a slice of the history. -/
theorem filterMap_indices (first : ℤ) (n : ℕ) : ((List.range n).filterMap fun (i : ℕ) =>
        replayCandle history (history.length - 1 - (first + i))) =
      slice history (max 0 first) (max 0 (first + n)) := by
  induction n with
  | zero => simp [slice]
  | succ n ih =>
    have hone {f : ℕ → Option Candle} : [n].filterMap f = (f n).toList := by cases h : f n <;> simp [h]
    rw [List.range_succ, List.filterMap_append, ih, hone, replayCandle_eq, slice, slice]
    by_cases hpos : 0 ≤ first + n
    · have hnext : (max 0 (first + (n + 1 : ℕ))).toNat - (max 0 first).toNat =
          (max 0 (first + n)).toNat - (max 0 first).toNat + 1 := by omega
      have hat : (max 0 first).toNat + ((max 0 (first + n)).toNat - (max 0 first).toNat) =
          (first + n).toNat := by omega
      rw [hnext, List.take_add_one, List.getElem?_drop, hat, if_pos hpos]
    · have hnext : (max 0 (first + (n + 1 : ℕ))).toNat = 0 := by omega
      have hat : (max 0 (first + n)).toNat = 0 := by omega
      rw [hnext, hat, if_neg hpos]
      simp

/-- The candles of the steps between two offsets are a slice of the series. -/
theorem filterMap_offsets (a b : ℤ) : (offsetsBetween a b).filterMap (replayCandle history) =
      slice history (max 0 (history.length - 1 - max a b)) (max 0 (history.length - min a b)) := by
  have hoffset (i : ℕ) : max a b - i =
      history.length - 1 - ((history.length - 1 - max a b : ℤ) + i) := by omega
  have hend : (history.length : ℤ) - min a b =
      history.length - 1 - max a b + (max a b - min a b + 1).toNat := by omega
  rw [offsetsBetween, List.filterMap_map, hend, ← filterMap_indices]
  simp only [Function.comp_def, hoffset]

/-- Slices from one bound are equal when they end at one place. -/
theorem slice_eq_slice_iff {α : Type*} {xs : List α} {lo hi hi' : ℤ} (hlo : 0 ≤ lo) (hle : lo ≤ hi)
    (hle' : lo ≤ hi') :
    slice xs lo hi = slice xs lo hi' ↔ xs.length ≤ lo ∨ min hi xs.length = min hi' xs.length := by
  lift lo to ℕ using hlo
  lift hi to ℕ using hle.trans' (Int.natCast_nonneg lo)
  lift hi' to ℕ using hle'.trans' (Int.natCast_nonneg lo)
  rw [slice, slice, List.take_eq_take_iff, List.length_drop]
  omega

/-- The range of a series holds the candles of the steps between the offsets if it is empty, if the latest
step is the newest and comes second, or if no candle belongs to it. -/
def Covers (history : List Candle) (startOffset endOffset : ℤ) : Prop :=
  history = [] ∨
    if endOffset = 0 then 0 ≤ startOffset
    else min startOffset endOffset < 0 ∨ history.length ≤ min startOffset endOffset

@[simp] theorem length_slice {α : Type*} (xs : List α) (lo hi : ℤ) :
    (slice xs lo hi).length = min (hi.toNat - lo.toNat) (xs.length - lo.toNat) := by
  rw [slice, List.length_take, List.length_drop]

/-- A range holds the candles of the steps exactly when its offsets cover the series. -/
theorem replayRange_eq_iff (a b : ℤ) :
    replayRange history a b = (offsetsBetween a b).filterMap (replayCandle history) ↔
      Covers history a b := by
  rw [filterMap_offsets, Covers, ← List.length_eq_zero_iff]
  by_cases hb : b = 0
  · subst hb
    by_cases ha : 0 ≤ a
    · have hlo : min (max 0 ((history.length : ℤ) - 1 - a)) history.length =
          max 0 (history.length - 1 - max a 0) := by omega
      have hhi : max (max 0 ((history.length : ℤ) - 1 - a)) history.length =
          max 0 (history.length - min a 0) := by omega
      simp [replayRange, hlo, hhi, ha]
    · -- The range is empty, and the newest candle is missing.
      have hempty : (replayRange history a 0).length = 0 := by
        rw [replayRange, length_slice, if_pos rfl]
        omega
      simp only [ha, if_true, or_false]
      constructor
      · intro heq
        rw [heq, length_slice] at hempty
        omega
      · intro hnil
        simp [hnil, replayRange, slice]
  · have hlo : min (max 0 ((history.length : ℤ) - 1 - a)) (max 0 (history.length - 1 - b)) =
        max 0 (history.length - 1 - max a b) := by omega
    have hhi : max (max 0 ((history.length : ℤ) - 1 - a)) (max 0 (history.length - 1 - b)) =
        max 0 (history.length - 1 - min a b) := by omega
    have hle : min a b ≤ max a b := min_le_max
    rw [replayRange]
    simp only [if_neg hb, hlo, hhi]
    -- Only the older and the newer of the two offsets matter from here on.
    generalize max a b = newest at hle ⊢
    generalize min a b = oldest at hle ⊢
    rw [slice_eq_slice_iff (by omega) (by omega) (by omega)]
    omega

/-- A replayed candle is one of the history. -/
theorem replayCandle_mem {history : List Candle} {offset : ℤ} {candle : Candle}
    (h : replayCandle history offset = some candle) : candle ∈ history := by
  rw [replayCandle] at h
  split at h
  · exact List.mem_of_getElem? h
  · exact absurd h (by simp)

/-- Of a pair a step replays its candle at the offset. -/
theorem ofPair_getReplayCandles {m : MarketSimulator σ} (hlabelled : m.Labelled)
    (hpair : pair ∈ c.pairs) (offset : ℤ) :
    ofPair pair (getReplayCandles c m offset) = (replayCandle (m.candleHistory pair) offset).toList := by
  rw [getReplayCandles, List.filterMap_eq_flatMap_toList]
  apply ofPair_flatMap (nodup_pairs c) ?_ hpair
  intro other candle hcandle
  exact hlabelled other candle (replayCandle_mem (Option.mem_toList.mp hcandle))

/-- Of a pair a range replays the range of its history. -/
theorem ofPair_getReplayRange {m : MarketSimulator σ} (hlabelled : m.Labelled)
    (hpair : pair ∈ c.pairs) (a b : ℤ) :
    ofPair pair (getReplayRange c m a b) = replayRange (m.candleHistory pair) a b := by
  apply ofPair_flatMap (nodup_pairs c) ?_ hpair
  intro other candle hcandle
  exact hlabelled other candle (List.mem_of_mem_drop (List.mem_of_mem_take hcandle))

/-- For each exchange and symbol a range holds the candles of the steps between its offsets, each once and
the oldest first. -/
def Replays (c : MarketConfig) (m : MarketSimulator σ) (startOffset endOffset : ℤ) : Prop :=
  ∀ pair ∈ c.pairs, ofPair pair (getReplayRange c m startOffset endOffset) =
    (offsetsBetween startOffset endOffset).flatMap fun k => ofPair pair (getReplayCandles c m k)

/-- A range replays its steps exactly when its offsets cover the series of every exchange and symbol. -/
theorem replays_iff {m : MarketSimulator σ} (hlabelled : m.Labelled) (a b : ℤ) :
    Replays c m a b ↔ ∀ pair ∈ c.pairs, Covers (m.candleHistory pair) a b := by
  apply forall₂_congr
  intro pair hpair
  simp only [ofPair_getReplayRange hlabelled hpair, ofPair_getReplayCandles hlabelled hpair]
  rw [← List.filterMap_eq_flatMap_toList, replayRange_eq_iff]

theorem oneSymbol_ne_nil : (["BTC/USDT"] : List String) ≠ [] := by decide

theorem fiveMinutes_pos : 0 < 300 := by decide

/-- A market of one exchange and one symbol. -/
def oneSeries : MarketConfig where
  symbols := ["BTC/USDT"]
  exchanges := ["binance"]
  initialPrices _ := 65000
  volatility _ := 3 / 4
  symbolCorr _ := 0
  symbols_nodup := List.nodup_singleton "BTC/USDT"
  exchanges_nodup := List.nodup_singleton "binance"
  symbols_ne_nil := oneSymbol_ne_nil
  exchanges_ne_nil := oneExchange_ne_nil
  timeframe_pos := fiveMinutes_pos
  separator_free := oneExchange_separator_free

def seriesCandle (timestamp : ℤ) : Candle :=
  ⟨timestamp, 100, 102, 99, 101, 5, "BTC/USDT", "binance"⟩

/-- The one series after two candles. -/
def twoCandles : MarketSimulator Unit where
  rng := ()
  prices _ := 101
  candleHistory pair := if pair = ("binance", "BTC/USDT") then [seriesCandle 0, seriesCandle 300] else []

theorem labelled_twoCandles : twoCandles.Labelled := by
  intro pair candle hcandle
  simp only [twoCandles] at hcandle
  split at hcandle
  · rename_i heq
    subst heq
    revert candle
    decide
  · exact absurd hcandle List.not_mem_nil

theorem replays_twoCandles : Replays oneSeries twoCandles 1 0 :=
  (replays_iff labelled_twoCandles 1 0).mpr (by simp [Covers])

/-- With the newest step first, its candle is left out. -/
theorem not_replays_twoCandles : ¬ Replays oneSeries twoCandles 0 1 := by
  unfold Replays
  decide +kernel

end MarketSimulator

end TradingSim.Market
