import TradingSim.Backtest.Backtester
import TradingSim.Backtest.RuleEngine
import TradingSim.Foundations.Run

/-!
# No lookahead

What a backtest has done when it comes to a bar depends on the bars before it. The Python backtester
shows its strategy a window that ends before the bar. The dashboard computes its indicators over the
whole series, but what they have at an index comes from the closes up to it.
-/

namespace TradingSim.Backtest

open Foundations
open FloatOps
open RawOrders (PyException)

/-- Lists with the same first elements are as long as that, or equal. -/
theorem lengths_or_eq_of_take_eq {α : Type} {xs ys : List α} {k : ℕ} (h : xs.take k = ys.take k) :
    k ≤ xs.length ∧ k ≤ ys.length ∨ xs = ys := by
  have hlength := congrArg List.length h
  rw [List.length_take, List.length_take] at hlength
  by_cases hk : k ≤ xs.length ∧ k ≤ ys.length
  · exact Or.inl hk
  · have hshort : xs.length ≤ k ∧ ys.length ≤ k := by omega
    rw [List.take_of_length_le hshort.1, List.take_of_length_le hshort.2] at h
    exact Or.inr h

theorem getElem?_eq_of_take_eq {α : Type} {xs ys : List α} {k i : ℕ} (h : xs.take k = ys.take k)
    (hi : i < k) : xs[i]? = ys[i]? := by
  rw [← List.getElem?_take_of_lt hi, h, List.getElem?_take_of_lt hi]

theorem take_eq_of_le {α : Type} {xs ys : List α} {k i : ℕ} (h : xs.take k = ys.take k)
    (hi : i ≤ k) : xs.take i = ys.take i := by
  have hinner := congrArg (List.take i) h
  rwa [List.take_take, List.take_take, Nat.min_eq_left hi] at hinner

namespace RuleEngine

variable {F : Type} [FloatOps F] {xs ys : List F} {k i : ℕ}

variable (o : Options F) {ind ind' : Indicators F} {x : ℚ}

theorem numberAt_congr (h : xs.take k = ys.take k) (hx : x < k) : numberAt xs x = numberAt ys x := by
  rw [numberAt, numberAt, entryAt_congr h hx]

omit [FloatOps F] in
/-- Writing an array from a number on leaves the entries below alone. -/
theorem update_read_of_le {f : ℚ → F} {v : F} (hx : (k : ℚ) ≤ x) (hi : i < k) :
    Function.update f x v i = f i := by
  apply Function.update_of_ne
  rintro rfl
  exact absurd (Nat.cast_lt.mpr hi) (not_lt.mpr hx)

theorem lt_of_turn {start bound : ℚ} {j : ℕ} (hj : j < turnsBelow start bound)
    (hbound : bound ≤ k) : start + j < k :=
  (lt_turnsBelow.mp hj).trans_le hbound

/-- An average with a period beyond a number has nothing at the indices below. -/
theorem calcEMA_eq_nan {period : ℚ} (hperiod : (k : ℚ) < period) (hi : i < k) :
    calcEMA xs period i = nan := by
  unfold calcEMA
  split_ifs with hshort
  · rfl
  · have hseed : (i : ℚ) ≠ period - 1 := by
      intro hseed
      have hnext : ((i + 1 : ℕ) : ℚ) = period := by rw [Nat.cast_add, Nat.cast_one, hseed]; ring
      rw [← hnext] at hperiod
      exact absurd (Nat.cast_lt.mp hperiod) (by omega)
    rw [countUp_unchanged (fun ema : ℚ → F => ema i)]
    · exact Function.update_of_ne hseed _ _
    · intro j hj ema
      refine update_read_of_le ?_ hi
      linarith

/-- What an average has at an index comes from the numbers before `k`. -/
theorem calcEMA_agree (h : xs.take k = ys.take k) (hx : k ≤ xs.length) (hy : k ≤ ys.length)
    (period : ℚ) (hi : i < k) : calcEMA xs period i = calcEMA ys period i := by
  by_cases hperiod : (k : ℚ) < period
  · rw [calcEMA_eq_nan hperiod hi, calcEMA_eq_nan hperiod hi]
  · rw [not_lt] at hperiod
    have hlong {zs : List F} (hz : k ≤ zs.length) : ¬ (zs.length : ℚ) < period :=
      not_lt.mpr (hperiod.trans (Nat.cast_le.mpr hz))
    have hsma : countUp 0 (turnsBelow 0 period) (fun i sma => sma + numberAt xs i) (lit 0) =
        countUp 0 (turnsBelow 0 period) (fun i sma => sma + numberAt ys i) (lit 0) :=
      countUp_congr (fun j hj sma => by rw [numberAt_congr h (lt_of_turn hj hperiod)]) _
    rw [calcEMA, calcEMA, if_neg (hlong hx), if_neg (hlong hy), hsma]
    have hx' : (k : ℚ) ≤ xs.length := Nat.cast_le.mpr hx
    have hy' : (k : ℚ) ≤ ys.length := Nat.cast_le.mpr hy
    apply countUp_agree (fun ema : ℚ → F => ema i) hx' hy'
    · intro x hlt ema
      rw [numberAt_congr h hlt]
    · exact fun x hle ema => update_read_of_le hle hi
    · exact fun x hle ema => update_read_of_le hle hi

theorem change_congr (h : xs.take k = ys.take k) (hx : x < k) :
    numberAt xs x - numberAt xs (x - 1) = numberAt ys x - numberAt ys (x - 1) := by
  have hprevious : x - 1 < k := by linarith
  rw [numberAt_congr h hx, numberAt_congr h hprevious]

@[simp] theorem rsi_sum (r : RsiLoop F) (change : F) : (r.sum change).rsi = r.rsi := by
  unfold RsiLoop.sum
  split_ifs <;> rfl

theorem rsi_write_of_ne {r : RsiLoop F} (hx : (i : ℚ) ≠ x) :
    (r.write x).rsi i = r.rsi i := Function.update_of_ne hx _ _

/-- Writing the index from a number on leaves the entries below alone. -/
theorem rsi_write_of_le {r : RsiLoop F} (hx : (k : ℚ) ≤ x) (hi : i < k) :
    (r.write x).rsi i = r.rsi i := update_read_of_le hx hi

/-- An index whose first averages go beyond a number has nothing below it. -/
theorem calcRSI_eq_nan {period : ℚ} (hperiod : (k : ℚ) < period + 1) (hi : i < k) :
    calcRSI xs period i = nan := by
  unfold calcRSI
  split_ifs with hshort
  · rfl
  · have hseed : (i : ℚ) ≠ period := by
      rintro rfl
      have hnext : (k : ℚ) < ((i + 1 : ℕ) : ℚ) := by rwa [Nat.cast_add, Nat.cast_one]
      exact absurd (Nat.cast_lt.mp hnext) (by omega)
    rw [countUp_unchanged (fun r : RsiLoop F => r.rsi i)]
    · have hsummed (r : RsiLoop F) :
          (countUp 1 (turnsUpTo 1 period)
            (fun x (r : RsiLoop F) => r.sum (numberAt xs x - numberAt xs (x - 1))) r).rsi = r.rsi :=
        countUp_unchanged RsiLoop.rsi (fun _ _ r => rsi_sum r _) r
      exact (rsi_write_of_ne hseed).trans (congrFun (hsummed ⟨lit 0, lit 0, unfilled⟩) i)
    · intro j hj r
      exact rsi_write_of_le (by linarith) hi

/-- What the relative strength has at an index comes from the numbers before `k`. -/
theorem calcRSI_agree (h : xs.take k = ys.take k) (hx : k ≤ xs.length) (hy : k ≤ ys.length)
    (period : ℚ) (hi : i < k) : calcRSI xs period i = calcRSI ys period i := by
  by_cases hperiod : (k : ℚ) < period + 1
  · rw [calcRSI_eq_nan hperiod hi, calcRSI_eq_nan hperiod hi]
  · rw [not_lt] at hperiod
    have hlong {zs : List F} (hz : k ≤ zs.length) : ¬ (zs.length : ℚ) < period + 1 :=
      not_lt.mpr (hperiod.trans (Nat.cast_le.mpr hz))
    have hx' : (k : ℚ) ≤ xs.length := Nat.cast_le.mpr hx
    have hy' : (k : ℚ) ≤ ys.length := Nat.cast_le.mpr hy
    have hsummed :
        countUp 1 (turnsUpTo 1 period)
            (fun x (r : RsiLoop F) => r.sum (numberAt xs x - numberAt xs (x - 1)))
            ⟨lit 0, lit 0, unfilled⟩ =
          countUp 1 (turnsUpTo 1 period)
            (fun x (r : RsiLoop F) => r.sum (numberAt ys x - numberAt ys (x - 1)))
            ⟨lit 0, lit 0, unfilled⟩ := by
      apply countUp_congr
      intro j hj r
      have hlt : (1 : ℚ) + j < k := by linarith [lt_turnsUpTo.mp hj]
      rw [change_congr h hlt]
    rw [calcRSI, calcRSI, if_neg (hlong hx), if_neg (hlong hy)]
    dsimp only
    rw [hsummed]
    apply countUp_agree (fun r : RsiLoop F => r.rsi i) hx' hy'
    · intro x hlt r
      rw [change_congr h hlt]
    · exact fun x hle r => rsi_write_of_le hle hi
    · exact fun x hle r => rsi_write_of_le hle hi

theorem avgVolume_agree (h : xs.take k = ys.take k) (hx : k ≤ xs.length) (hy : k ≤ ys.length)
    (period : ℕ) (hi : i < k) : (avgVolume xs period).getD i nan = (avgVolume ys period).getD i nan := by
  have hentry {zs : List F} (hz : k ≤ zs.length) :
      (avgVolume zs period).getD i nan =
        (List.range' (i + 1 - period) (i + 1 - (i + 1 - period))).foldl
          (fun sum j => sum + zs.getD j nan) (lit 0) / lit (i - (i + 1 - period) + 1 : ℕ) := by
    rw [avgVolume, List.getD_eq_getElem?_getD, List.getElem?_map,
      List.getElem?_range (hi.trans_le hz)]
    rfl
  rw [hentry hx, hentry hy]
  congr 1
  apply List.foldl_ext
  intro sum j hj
  have hlt : j < k := by
    have hrange := List.mem_range'_1.mp hj
    omega
  rw [List.getD_eq_getElem?_getD, List.getD_eq_getElem?_getD, getElem?_eq_of_take_eq h hlt]

/-- Indicators that have the same at the indices before `k`. -/
structure Indicators.AgreeBelow (k : ℕ) (ind ind' : Indicators F) : Prop where
  emaFast : ∀ i < k, ind.emaFast i = ind'.emaFast i
  emaSlow : ∀ i < k, ind.emaSlow i = ind'.emaSlow i
  rsi : ∀ i < k, ind.rsi i = ind'.rsi i
  volAvg : ∀ i < k, ind.volAvg.getD i nan = ind'.volAvg.getD i nan

variable {candles candles' : List (Candle F)}

omit [FloatOps F] in
theorem take_map_eq {α : Type} (f : Candle F → α) (h : candles.take k = candles'.take k) :
    (candles.map f).take k = (candles'.map f).take k := by
  rw [← List.map_take, h, List.map_take]

theorem indicators_agree (h : candles.take k = candles'.take k)
    (hx : k ≤ candles.length) (hy : k ≤ candles'.length) :
    (indicators o candles).AgreeBelow k (indicators o candles') := by
  have hcloses := take_map_eq Candle.close h
  have hvolumes := take_map_eq Candle.volume h
  have hlength {α : Type} (f : Candle F → α) {cs : List (Candle F)} (hk : k ≤ cs.length) :
      k ≤ (cs.map f).length := by rwa [List.length_map]
  exact {
    emaFast := fun i hi => calcEMA_agree hcloses (hlength _ hx) (hlength _ hy) _ hi
    emaSlow := fun i hi => calcEMA_agree hcloses (hlength _ hx) (hlength _ hy) _ hi
    rsi := fun i hi => calcRSI_agree hcloses (hlength _ hx) (hlength _ hy) _ hi
    volAvg := fun i hi => avgVolume_agree hvolumes (hlength _ hx) (hlength _ hy) 20 hi }

/-- Whether a condition is met at a bar before `k` comes from the bars before `k`. -/
theorem matched_agree (h : candles.take k = candles'.take k)
    (hind : ind.AgreeBelow k ind') (hi : i < k) (candle : Candle F) (rule : Rule F) :
    matched candles i ind candle rule = matched candles' i ind' candle rule := by
  have hprevious (hpos : 0 < i) : (i : ℚ) - 1 = ((i - 1 : ℕ) : ℚ) := by
    rw [Nat.cast_sub hpos, Nat.cast_one]
  have hlt : i - 1 < k := by omega
  have hearlier : (candles.map Candle.close).getD (i - 5) nan =
      (candles'.map Candle.close).getD (i - 5) nan := by
    have hfive : i - 5 < k := by omega
    rw [List.getD_eq_getElem?_getD, List.getD_eq_getElem?_getD,
      getElem?_eq_of_take_eq (take_map_eq Candle.close h) hfive]
  unfold matched
  cases rule.condition with
  | emaCrossUp =>
    by_cases hpos : 0 < i
    · simp only [hprevious hpos, hind.emaFast i hi, hind.emaSlow i hi, hind.emaFast _ hlt,
        hind.emaSlow _ hlt]
    · simp [hpos]
  | emaCrossDown =>
    by_cases hpos : 0 < i
    · simp only [hprevious hpos, hind.emaFast i hi, hind.emaSlow i hi, hind.emaFast _ hlt,
        hind.emaSlow _ hlt]
    · simp [hpos]
  | rsiAbove => simp only [hind.rsi i hi]
  | rsiBelow => simp only [hind.rsi i hi]
  | volumeSpike => simp only [hind.volAvg i hi]
  | priceChange5 => simp only [hearlier]
  | _ => rfl

theorem evaluateConditions_agree (h : candles.take k = candles'.take k)
    (hind : ind.AgreeBelow k ind') (hi : i < k) (rules : List (Rule F)) :
    evaluateConditions candles i ind rules = evaluateConditions candles' i ind' rules := by
  unfold evaluateConditions
  rw [getElem?_eq_of_take_eq h hi]
  cases candles'[i]? with
  | none => rfl
  | some candle =>
    have hmatched := funext (matched_agree h hind hi candle)
    exact congrArg (fun p => rules.filter p) hmatched

theorem bar_agree (h : candles.take k = candles'.take k)
    (hind : ind.AgreeBelow k ind') (hi : i < k) (o : Options F) (rules : List (Rule F))
    (s : Replay F) : bar o rules candles ind s i = bar o rules candles' ind' s i := by
  have hlt : i - 1 < k := by omega
  unfold bar
  rw [getElem?_eq_of_take_eq h hi, evaluateConditions_agree h hind hlt]

theorem before_agree (h : candles.take k = candles'.take k) (hi : i ≤ k) (o : Options F)
    (rules : List (Rule F)) : before o rules candles i = before o rules candles' i := by
  obtain ⟨hx, hy⟩ | rfl := lengths_or_eq_of_take_eq h
  · apply List.foldl_ext
    intro s j hj
    exact bar_agree h (indicators_agree o h hx hy) ((List.mem_range.mp hj).trans_le hi) o rules s
  · rfl

/-! ### What a run appends -/

variable (rules : List (Rule F)) (candle : Candle F)

theorem equityCurve_act (s : Replay F) (rule : Rule F) :
    (s.act o candle rule).equityCurve = s.equityCurve := by
  unfold Replay.act
  cases rule.action with
  | buy => simp only [Replay.openPosition]; split_ifs <;> rfl
  | sell => simp only [Replay.openPosition]; split_ifs <;> rfl
  | closeAll => cases s.position <;> rfl
  | alert => rfl
  | unknown => rfl

theorem trades_act (s : Replay F) (rule : Rule F) : s.trades <+: (s.act o candle rule).trades := by
  unfold Replay.act
  cases rule.action with
  | buy => simp only [Replay.openPosition]; split_ifs <;> exact List.prefix_rfl
  | sell => simp only [Replay.openPosition]; split_ifs <;> exact List.prefix_rfl
  | closeAll =>
    cases s.position with
    | some position => exact List.prefix_append _ _
    | none => exact List.prefix_rfl
  | alert => exact List.prefix_rfl
  | unknown => exact List.prefix_rfl

theorem turn_appends (s : Replay F) (triggered : List (Rule F)) :
    (∃ equity, (s.turn o candle triggered).equityCurve = s.equityCurve ++ [equity]) ∧
      s.trades <+: (s.turn o candle triggered).trades := by
  have hrules : (triggered.foldl (Replay.act o candle) s).equityCurve = s.equityCurve :=
    run_unchanged Replay.equityCurve (equityCurve_act o candle) s triggered
  have hprefix : s.trades <+: (triggered.foldl (Replay.act o candle) s).trades :=
    run_related (fun _ => True) (fun s s' : Replay F => s.trades <+: s'.trades)
      (fun _ => List.prefix_rfl) (fun _ _ _ h h' => h.trans h') (fun _ _ _ => trivial)
      (fun s rule _ => trades_act o candle s rule) triggered trivial
  have hdrawdown (s' : Replay F) (equity : F) :
      (s'.trackDrawdown equity).equityCurve = s'.equityCurve ∧
        (s'.trackDrawdown equity).trades = s'.trades := by
    unfold Replay.trackDrawdown
    dsimp only
    split_ifs <;> exact ⟨rfl, rfl⟩
  unfold Replay.turn
  rw [(hdrawdown _ _).1, (hdrawdown _ _).2]
  exact ⟨⟨_, congrArg (· ++ [_]) hrules⟩, hprefix⟩

theorem before_succ (candles : List (Candle F)) (i : ℕ) : before o rules candles (i + 1) =
      bar o rules candles (indicators o candles) (before o rules candles i) i := by
  rw [before, List.range_succ, List.foldl_append]
  rfl

theorem length_equityCurve_before {candles : List (Candle F)} (hi : i ≤ candles.length) :
    (before o rules candles i).equityCurve.length = i := by
  induction i with
  | zero => rfl
  | succ i ih =>
    rw [before_succ, bar, List.getElem?_eq_getElem hi]
    obtain ⟨equity, hcurve⟩ := (turn_appends o candles[i] (before o rules candles i)
      (if 0 < i then evaluateConditions candles (i - 1) (indicators o candles) rules else [])).1
    simp only [hcurve, List.length_append, ih (Nat.le_of_succ_le hi), List.length_singleton]

/-- What a run has recorded stays recorded. -/
theorem before_mono (candles : List (Candle F)) {j : ℕ} (hij : i ≤ j) :
    (before o rules candles i).equityCurve <+: (before o rules candles j).equityCurve ∧
      (before o rules candles i).trades <+: (before o rules candles j).trades := by
  induction j, hij using Nat.le_induction with
  | base => exact ⟨List.prefix_rfl, List.prefix_rfl⟩
  | succ j _ ih =>
    rw [before_succ, bar]
    cases candles[j]? with
    | none => exact ih
    | some candle =>
      obtain ⟨⟨equity, hcurve⟩, htrades⟩ := turn_appends o candle (before o rules candles j)
        (if 0 < j then evaluateConditions candles (j - 1) (indicators o candles) rules else [])
      exact ⟨ih.1.trans (hcurve ▸ List.prefix_append _ _), ih.2.trans htrades⟩

/-- The end of the data adds a trade at most. -/
theorem finish_appends (candles : List (Candle F)) (s : Replay F) :
    (finish o candles s).equityCurve = s.equityCurve ∧ s.trades <+: (finish o candles s).trades := by
  unfold finish
  cases s.position with
  | none => exact ⟨rfl, List.prefix_rfl⟩
  | some position =>
    cases candles.getLast? with
    | none => exact ⟨rfl, List.prefix_rfl⟩
    | some last => exact ⟨rfl, List.prefix_append _ _⟩

/-- Past the last candle nothing happens. -/
theorem before_beyond {candles : List (Candle F)} (hi : candles.length ≤ i) :
    before o rules candles i = before o rules candles candles.length := by
  induction i, hi using Nat.le_induction with
  | base => rfl
  | succ i hi ih => rw [before_succ, bar, List.getElem?_eq_none hi, ih]

theorem runBacktest_past {candles : List (Candle F)} (henough : 30 ≤ candles.length) (k : ℕ) :
    (runBacktest o rules candles).equityCurve.take k = (before o rules candles k).equityCurve ∧
      (before o rules candles k).trades <+: (runBacktest o rules candles).trades := by
  have hfinish := finish_appends o candles (before o rules candles candles.length)
  rw [runBacktest, if_neg (not_lt.mpr henough), hfinish.1]
  by_cases hk : k ≤ candles.length
  · have hpast := before_mono o rules candles hk
    have hlength := length_equityCurve_before o rules hk
    constructor
    · rw [List.prefix_iff_eq_take.mp hpast.1, hlength]
    · exact hpast.2.trans hfinish.2
  · have hbeyond := before_beyond o rules (Nat.le_of_not_le hk)
    have hlength := length_equityCurve_before o rules (le_refl candles.length)
    rw [hbeyond]
    exact ⟨List.take_of_length_le (by omega), hfinish.2⟩

end RuleEngine

namespace Backtester

variable {F σ : Type} [FloatOps F] {k i : ℕ} {candles candles' : List (Candle F)}

theorem bar_agree (h : candles.take k = candles'.take k) (hi : i < k) (b : Backtester F)
    (strategy : Strategy F σ) (symbol : String) (warmup : ℕ) :
    b.bar strategy symbol warmup candles i = b.bar strategy symbol warmup candles' i := by
  unfold bar window
  rw [getElem?_eq_of_take_eq h hi, take_eq_of_le h hi.le]

variable (b : Backtester F) (strategy : Strategy F σ) (strategyState : σ)

/-- The run when it comes to the bar after next, if it gets there. -/
theorem before_succ (symbol : String) {warmup : ℕ} (candles : List (Candle F)) (hi : warmup ≤ i) :
    b.before strategy strategyState symbol warmup candles (i + 1) =
      match b.before strategy strategyState symbol warmup candles i with
      | (s, .ok ()) => b.bar strategy symbol warmup candles i s
      | (s, .error e) => (s, .error e) := by
  have hrange : List.range' warmup (i + 1 - warmup) = List.range' warmup (i - warmup) ++ [i] := by
    rw [Nat.sub_add_comm hi, List.range'_concat, Nat.one_mul, Nat.add_sub_cancel' hi]
  unfold before
  rw [hrange, Action.foldlM_concat]
  generalize (List.range' warmup (i - warmup)).foldlM
    (fun _ i => b.bar strategy symbol warmup candles i) () (b.start strategyState) = ran
  obtain ⟨s, e | a⟩ := ran <;> rfl

theorem before_agree (h : candles.take k = candles'.take k) (hi : i ≤ k) (b : Backtester F)
    (strategy : Strategy F σ) (strategyState : σ) (symbol : String) (warmup : ℕ) :
    b.before strategy strategyState symbol warmup candles i =
      b.before strategy strategyState symbol warmup candles' i := by
  by_cases hwarm : warmup ≤ i
  · induction i, hwarm using Nat.le_induction with
    | base => simp only [before, Nat.sub_self, List.range'_zero, List.foldlM_nil]
    | succ i hwarm ih =>
      rw [before_succ _ _ _ _ _ hwarm, before_succ _ _ _ _ _ hwarm, ih (Nat.le_of_succ_le hi),
        bar_agree h hi]
  · have hnone : i - warmup = 0 := by omega
    simp only [before, hnone, List.range'_zero, List.foldlM_nil]

/-! ### What a run appends -/

/-- The risk manager leaves the records alone unless it ends the run. -/
theorem processRiskUpdate_cases (candle : Candle F) (s : Replay F σ) :
    (∃ s' : Replay F σ, b.processRiskUpdate candle s = (s', .ok false) ∧
        s'.equityCurve = s.equityCurve ∧ s'.trades = s.trades) ∨
      ∃ s' : Replay F σ, b.processRiskUpdate candle s = (s', .error .attributeError) ∧
        s.trades <+: s'.trades := by
  obtain ⟨balance, equityCurve, currentPosition, riskState, peakEquity, trades, generated, valid,
    maxDrawdownPct, strategyState⟩ := s
  unfold processRiskUpdate
  rw [Action.bind_apply]
  simp only [Action.get]
  cases currentPosition with
  | none => exact Or.inl ⟨_, rfl, rfl, rfl⟩
  | some pos =>
    cases hconfig : b.riskConfig with
    | none => exact Or.inl ⟨_, rfl, rfl, rfl⟩
    | some config =>
      cases riskState with
      | none => exact Or.inl ⟨_, rfl, rfl, rfl⟩
      | some state =>
        simp only
        obtain ⟨state', actions⟩ := RiskManager.update config state candle.close candle
        cases hclose : actions.closePosition with
        | none => exact Or.inl ⟨_, rfl, rfl, rfl⟩
        | some reason => exact Or.inr ⟨_, rfl, List.prefix_append _ _⟩

theorem managePositionOrEntry_appends (b : Backtester F) (strategy : Strategy F σ)
    (symbol : String) (window : List (Candle F)) (candle : Candle F) (s : Replay F σ) :
    let s' := b.managePositionOrEntry strategy symbol window candle s
    s'.equityCurve = s.equityCurve ∧ s.trades <+: s'.trades := by
  have hclosed (s : Replay F σ) (pos : Position F) (exitPrice : F) (reason : ExitReason) :
      (b.closed s pos exitPrice reason candle).equityCurve = s.equityCurve ∧
        s.trades <+: (b.closed s pos exitPrice reason candle).trades :=
    ⟨rfl, List.prefix_append _ _⟩
  have hasked : (asked strategy symbol window s).2.equityCurve = s.equityCurve ∧
      (asked strategy symbol window s).2.trades = s.trades := ⟨rfl, rfl⟩
  unfold managePositionOrEntry
  cases s.currentPosition with
  | some pos =>
    dsimp only
    cases checkSlTp pos candle with
    | some exit => exact hclosed s pos exit.2 exit.1
    | none =>
      unfold handleSignalReversal
      generalize asked strategy symbol window s = answer at hasked ⊢
      obtain ⟨signal, s₁⟩ := answer
      rw [← hasked.1, ← hasked.2]
      dsimp only
      split_ifs
      · exact hclosed s₁ pos candle.close .signalExit
      · exact ⟨rfl, List.prefix_rfl⟩
  | none =>
    unfold checkEntry
    generalize asked strategy symbol window s = answer at hasked ⊢
    rw [← hasked.1, ← hasked.2]
    dsimp only
    split_ifs
    · exact ⟨rfl, List.prefix_rfl⟩
    · exact ⟨rfl, List.prefix_rfl⟩

theorem bar_appends (symbol : String) (warmup : ℕ) (hi : i < candles.length) {s s' : Replay F σ}
    (h : b.bar strategy symbol warmup candles i s = (s', .ok ())) :
    (∃ equity, s'.equityCurve = s.equityCurve ++ [equity]) ∧ s.trades <+: s'.trades := by
  unfold bar at h
  rw [List.getElem?_eq_getElem hi] at h
  simp only [Action.bind_apply] at h
  obtain ⟨managed, hrisk, hcurve, htrades⟩ | ⟨ended, hrisk, -⟩ :=
    b.processRiskUpdate_cases candles[i] s
  · simp only [hrisk, Bool.false_eq_true, if_false, Action.modify] at h
    obtain ⟨rfl, -⟩ := Prod.mk.inj h
    have happends := b.managePositionOrEntry_appends strategy symbol (window warmup candles i)
      candles[i] managed
    exact ⟨⟨_, congrArg (· ++ [_]) (happends.1.trans hcurve)⟩, htrades ▸ happends.2⟩
  · rw [hrisk] at h
    cases (Prod.mk.inj h).2

/-- The records of a run that has come to bar `j` without raising, and those that it had at a bar
before. -/
theorem before_mono (symbol : String) (warmup : ℕ) {j : ℕ} (hij : i ≤ j) (hj : j ≤ candles.length)
    (hok : (b.before strategy strategyState symbol warmup candles j).2 = .ok ()) :
    (b.before strategy strategyState symbol warmup candles i).2 = .ok () ∧
      (b.before strategy strategyState symbol warmup candles i).1.equityCurve <+:
        (b.before strategy strategyState symbol warmup candles j).1.equityCurve ∧
      (b.before strategy strategyState symbol warmup candles i).1.trades <+:
        (b.before strategy strategyState symbol warmup candles j).1.trades := by
  induction j, hij using Nat.le_induction with
  | base => exact ⟨hok, List.prefix_rfl, List.prefix_rfl⟩
  | succ j hij ih =>
    by_cases hwarm : warmup ≤ j
    · have hstep := before_succ b strategy strategyState symbol candles hwarm
      cases hran : b.before strategy strategyState symbol warmup candles j with
      | mk s result =>
        rw [hran] at hstep ih
        rw [hstep] at hok ⊢
        cases result with
        | error e => cases hok
        | ok a =>
          obtain ⟨hbefore, hcurve, htrades⟩ := ih (Nat.le_of_succ_le hj) rfl
          cases hbar : b.bar strategy symbol warmup candles j s with
          | mk s' result =>
            simp only [hbar] at hok ⊢
            rw [hok] at hbar
            obtain ⟨⟨equity, happended⟩, hadded⟩ := bar_appends b strategy symbol warmup hj hbar
            exact ⟨hbefore, hcurve.trans (happended ▸ List.prefix_append _ _),
              htrades.trans hadded⟩
    · have hsame : b.before strategy strategyState symbol warmup candles (j + 1) =
          b.before strategy strategyState symbol warmup candles j := by
        have hnone : j + 1 - warmup = 0 ∧ j - warmup = 0 := by omega
        rw [before, before, hnone.1, hnone.2]
      rw [hsame] at hok ⊢
      exact ih (Nat.le_of_succ_le hj) hok

theorem length_equityCurve_before (symbol : String) (warmup : ℕ) (hi : i ≤ candles.length)
    (hok : (b.before strategy strategyState symbol warmup candles i).2 = .ok ()) :
    (b.before strategy strategyState symbol warmup candles i).1.equityCurve.length = i - warmup + 1 := by
  by_cases hwarm : warmup ≤ i
  · induction i, hwarm using Nat.le_induction with
    | base => simp [before, start, Action.pure_apply]
    | succ i hwarm ih =>
      have hpast := before_mono b strategy strategyState symbol warmup (Nat.le_succ i) hi hok
      have hstep := before_succ b strategy strategyState symbol candles hwarm
      cases hran : b.before strategy strategyState symbol warmup candles i with
      | mk s result =>
        rw [hran] at hstep hpast ih
        obtain rfl : result = .ok () := hpast.1
        rw [hstep] at hok ⊢
        cases hbar : b.bar strategy symbol warmup candles i s with
        | mk s' result =>
          simp only [hbar] at hok ⊢
          rw [hok] at hbar
          obtain ⟨⟨equity, happended⟩, -⟩ := bar_appends b strategy symbol warmup hi hbar
          rw [happended, List.length_append, ih (Nat.le_of_succ_le hi) rfl, List.length_singleton]
          omega
  · have hnone : i - warmup = 0 := by omega
    simp [before, hnone, start, Action.pure_apply]

/-- Past the last candle nothing happens. -/
theorem before_beyond (symbol : String) (warmup : ℕ) (hi : candles.length ≤ i) :
    b.before strategy strategyState symbol warmup candles i =
      b.before strategy strategyState symbol warmup candles candles.length := by
  induction i, hi using Nat.le_induction with
  | base => rfl
  | succ i hi ih =>
    by_cases hwarm : warmup ≤ i
    · have hidle : b.bar strategy symbol warmup candles i = pure () := by
        rw [bar, List.getElem?_eq_none hi]
      rw [before_succ b strategy strategyState symbol candles hwarm, hidle, ih]
      generalize b.before strategy strategyState symbol warmup candles candles.length = ran
      obtain ⟨s, e | a⟩ := ran <;> rfl
    · have hnone : i + 1 - warmup = 0 ∧ i - warmup = 0 := by omega
      rw [← ih, before, before, hnone.1, hnone.2]

/-- The end of the data adds a trade at most. -/
theorem finalizeBacktest_appends (candles : List (Candle F)) (s : Replay F σ) :
    (b.finalizeBacktest candles s).equityCurve = s.equityCurve ∧
      s.trades <+: (b.finalizeBacktest candles s).trades := by
  unfold finalizeBacktest
  cases s.currentPosition with
  | none => exact ⟨rfl, List.prefix_rfl⟩
  | some pos =>
    cases candles.getLast? with
    | none => exact ⟨rfl, List.prefix_rfl⟩
    | some last => exact ⟨rfl, List.prefix_append _ _⟩

theorem run_past (symbol : String) (warmup k : ℕ) {result : BacktestResult F}
    (hrun : b.run strategy strategyState symbol warmup candles = .ok result) :
    result.equityCurve.take (k - warmup + 1) =
        (b.before strategy strategyState symbol warmup candles k).1.equityCurve ∧
      (b.before strategy strategyState symbol warmup candles k).1.trades <+: result.trades := by
  have hended : (b.before strategy strategyState symbol warmup candles candles.length).2 = .ok () ∧
      result = b.finalizeBacktest candles
        (b.before strategy strategyState symbol warmup candles candles.length).1 := by
    unfold run at hrun
    generalize b.before strategy strategyState symbol warmup candles candles.length = ran at hrun ⊢
    obtain ⟨s, e | a⟩ := ran
    · cases hrun
    · exact ⟨rfl, (Except.ok.inj hrun).symm⟩
  obtain ⟨hok, rfl⟩ := hended
  obtain ⟨hcurve, htrades⟩ := b.finalizeBacktest_appends candles
    (b.before strategy strategyState symbol warmup candles candles.length).1
  rw [hcurve]
  by_cases hk : k ≤ candles.length
  · obtain ⟨hbefore, hpast, hadded⟩ := before_mono b strategy strategyState symbol warmup hk le_rfl hok
    have hlength := length_equityCurve_before b strategy strategyState symbol warmup hk hbefore
    constructor
    · rw [List.prefix_iff_eq_take.mp hpast, hlength]
    · exact hadded.trans htrades
  · have hbeyond := before_beyond b strategy strategyState symbol warmup (Nat.le_of_not_le hk)
    have hlength := length_equityCurve_before b strategy strategyState symbol warmup le_rfl hok
    rw [hbeyond]
    exact ⟨List.take_of_length_le (by omega), htrades⟩

end Backtester

/-- Two runs over candles that agree before bar `k`, with the same settings and the same strategy or rules, hold
the same position and records when they come to each bar up to `k`, and what they return starts with these
records. -/
theorem no_lookahead {F σ : Type} [FloatOps F] (k : ℕ) :
    (∀ (b : Backtester F) (strategy : Strategy F σ) (strategyState : σ) (symbol : String)
      (warmup : ℕ) (candles candles' : List (Candle F)), candles.take k = candles'.take k →
      (∀ i ≤ k, b.before strategy strategyState symbol warmup candles i =
        b.before strategy strategyState symbol warmup candles' i) ∧
      ∀ result result', b.run strategy strategyState symbol warmup candles = .ok result →
        b.run strategy strategyState symbol warmup candles' = .ok result' →
          result.equityCurve.take (k - warmup + 1) = result'.equityCurve.take (k - warmup + 1) ∧
          (b.before strategy strategyState symbol warmup candles k).1.trades <+: result.trades ∧
          (b.before strategy strategyState symbol warmup candles k).1.trades <+: result'.trades) ∧
    ∀ (o : RuleEngine.Options F) (rules : List (RuleEngine.Rule F))
      (candles candles' : List (RuleEngine.Candle F)), candles.take k = candles'.take k →
      30 ≤ candles.length → 30 ≤ candles'.length →
        (∀ i ≤ k, RuleEngine.before o rules candles i = RuleEngine.before o rules candles' i) ∧
        let result := RuleEngine.runBacktest o rules candles
        let result' := RuleEngine.runBacktest o rules candles'
        result.equityCurve.take k = result'.equityCurve.take k ∧
        (RuleEngine.before o rules candles k).trades <+: result.trades ∧
        (RuleEngine.before o rules candles k).trades <+: result'.trades := by
  constructor
  · intro b strategy strategyState symbol warmup candles candles' h
    have hagree (i : ℕ) (hi : i ≤ k) :=
      Backtester.before_agree h hi b strategy strategyState symbol warmup
    refine ⟨hagree, fun result result' hrun hrun' => ?_⟩
    obtain ⟨hcurve, htrades⟩ := Backtester.run_past b strategy strategyState symbol warmup k hrun
    obtain ⟨hcurve', htrades'⟩ := Backtester.run_past b strategy strategyState symbol warmup k hrun'
    rw [← hagree k le_rfl] at hcurve' htrades'
    exact ⟨hcurve.trans hcurve'.symm, htrades, htrades'⟩
  · intro o rules candles candles' h henough henough'
    have hagree (i : ℕ) (hi : i ≤ k) := RuleEngine.before_agree h hi o rules
    refine ⟨hagree, ?_⟩
    obtain ⟨hcurve, htrades⟩ := RuleEngine.runBacktest_past o rules henough k
    obtain ⟨hcurve', htrades'⟩ := RuleEngine.runBacktest_past o rules henough' k
    rw [← hagree k le_rfl] at hcurve' htrades'
    exact ⟨hcurve.trans hcurve'.symm, htrades, htrades'⟩

section Example

/-- A strategy that buys and then sells in turn. -/
def alternating : Strategy ℚ Bool where
  analyze bought _ _ := (⟨if bought then .short else .long, 90, 200⟩, !bought)

/-- A candle with one price. -/
def flatCandle (close : ℚ) : Candle ℚ where
  «open» := close
  high := close
  low := close
  close := close
  volume := 1

/-- The same candle as the dashboard has it. -/
def flatChart (close : ℚ) : RuleEngine.Candle ℚ where
  time := 0
  «open» := close
  high := close
  low := close
  close := close
  volume := 1

end Example

/-- Runs whose candles differ in the last bar. -/
theorem no_lookahead_lastBar : (let b : Backtester ℚ := .default
      let candles (close : ℚ) := [flatCandle 100, flatCandle 101, flatCandle close]
      b.before alternating false "BTC" 1 (candles 102) 2 =
        b.before alternating false "BTC" 1 (candles 50) 2) ∧
      let rules : List (RuleEngine.Rule ℚ) := [⟨.priceAbove, 99, .buy⟩]
      let chart (close : ℚ) := List.replicate 30 (flatChart 100) ++ [flatChart close]
      RuleEngine.before .default rules (chart 102) 30 =
        RuleEngine.before .default rules (chart 50) 30 := by
  have hchart (close : ℚ) : (List.replicate 30 (flatChart 100) ++ [flatChart close]).take 30 =
      List.replicate 30 (flatChart 100) := by
    rw [List.take_left' List.length_replicate]
  constructor
  · exact ((no_lookahead 2).1 .default alternating false "BTC" 1
      [flatCandle 100, flatCandle 101, flatCandle 102]
      [flatCandle 100, flatCandle 101, flatCandle 50] rfl).1 2 le_rfl
  · exact ((@no_lookahead ℚ Unit _ 30).2 .default [⟨.priceAbove, 99, .buy⟩] _ _
      ((hchart 102).trans (hchart 50).symm) (by simp) (by simp)).1 30 le_rfl

end TradingSim.Backtest
