import TradingSim.Bot.TechnicalAnalysis
import TradingSim.Dashboard.Indicators
import TradingSim.Foundations.MachineIntegers

/-!
# Moving averages and relative strength in three languages

The trading bot, the signal bot and the charts each compute the exponential moving average and the relative
strength index. All of them are the same recurrences over the prices. The loops of the trading bot count in
machine integers: it takes the number of prices for an integer of 32 bits and adds one to the period.
-/

namespace TradingSim.Bot

open Foundations
open Number (nan real)
open TechnicalAnalysis (RsiLoop)

section TradingBot

variable {F : Type} [Field F] [LinearOrder F]

/-- The sum of two signed integers, which is undefined outside of their range. -/
def plus (a b : ℤ) : Option ℤ := if -2 ^ 31 ≤ a + b ∧ a + b < 2 ^ 31 then some (a + b) else none

/-- One turn of the smoothing of the moving average. -/
def emaTurn (values : List F) (mult : F) (s : F × List (Number F)) (i : ℕ) :
    Option (F × List (Number F)) := do
  let ema := (← values[i]?) * mult + s.1 * (1 - mult)
  return (ema, s.2.set i (real ema))

/-- `compute_ema`. A price outside of the vector is undefined, and an entry is only written where a price
was read. -/
def computeEma (values : List F) (period : Int32) : Option (List (Number F)) := do
  let n := values.length
  let p := period.toInt
  let result := List.replicate n nan
  if wrap32 n < p then return result
  let next ← plus p 1
  let mult : F := 2 / (next : F)
  let sum ← checkedLoop 0 p.toNat (fun ema i => do return ema + (← values[i]?)) 0
  let ema := sum / (p : F)
  let s ← checkedLoop p.toNat (n - p.toNat) (emaTurn values mult) (ema, result.set (p.toNat - 1) (real ema))
  return s.2

/-- The change between two closes. -/
def change (closes : List F) (i : ℕ) : Option F := do return (← closes[i]?) - (← closes[i - 1]?)

/-- A change is added to the gains or the losses. -/
def addChange (closes : List F) (sums : F × F) (i : ℕ) : Option (F × F) := do
  let change ← change closes i
  return if 0 < change then (sums.1 + change, sums.2) else (sums.1, sums.2 - change)

/-- One turn of the smoothing of the relative strength index. -/
def rsiTurn (closes : List F) (p : ℕ) (s : RsiLoop F) (i : ℕ) : Option (RsiLoop F) := do
  let change ← change closes i
  return s.smooth p i (if 0 < change then change else 0) (if change < 0 then -change else 0)

def computeRsi (closes : List F) (period : Int32) : Option (List (Number F)) := do
  let n := closes.length
  let p := period.toInt
  let least ← plus p 1
  if wrap32 n < least then return List.replicate n nan
  let sums ← checkedLoop 1 p.toNat (addChange closes) (0, 0)
  let s ← checkedLoop (p.toNat + 1) (n - (p.toNat + 1)) (rsiTurn closes p.toNat)
    (.start n p.toNat (sums.1 / (p : F)) (sums.2 / (p : F)))
  return s.result

end TradingBot

end TradingSim.Bot

namespace TradingSim.Dashboard

open Foundations
open Number (nan real getD_map_real)
open TradingSim.Bot
open TradingSim.Bot.TechnicalAnalysis hiding strength RsiLoop

variable {F : Type} [Field F]

/-! ### The recurrences -/

section Recurrences

variable (x : ℕ → F) (p : ℕ)

/-- The exponential moving average from the mean of the first values on. -/
def emaAt : ℕ → F :=
  recur (p - 1) ((∑ j ∈ Finset.range p, x j) / p)
    fun i ema => x i * (2 / (p + 1)) + ema * (1 - 2 / (p + 1))

/-- The average from the mean of the first changes on. -/
def averageAt : ℕ → F :=
  recur p ((∑ j ∈ Finset.range p, x (j + 1)) / p) fun i average => (average * (p - 1) + x i) / p

/-- The moving average, once there are enough values. -/
def emaEntry : ℕ → Number F := onward (p - 1) (emaAt x p)

variable [LinearOrder F]

/-- The gain between two values. -/
def gain (i : ℕ) : F := max (x i - x (i - 1)) 0

/-- The loss between two values. -/
def loss (i : ℕ) : F := max (-(x i - x (i - 1))) 0

/-- The relative strength, once there are enough changes. -/
def rsiEntry : ℕ → Number F :=
  onward p fun i => TechnicalAnalysis.strength (averageAt (gain x) p i) (averageAt (loss x) p i)

end Recurrences

section Loops

variable {x : ℕ → F} {p n i : ℕ} {values : List F}

theorem getElem?_eq_getD (hi : i < values.length) : values[i]? = some (values.getD i 0) := by
  rw [List.getD_eq_getElem _ _ hi, List.getElem?_eq_getElem hi]

theorem forLoop_ema {body : ℕ → List (Number F) → List (Number F)} (hp : 0 < p) (hn : p ≤ n)
    (hbody : ∀ i result, p ≤ i → i < n → body i result =
      result.set i (real (x i * (2 / (p + 1))) + result.getD (i - 1) nan * real (1 - 2 / ((p : F) + 1)))) :
    forLoop p n body ((List.replicate n nan).set (p - 1) (real ((∑ j ∈ Finset.range p, x j) / p))) =
      series n (emaEntry x p) := by
  have hloop : forLoop (p - 1 + 1) n body _ = series n (emaEntry x p) :=
    forLoop_recur (show p - 1 < n by omega) fun i result hi hlt v hv => by
      rw [hbody i result (by omega) hlt, hv, Number.real_mul_real, Number.real_add_real]
  rwa [Nat.sub_add_cancel hp] at hloop

/-- The averages of all but the shortest series, and no averages of these. -/
theorem replicate_eq_ema (hn : n < p) : List.replicate n nan = series n (emaEntry x p) :=
  replicate_eq_series_of_blank fun j hj => onward_of_lt (by omega)

theorem emaPure_eq (hp : 0 < p) (values : List F) :
    emaPure values p = series values.length (emaEntry (values.getD · 0) p) := by
  rw [emaPure]
  dsimp only
  split_ifs with hn
  · exact replicate_eq_ema hn
  · rw [sum_take (Nat.not_lt.mp hn)]
    exact forLoop_ema hp (Nat.not_lt.mp hn) fun i result _ _ => rfl

theorem emaNumpy_eq (hp : 0 < p) (values : List F) :
    emaNumpy values p = series values.length (emaEntry (values.getD · 0) p) := by
  rw [← emaPure_eq hp, emaNumpy, emaPure]
  dsimp only
  split_ifs with hn
  · rfl
  · rw [mean, List.length_take_of_le (Nat.not_lt.mp hn)]

theorem calcEMA_eq [LinearOrder F] [IsStrictOrderedRing F] (hp : 0 < p) (values : List F) :
    calcEMA (values.map real) p = series values.length (emaEntry (values.getD · 0) p) := by
  rw [calcEMA]
  dsimp only
  rw [List.length_map]
  split_ifs with hn
  · exact replicate_eq_ema hn
  · have hread : ∀ i < values.length, (values.map real).getD i nan = real (values.getD i 0) :=
      fun i hi => getD_map_real hi
    rw [Number.forLoop_add_real 0 (fun i _ hi => hread i (by omega)) p.zero_le, zero_add, ← Finset.range_eq_Ico,
      Number.real_div_real _ (Nat.cast_ne_zero.mpr hp.ne')]
    refine forLoop_ema hp (Nat.not_lt.mp hn) fun i result _ hi => ?_
    rw [hread i hi, Number.real_mul_real]

theorem emaTurn_spec (hp : 0 < p) (hi : p ≤ i) (hlt : i < values.length) {s : F × List (Number F)}
    (hs : s.1 = emaAt (values.getD · 0) p (i - 1) ∧
      Filled values.length (emaEntry (values.getD · 0) p) (fun _ => nan) i s.2) :
    ∃ s', emaTurn values (2 / (p + 1)) s i = some s' ∧ s'.1 = emaAt (values.getD · 0) p i ∧
      Filled values.length (emaEntry (values.getD · 0) p) (fun _ => nan) (i + 1) s'.2 := by
  rw [emaTurn, getElem?_eq_getD hlt, hs.1]
  refine ⟨_, rfl, ?_, hs.2.turn (by omega)⟩
  obtain ⟨i, rfl⟩ : ∃ j, i = j + 1 := ⟨i - 1, by omega⟩
  rw [emaAt, recur_succ (by omega)]
  rfl

/-- The trading bot has the same averages if the number of prices, as an integer, is not less than the
period. -/
theorem computeEma_eq {period : Int32} (hperiod : period.toInt = p) (hp : 0 < p)
    (hlarge : (p : ℤ) + 1 < 2 ^ 31) :
    computeEma values period = some (if wrap32 values.length < p then List.replicate values.length nan
      else series values.length (emaEntry (values.getD · 0) p)) := by
  have hsize := wrap32_le (Int.natCast_nonneg values.length)
  have hmult : plus p 1 = some ((p : ℤ) + 1) := if_pos ⟨by omega, hlarge⟩
  rw [computeEma, hperiod, Int.toNat_natCast]
  dsimp only
  split_ifs with hn
  · rfl
  have hlong : p ≤ values.length := by omega
  obtain ⟨_, hsum, rfl⟩ := checkedLoop_spec (n := p) (k := 0) (s := (0 : F))
    (f := fun ema i => do return ema + (← values[i]?))
    (fun i sum => sum = ∑ j ∈ Finset.range i, values.getD j 0) rfl fun i sum _ hi hinv => by
      rw [getElem?_eq_getD (by omega)]
      exact ⟨_, rfl, hinv ▸ (Finset.sum_range_succ _ i).symm⟩
  obtain ⟨s, hloop, -, hfilled⟩ := checkedLoop_spec (n := values.length - p)
    (f := emaTurn values (2 / (p + 1)))
    (s := ((∑ j ∈ Finset.range p, values.getD j 0) / p, (List.replicate values.length nan).set (p - 1)
      (real ((∑ j ∈ Finset.range p, values.getD j 0) / p))))
    (fun i (s : F × List (Number F)) => s.1 = emaAt (values.getD · 0) p (i - 1) ∧
      Filled values.length (emaEntry (values.getD · 0) p) (fun _ => nan) i s.2)
    ⟨recur_self.symm, by
      have hseed := filled_seed values.length (p - 1) ((∑ j ∈ Finset.range p, values.getD j 0) / p)
        fun i ema => values.getD i 0 * (2 / (p + 1)) + ema * (1 - 2 / (p + 1))
      rwa [Nat.sub_add_cancel hp] at hseed⟩
    fun i s hi hlt hs => emaTurn_spec hp hi (by omega) hs
  rw [Nat.add_sub_cancel' hlong] at hfilled
  rw [hmult]
  simp only [Option.bind_eq_bind, Option.bind_some, zero_add] at hsum ⊢
  rw [hsum]
  simp only [Option.bind_some, Int.cast_natCast, Int.cast_add, Int.cast_one]
  rw [hloop]
  exact congrArg some hfilled.eq_series

end Loops

section Strength

variable [LinearOrder F] {x : ℕ → F} {p n i : ℕ} {values : List F}

/-- A loop of the relative strength has the averages up to a bar and the entries up to it. -/
structure Follows (x : ℕ → F) (p n i : ℕ) (s : TechnicalAnalysis.RsiLoop F) : Prop where
  avgGain : s.avgGain = averageAt (gain x) p (i - 1)
  avgLoss : s.avgLoss = averageAt (loss x) p (i - 1)
  result : Filled n (rsiEntry x p) (fun _ => nan) i s.result

theorem follows_start (x : ℕ → F) (p n : ℕ) :
    Follows x p n (p + 1) (.start n p ((∑ j ∈ Finset.range p, gain x (j + 1)) / p)
      ((∑ j ∈ Finset.range p, loss x (j + 1)) / p)) where
  avgGain := recur_self.symm
  avgLoss := recur_self.symm
  result := by
    have hset := (filled_replicate n fun j hj => onward_of_lt hj :
      Filled n (rsiEntry x p) (fun _ => nan) p (List.replicate n nan)).set
    rwa [rsiEntry, onward_of_le le_rfl, averageAt, averageAt, recur_self, recur_self] at hset

theorem Follows.smooth {s : TechnicalAnalysis.RsiLoop F} (h : Follows x p n i s) (hi : p + 1 ≤ i) :
    Follows x p n (i + 1) (s.smooth p i (gain x i) (loss x i)) := by
  obtain ⟨i, rfl⟩ : ∃ j, i = j + 1 := ⟨i - 1, by omega⟩
  have haverage (y : ℕ → F) : averageAt y p (i + 1) = (averageAt y p i * (p - 1) + y (i + 1)) / p :=
    recur_succ (by omega)
  have hgain := h.avgGain
  have hloss := h.avgLoss
  rw [Nat.add_sub_cancel] at hgain hloss
  constructor
  · rw [Nat.add_sub_cancel, haverage, ← hgain]
    rfl
  · rw [Nat.add_sub_cancel, haverage, ← hloss]
    rfl
  · have hset := h.result.set
    rw [rsiEntry, onward_of_le (by omega), haverage, haverage, ← hgain, ← hloss] at hset
    exact hset

theorem forLoop_rsi {body : ℕ → TechnicalAnalysis.RsiLoop F → TechnicalAnalysis.RsiLoop F}
    {s : TechnicalAnalysis.RsiLoop F} (hn : p + 1 ≤ n) (hs : Follows x p n (p + 1) s)
    (hbody : ∀ i s, p + 1 ≤ i → i < n → body i s = s.smooth p i (gain x i) (loss x i)) :
    (forLoop (p + 1) n body s).result = series n (rsiEntry x p) := by
  refine (forLoop_spec (Follows x p n) hn hs fun i s hi hlt h => ?_).result.eq_series
  rw [hbody i s hi hlt]
  exact h.smooth hi

theorem replicate_eq_rsi (hn : n < p + 1) : List.replicate n nan = series n (rsiEntry x p) :=
  replicate_eq_series_of_blank fun j hj => onward_of_lt (by omega)

theorem rsiPure_eq (candles : List (Bar F)) (p : ℕ) :
    rsiPure candles p = series (closes candles).length (rsiEntry ((closes candles).getD · 0) p) := by
  rw [rsiPure]
  dsimp only
  split_ifs with hn
  · exact replicate_eq_rsi hn
  · refine forLoop_rsi (Nat.not_lt.mp hn) ?_ fun i s _ _ => rfl
    rw [sum_series, sum_series]
    exact follows_start _ _ _

theorem gain_nonneg (j : ℕ) : 0 ≤ gain x j := le_max_right _ _

theorem loss_nonneg (j : ℕ) : 0 ≤ loss x j := le_max_right _ _

theorem ite_gain (d : F) : (if 0 < d then d else 0) = max d 0 := by rw [max_comm, max_def_lt]

variable [IsStrictOrderedRing F]

theorem ite_loss (d : F) : (if d < 0 then -d else 0) = max (-d) 0 := by
  rw [← ite_gain]
  exact if_congr neg_pos.symm rfl rfl

theorem rsiNumpy_eq (candles : List (Bar F)) (p : ℕ) :
    rsiNumpy candles p = series (closes candles).length (rsiEntry ((closes candles).getD · 0) p) := by
  have hgains : whereElseZero (0 < ·) id (diff (closes candles)) =
      series ((closes candles).length - 1) fun j => gain ((closes candles).getD · 0) (j + 1) := by
    rw [diff_eq, whereElseZero, map_series]
    exact series_congr fun j _ => ite_gain _
  have hlosses : whereElseZero (· < 0) (- ·) (diff (closes candles)) =
      series ((closes candles).length - 1) fun j => loss ((closes candles).getD · 0) (j + 1) := by
    rw [diff_eq, whereElseZero, map_series]
    exact series_congr fun j _ => ite_loss _
  rw [rsiNumpy]
  dsimp only
  rw [hgains, hlosses]
  split_ifs with hn
  · exact replicate_eq_rsi hn
  · refine forLoop_rsi (Nat.not_lt.mp hn) ?_ fun i s hi hlt => ?_
    · rw [mean, mean, take_series (by omega), take_series (by omega), sum_series, sum_series, length_series,
        length_series]
      exact follows_start _ _ _
    · rw [getD_series (by omega), getD_series (by omega), Nat.sub_add_cancel (by omega)]

/-- The state of the loop of the charts. -/
def lift (s : TechnicalAnalysis.RsiLoop F) : RsiState F := ⟨real s.avgGain, real s.avgLoss, s.result⟩

theorem averageAt_nonneg {y : ℕ → F} (hp : 0 < p) (hy : ∀ j, 0 ≤ y j) (hi : p ≤ i) : 0 ≤ averageAt y p i := by
  have hpos : (1 : F) ≤ p := Nat.one_le_cast.mpr hp
  refine recur_invariant (fun _ a => 0 ≤ a) ?_ (fun j a _ ha => ?_) hi
  · exact div_nonneg (Finset.sum_nonneg fun j _ => hy _) (Nat.cast_nonneg p)
  · exact div_nonneg (add_nonneg (mul_nonneg ha (sub_nonneg.mpr hpos)) (hy _)) (Nat.cast_nonneg p)

/-- The strength of averages that are not negative is from 0 to 100, and the charts compute the same. -/
theorem rsiOf_eq {a l : F} (ha : 0 ≤ a) (hl : 0 ≤ l) : rsiOf (real a) (real l) =
      real (TechnicalAnalysis.strength a l) ∧
    0 ≤ TechnicalAnalysis.strength a l ∧ TechnicalAnalysis.strength a l ≤ 100 := by
  unfold rsiOf TechnicalAnalysis.strength
  by_cases hzero : l = 0
  · subst hzero
    simp
  · have hratio : 0 ≤ a / l := div_nonneg ha hl
    have hsum : 1 ≤ 1 + a / l := le_add_of_nonneg_right hratio
    rw [if_neg fun h => hzero (Number.real.inj h), if_neg hzero, Number.real_div_real _ hzero,
      Number.real_add_real, Number.real_div_real _ (zero_lt_one.trans_le hsum).ne']
    refine ⟨rfl, sub_nonneg.mpr (div_le_self (by norm_num) hsum), sub_le_self _ ?_⟩
    exact div_nonneg (by norm_num) (zero_le_one.trans hsum)

theorem addChange_real (d : F) (g l : F) :
    addChange (real d) (real g, real l) = (real (g + max d 0), real (l + max (-d) 0)) := by
  unfold addChange
  rw [Number.le_real]
  by_cases hd : 0 ≤ d
  · rw [if_pos (by simpa using hd), max_eq_left hd, max_eq_right (neg_nonpos.mpr hd), add_zero]
    rfl
  · have hneg := not_le.mp hd
    rw [if_neg (by simpa using hneg), max_eq_right hneg.le, max_eq_left (neg_nonneg.mpr hneg.le), add_zero,
      Number.abs_real, abs_of_neg hneg]
    rfl

/-- A turn of the charts is one of the signal bot. -/
theorem lift_smooth (hp : 0 < p) {s : TechnicalAnalysis.RsiLoop F} (h : Follows x p n i s) (hi : p + 1 ≤ i) :
    (lift s).smooth p i (real (x i - x (i - 1))) = lift (s.smooth p i (gain x i) (loss x i)) := by
  have hnext := h.smooth hi
  have hperiod : (p : F) ≠ 0 := Nat.cast_ne_zero.mpr hp.ne'
  have hgain : (if Number.le (real 0) (real (x i - x (i - 1))) then real (x i - x (i - 1)) else real 0) =
      real (gain x i) := by
    rw [Number.le_real, gain, max_comm, max_def]
    by_cases hd : 0 ≤ x i - x (i - 1) <;> simp [hd]
  have hloss : (if Number.lt (real (x i - x (i - 1))) (real 0) then Number.abs (real (x i - x (i - 1)))
      else real 0) = real (loss x i) := by
    rw [Number.lt_real, loss, ← ite_loss]
    by_cases hd : x i - x (i - 1) < 0
    · simp only [hd, decide_true, if_true, Number.abs_real, abs_of_neg hd]
    · simp only [hd, decide_false, if_false, Bool.false_eq_true]
  have hvalue : rsiOf (real ((s.avgGain * (p - 1) + gain x i) / p)) (real ((s.avgLoss * (p - 1) + loss x i) / p)) =
      _ := (rsiOf_eq ((averageAt_nonneg hp gain_nonneg (by omega)).trans_eq hnext.avgGain.symm)
    ((averageAt_nonneg hp loss_nonneg (by omega)).trans_eq hnext.avgLoss.symm)).1
  unfold RsiState.smooth lift
  simp only [hgain, hloss, Number.real_mul_real, Number.real_add_real, Number.real_div_real _ hperiod, hvalue]
  rfl

theorem calcRSI_eq (hp : 0 < p) (values : List F) :
    calcRSI (values.map real) p = series values.length (rsiEntry (values.getD · 0) p) := by
  have hperiod : (p : F) ≠ 0 := Nat.cast_ne_zero.mpr hp.ne'
  have hread : ∀ i < values.length,
      changeAt (values.map real) i = real (values.getD i 0 - values.getD (i - 1) 0) := fun i hi => by
    rw [changeAt, getD_map_real hi, getD_map_real (by omega), Number.real_sub_real]
  rw [calcRSI]
  dsimp only
  rw [List.length_map]
  split_ifs with hn
  · exact replicate_eq_rsi hn
  have hsums := forLoop_spec (s := ((real 0 : Number F), (real 0 : Number F)))
    (f := fun i => addChange (changeAt (values.map real) i))
    (fun i s => s = (real (∑ j ∈ Finset.range (i - 1), gain (values.getD · 0) (j + 1)),
      real (∑ j ∈ Finset.range (i - 1), loss (values.getD · 0) (j + 1)))) (show 1 ≤ p + 1 by omega) rfl
    fun i s hi hlt hs => by
      obtain ⟨i, rfl⟩ : ∃ j, i = j + 1 := ⟨i - 1, by omega⟩
      rw [hs, hread _ (by omega), addChange_real]
      simp only [Nat.add_sub_cancel, Finset.sum_range_succ]
      rfl
  rw [hsums, Nat.add_sub_cancel]
  dsimp only
  rw [Number.real_div_real _ hperiod, Number.real_div_real _ hperiod]
  have hstart := follows_start (values.getD · 0) p values.length
  have hvalue := (rsiOf_eq ((averageAt_nonneg hp gain_nonneg le_rfl).trans_eq hstart.avgGain.symm)
    ((averageAt_nonneg hp loss_nonneg le_rfl).trans_eq hstart.avgLoss.symm)).1
  dsimp only [TechnicalAnalysis.RsiLoop.start] at hvalue
  rw [hvalue]
  obtain ⟨s, hs, hfollows⟩ := forLoop_spec (f := fun i => RsiState.smooth p i (changeAt (values.map real) i))
    (fun i t => ∃ s, t = lift s ∧ Follows (values.getD · 0) p values.length i s) (Nat.not_lt.mp hn)
    ⟨_, rfl, hstart⟩ fun i t hi hlt ⟨s, hs, h⟩ => by
      refine ⟨_, ?_, h.smooth hi⟩
      rw [hs, hread i hlt]
      exact lift_smooth hp h hi
  exact (congrArg RsiState.rsi hs).trans hfollows.result.eq_series

theorem addChange_eq (d g l : F) :
    (if 0 < d then (g + d, l) else (g, l - d)) = (g + max d 0, l + max (-d) 0) := by
  split_ifs with hd
  · rw [max_eq_left hd.le, max_eq_right (neg_nonpos.mpr hd.le), add_zero]
  · have hneg := not_lt.mp hd
    rw [max_eq_right hneg, max_eq_left (neg_nonneg.mpr hneg), add_zero, sub_eq_add_neg]

/-- The trading bot has the same strengths if the number of closes, as an integer, is greater than the
period. -/
theorem computeRsi_eq {period : Int32} (hperiod : period.toInt = p) (hp : 0 < p)
    (hlarge : (p : ℤ) + 1 < 2 ^ 31) :
    computeRsi values period = some (if wrap32 values.length < p + 1 then List.replicate values.length nan
      else series values.length (rsiEntry (values.getD · 0) p)) := by
  have hsize := wrap32_le (Int.natCast_nonneg values.length)
  have hnext : plus p 1 = some ((p : ℤ) + 1) := if_pos ⟨by omega, hlarge⟩
  have hchange : ∀ i < values.length, Bot.change values i = some (values.getD i 0 - values.getD (i - 1) 0) :=
    fun i hi => by
      rw [Bot.change, getElem?_eq_getD hi, getElem?_eq_getD (by omega)]
      rfl
  rw [computeRsi, hperiod, Int.toNat_natCast, hnext, Option.bind_eq_bind, Option.bind_some]
  split_ifs with hn
  · rfl
  obtain ⟨_, hsums, rfl⟩ := checkedLoop_spec (n := p) (k := 1) (s := ((0 : F), (0 : F)))
    (f := Bot.addChange values)
    (fun i s => s = (∑ j ∈ Finset.range (i - 1), gain (values.getD · 0) (j + 1),
      ∑ j ∈ Finset.range (i - 1), loss (values.getD · 0) (j + 1))) rfl fun i s hi hlt hs => by
      obtain ⟨i, rfl⟩ : ∃ j, i = j + 1 := ⟨i - 1, by omega⟩
      rw [hs, Bot.addChange, hchange _ (by omega)]
      refine ⟨_, rfl, ?_⟩
      simp only [Nat.add_sub_cancel, Finset.sum_range_succ]
      exact addChange_eq _ _ _
  obtain ⟨s, hloop, hfollows⟩ := checkedLoop_spec (k := p + 1) (n := values.length - (p + 1))
    (f := Bot.rsiTurn values p) (Follows (values.getD · 0) p values.length) (follows_start _ _ _)
    fun i s hi hlt hs => by
      refine ⟨_, ?_, hs.smooth hi⟩
      rw [Bot.rsiTurn, hchange i (by omega), gain, loss, ← ite_gain, ← ite_loss]
      rfl
  rw [Nat.add_sub_cancel' (by omega)] at hfollows
  simp only [Nat.add_sub_cancel_left] at hsums
  rw [hsums]
  simp only [Option.bind_eq_bind, Option.bind_some, Int.cast_natCast]
  rw [hloop]
  exact congrArg some hfollows.result.eq_series

/-- The strength of prices is from 0 to 100. -/
theorem rsi_bounds (hp : 0 < p) {v : F} (hv : real v ∈ series n (rsiEntry x p)) : 0 ≤ v ∧ v ≤ 100 := by
  obtain ⟨i, -, heq⟩ := mem_series.mp hv
  obtain ⟨hi, rfl⟩ := onward_eq_real_iff.mp heq
  exact (rsiOf_eq (averageAt_nonneg hp gain_nonneg hi) (averageAt_nonneg hp loss_nonneg hi)).2

end Strength

section Agreement

variable [LinearOrder F] [IsStrictOrderedRing F]

/-- All averages are the same, all strengths are the same, and these are from 0 to 100. -/
def IndicatorsAgree (candles : List (Bar F)) (period : Int32) : Prop :=
  let prices := closes candles
  let p := period.toInt.toNat
  computeEma prices period = some (emaNumpy prices p) ∧ emaPure prices p = emaNumpy prices p ∧
    calcEMA (prices.map real) p = emaNumpy prices p ∧
    computeRsi prices period = some (rsiNumpy candles p) ∧ rsiPure candles p = rsiNumpy candles p ∧
    calcRSI (prices.map real) p = rsiNumpy candles p ∧
    (rsiNumpy candles p).length = prices.length ∧ (emaNumpy prices p).length = prices.length ∧
    ∀ v, real v ∈ rsiNumpy candles p → 0 ≤ v ∧ v ≤ 100

/-- The indicators agree exactly if the integers of the trading bot hold: one can be added to the period, and
a number of prices beyond the period is beyond it as an integer of 32 bits. -/
theorem indicatorsAgree_iff (candles : List (Bar F)) {period : Int32} (hperiod : 1 ≤ period.toInt) :
    IndicatorsAgree candles period ↔
      period.toInt + 1 < 2 ^ 31 ∧
        ((closes candles).length ≤ period.toInt ∨ period.toInt < wrap32 (closes candles).length) := by
  obtain ⟨p, hp⟩ : ∃ p : ℕ, period.toInt = p := ⟨_, (Int.toNat_of_nonneg (by omega)).symm⟩
  rw [hp] at hperiod
  have hpos : 0 < p := by omega
  rw [IndicatorsAgree, hp, Int.toNat_natCast, emaNumpy_eq hpos, emaPure_eq hpos, calcEMA_eq hpos, rsiNumpy_eq, rsiPure_eq, calcRSI_eq hpos, length_series,
    length_series]
  generalize closes candles = prices
  have hsize := wrap32_le (Int.natCast_nonneg prices.length)
  by_cases hlarge : (p : ℤ) + 1 < 2 ^ 31
  · rw [computeEma_eq hp hpos hlarge, computeRsi_eq hp hpos hlarge, Option.some_inj, Option.some_inj,
      and_iff_right hlarge]
    constructor
    · rintro ⟨-, -, -, hrsi, -⟩
      by_contra hcontra
      have hread := congrArg (List.getD · p nan) hrsi
      rw [if_pos (by omega), replicate_eq_series, getD_series (by omega), getD_series (by omega), rsiEntry,
        onward_of_le le_rfl] at hread
      exact nomatch hread
    · intro hcond
      refine ⟨?_, rfl, rfl, ?_, rfl, rfl, rfl, rfl, fun v hv => rsi_bounds hpos hv⟩
      · split_ifs with hshort
        · refine replicate_eq_ema ?_
          by_contra hge
          have heq : prices.length = p := by omega
          rw [heq, wrap32_of_lt (by omega) (by omega)] at hshort
          exact lt_irrefl _ hshort
        · rfl
      · split_ifs with hshort
        · exact replicate_eq_rsi (by omega)
        · rfl
  · refine iff_of_false (fun h => ?_) fun h => hlarge h.1
    have hnone : plus period.toInt 1 = none := if_neg fun h => hlarge (hp ▸ h.2)
    have hrsi := h.2.2.2.1
    rw [computeRsi, hnone] at hrsi
    exact nomatch hrsi

/-- Three prices of a period of two bars. -/
theorem indicatorsAgree_threePrices :
    IndicatorsAgree ([⟨11, 9, 10, 1⟩, ⟨12, 10, 11, 1⟩, ⟨11, 9, 10, 1⟩] : List (Bar ℚ)) 2 :=
  (indicatorsAgree_iff _ (by decide)).mpr (by decide)

/-- The number of 2 ^ 31 prices is negative as an integer of 32 bits: the trading bot then has no averages. -/
theorem not_indicatorsAgree_manyPrices :
    ¬ IndicatorsAgree (List.replicate (2 ^ 31) ⟨11, 9, 10, 1⟩ : List (Bar ℚ)) 1 := by
  intro h
  have hone : (Int32.toInt 1).toNat = 1 := by decide
  have hema := h.1
  have hprices : (closes (List.replicate (2 ^ 31) ⟨11, 9, 10, 1⟩ : List (Bar ℚ))).length = 2 ^ 31 := by
    rw [closes, List.length_map, List.length_replicate]
  rw [hone, computeEma_eq (p := 1) (by decide) one_pos (by decide), emaNumpy_eq one_pos, hprices,
    if_pos (by decide), Option.some_inj] at hema
  have hread := congrArg (List.getD · 0 nan) hema
  rw [replicate_eq_series, getD_series (by decide), getD_series (by decide), emaEntry,
    onward_of_le (by decide)] at hread
  cases hread

end Agreement

end TradingSim.Dashboard
