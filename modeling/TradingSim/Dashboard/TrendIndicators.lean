import Mathlib.Tactic.Linarith
import TradingSim.Bot.DirectionalIndex
import TradingSim.Dashboard.Indicators

/-!
# True range and directional index of the charts and the signal bot

The charts start the average of the true ranges one bar before the signal bot, with the range of the first
bar, and the average of the directional index at twice the period, where the signal bot starts it with the
first bars that have an index. From then on both follow the same recurrence, and the difference that the seeds
leave shrinks by the same factor at each bar.
-/

namespace TradingSim.Dashboard

open Foundations
open Number (nan real getD_map_real)
open TradingSim.Bot
open TradingSim.Bot.TechnicalAnalysis

variable {F : Type*} [Field F]

/-- Where both series are defined, their difference shrinks by the same factor at each bar. -/
def Converge (p : ℕ) (xs ys : List (Number F)) : Prop :=
  ∀ i j, i ≤ j → j < xs.length → xs.getD i nan ≠ nan → ys.getD i nan ≠ nan →
    xs.getD j nan - ys.getD j nan = real (((p - 1 : F) / p) ^ (j - i)) * (xs.getD i nan - ys.getD i nan)

theorem converge_onward {x y : ℕ → F} {p d e n : ℕ} (hsame : ∀ k, d + p - 1 < k → e + p - 1 < k → x k = y k) :
    Converge p (series n (onward (d + p - 1) (averageIndex x p d)))
      (series n (onward (e + p - 1) (averageIndex y p e))) := by
  intro i j hij hj hx hy
  rw [length_series] at hj
  rw [getD_series (hij.trans_lt hj), onward_ne_nan_iff] at hx hy
  rw [getD_series hj, getD_series hj, getD_series (hij.trans_lt hj), getD_series (hij.trans_lt hj),
    onward_of_le hx, onward_of_le hy, onward_of_le (hx.trans hij), onward_of_le (hy.trans hij),
    Number.real_sub_real, Number.real_sub_real, Number.real_mul_real,
    averageIndex_sub hx hy (fun k hk => hsame k (hx.trans_lt hk) (hy.trans_lt hk)) hij]

/-! ### The charts -/

variable [LinearOrder F]

/-- The lines of the directional index. -/
structure Directional (F : Type*) where
  adx : List (Number F)
  pdi : List (Number F)
  mdi : List (Number F)

/-- The averages of the ranges and the movements, and the lines that a loop fills. -/
structure AdxState (F : Type*) where
  atr : Number F
  aPlusDM : Number F
  aMinusDM : Number F
  lines : Directional F

/-- The move in one direction, where it is the greater one. -/
def moveOf (move other : Number F) : Number F :=
  if Number.lt other move && Number.lt (real 0) move then move else real 0

/-- The index of two lines. -/
def dxOf (pdi mdi : Number F) : Number F :=
  if Number.lt (real 0) (pdi + mdi) then Number.abs (pdi - mdi) / (pdi + mdi) * real 100 else real 0

/-- One turn of the smoothing. -/
def AdxState.turn (period : ℕ) (l : Movements (Number F)) (i : ℕ) (s : AdxState F) : AdxState F :=
  let p : F := period
  let atr := (s.atr * real (p - 1) + l.tr.getD i nan) / real p
  let aPlusDM := (s.aPlusDM * real (p - 1) + l.plusDm.getD i nan) / real p
  let aMinusDM := (s.aMinusDM * real (p - 1) + l.minusDm.getD i nan) / real p
  let pdi := s.lines.pdi.set i (if Number.lt (real 0) atr then aPlusDM / atr * real 100 else real 0)
  let mdi := s.lines.mdi.set i (if Number.lt (real 0) atr then aMinusDM / atr * real 100 else real 0)
  let dx := dxOf (pdi.getD i nan) (mdi.getD i nan)
  let adx := s.lines.adx
  { atr := atr
    aPlusDM := aPlusDM
    aMinusDM := aMinusDM
    lines :=
      { adx :=
          if i = period * 2 then
            adx.set i (forLoop (period + 1) (period * 2 + 1)
              (fun j dxSum => dxSum + dxOf (pdi.getD j nan) (mdi.getD j nan)) (real 0) / real p)
          else if period * 2 < i then adx.set i ((adx.getD (i - 1) nan * real (p - 1) + dx) / real p)
          else adx
        pdi := pdi
        mdi := mdi } }

/-- The directional index with its lines. -/
def calcADX (highs lows closes : List (Number F)) (period : ℕ) : Directional F :=
  let n := closes.length
  let blank : Directional F := ⟨List.replicate n nan, List.replicate n nan, List.replicate n nan⟩
  if n < period * 2 then blank
  else
    let l := forLoop 1 n
      (fun i (l : Movements (Number F)) =>
        let upMove := highs.getD i nan - highs.getD (i - 1) nan
        let downMove := lows.getD (i - 1) nan - lows.getD i nan
        { plusDm := l.plusDm.set i (moveOf upMove downMove)
          minusDm := l.minusDm.set i (moveOf downMove upMove)
          tr := l.tr.set i (rangeAt highs lows closes i) })
      ⟨List.replicate n (real 0), List.replicate n (real 0), List.replicate n (real 0)⟩
    let s := forLoop 1 (period + 1)
      (fun i (s : AdxState F) =>
        { s with
          atr := s.atr + l.tr.getD i nan
          aPlusDM := s.aPlusDM + l.plusDm.getD i nan
          aMinusDM := s.aMinusDM + l.minusDm.getD i nan })
      ⟨real 0, real 0, real 0, blank⟩
    (forLoop (period + 1) n (AdxState.turn period l)
      { s with
        atr := s.atr / real (period : F)
        aPlusDM := s.aPlusDM / real (period : F)
        aMinusDM := s.aMinusDM / real (period : F) }).lines

/-! ### True range -/

section TrueRange

variable {h low cl : List F} {p n i : ℕ}

theorem rangeAt_real (hlow : low.length = h.length) (hcl : cl.length = h.length) (hi : i < h.length) :
    rangeAt (h.map real) (low.map real) (cl.map real) i = real (trueRangeAt h low cl i) := by
  rw [rangeAt, getD_map_real hi, getD_map_real (by omega), getD_map_real (by omega)]
  rfl

/-- Both paths of the signal bot return the same average. -/
theorem atrNumpy_eq_atrPure (candles : List (Bar F)) (p : ℕ) : atrNumpy candles p = atrPure candles p := by
  rw [atrNumpy, atrPure]
  dsimp only
  split_ifs with hn
  · rfl
  have hlength : (highs candles).length = candles.length := List.length_map _
  have hranges : nan :: (trueRanges (highs candles) (lows candles) (closes candles)).map real =
      series candles.length (onward 1 (trueRangeAt (highs candles) (lows candles) (closes candles))) := by
    obtain ⟨k, hk⟩ : ∃ k, candles.length = k + 1 := ⟨candles.length - 1, by omega⟩
    rw [trueRanges_eq (by simp [lows, highs]) (by simp [closes, highs]), hlength, hk, series_succ, map_series,
      onward_of_lt one_pos]
    exact congrArg _ (series_congr fun j _ => (onward_of_le (by omega)).symm)
  rw [hranges, forLoop_fill _ (by omega)]

variable [IsStrictOrderedRing F]

/-- The average of the signal bot, over lists. -/
theorem atrPure_eq (candles : List (Bar F)) (hp : 0 < p) : atrPure candles p = series candles.length
    (onward (1 + p - 1)
      (averageIndex (trueRangeAt (highs candles) (lows candles) (closes candles)) p 1)) := by
  have hperiod : (p : F) ≠ 0 := Nat.cast_ne_zero.mpr hp.ne'
  rw [atrPure]
  dsimp only
  split_ifs with hn
  · exact replicate_eq_series_of_blank fun j hj => onward_of_lt (by omega)
  generalize trueRangeAt (highs candles) (lows candles) (closes candles) = tr
  have hvalues : ((series candles.length (onward 1 tr)).drop 1).take p =
      (series p fun j => tr (1 + j)).map real := by
    rw [drop_series, take_series (by omega), map_series]
    exact series_congr fun j _ => onward_of_le (by omega)
  rw [forLoop_fill _ (by omega), hvalues, Number.sum_map_real, sum_series, Number.real_div_real _ hperiod, smoothAtr, Nat.add_comm p 1]
  have hloop := forLoop_average (x := tr) (d := 1) (n := candles.length) hp (by omega)
    (f := fun i result => result.set i ((result.getD (i - 1) nan * real ((p : F) - 1) +
      (series candles.length (onward 1 tr)).getD i nan) / real (p : F))) fun i result hi hlt v hv => by
      rw [getD_series hlt, onward_of_le (by omega), hv]
      exact congrArg (result.set i) (Number.real_div_real _ hperiod)
  rwa [Nat.add_sub_cancel_left] at hloop ⊢

/-- The average of the charts, which takes the first bar for its own range. -/
theorem calcATR_eq (hp : 2 ≤ p) (hlow : low.length = h.length) (hcl : cl.length = h.length) :
    calcATR (h.map real) (low.map real) (cl.map real) p = series h.length (onward (0 + p - 1)
      (averageIndex (Function.update (trueRangeAt h low cl) 0 (h.getD 0 0 - low.getD 0 0)) p 0)) := by
  have hperiod : (p : F) ≠ 0 := Nat.cast_ne_zero.mpr (by omega)
  rw [calcATR]
  dsimp only
  rw [List.length_map, hcl]
  split_ifs with hshort hn
  · exact replicate_eq_series_of_blank fun j hj => onward_of_lt (by omega)
  · exact replicate_eq_series_of_blank fun j hj => onward_of_lt (by omega)
  generalize htr : Function.update (trueRangeAt h low cl) 0 (h.getD 0 0 - low.getD 0 0) = tr
  have hfirst : tr 0 = h.getD 0 0 - low.getD 0 0 := by rw [← htr, Function.update_self]
  have hlater : ∀ i, 1 ≤ i → tr i = trueRangeAt h low cl i := fun i hi => by
    rw [← htr, Function.update_of_ne (by omega)]
  have hranges : forLoop 1 h.length
      (fun i ranges => ranges.set i (rangeAt (h.map real) (low.map real) (cl.map real) i))
      ((List.replicate h.length (real 0)).set 0 ((h.map real).getD 0 nan - (low.map real).getD 0 nan)) =
        series h.length fun i => real (tr i) := by
    have hblank : Filled h.length (fun i => real (tr i)) (fun _ => real 0) 0 (List.replicate h.length (real 0)) :=
      filled_replicate h.length fun j hj => absurd hj j.not_lt_zero
    refine (forLoop_spec (Filled _ (fun i => real (tr i)) fun _ => real 0) (by omega) (hblank.write ?_)
      fun i ranges hi hlt hfilled => hfilled.write ?_).eq_series
    · rw [getD_map_real (by omega), getD_map_real (by omega), hfirst, Number.real_sub_real]
    · rw [rangeAt_real hlow hcl hlt, hlater i hi]
  have hread : ∀ i < h.length, (series h.length fun i => real (tr i)).getD i nan = real (tr i) :=
    fun i hi => getD_series hi nan
  rw [hranges, Number.forLoop_add_real 0 (fun i _ hi => hread i (by omega)) p.zero_le, zero_add,
    ← Finset.range_eq_Ico, Number.real_div_real _ hperiod]
  have hloop := forLoop_average (x := tr) (p := p) (d := 0) (n := h.length) (by omega) (by omega)
    (f := fun i atr => atr.set i ((atr.getD (i - 1) nan * real ((p : F) - 1) +
      (series h.length fun i => real (tr i)).getD i nan) / real (p : F))) fun i result hi hlt v hv => by
      rw [hread i hlt, hv]
      exact congrArg (result.set i) (Number.real_div_real _ hperiod)
  simp only [zero_add] at hloop ⊢
  exact hloop

end TrueRange

/-! ### Directional index -/

section DirectionalIndex

variable {m : Moves F} {p n i : ℕ}

/-- The line of a movement. -/
def lineAt (m : Moves F) (x : ℕ → F) (p i : ℕ) : F :=
  if 0 < smoothedSum m.tr p i then smoothedSum x p i / smoothedSum m.tr p i * 100 else 0

/-- The lists have the ranges and movements of all bars but the first. -/
structure Lists (m : Moves F) (n : ℕ) (l : Movements (Number F)) : Prop where
  tr : ∀ i, 1 ≤ i → i < n → l.tr.getD i nan = real (m.tr i)
  plusDm : ∀ i, 1 ≤ i → i < n → l.plusDm.getD i nan = real (m.plusDm i)
  minusDm : ∀ i, 1 ≤ i → i < n → l.minusDm.getD i nan = real (m.minusDm i)

/-- What the loop of the charts has at a bar. -/
structure TracksMoves (m : Moves F) (p n i : ℕ) (s : AdxState F) : Prop where
  atr : s.atr = real (smoothedSum m.tr p (i - 1) / p)
  aPlusDM : s.aPlusDM = real (smoothedSum m.plusDm p (i - 1) / p)
  aMinusDM : s.aMinusDM = real (smoothedSum m.minusDm p (i - 1) / p)
  pdi : Filled n (onward (p + 1) (lineAt m m.plusDm p)) (fun _ => nan) i s.lines.pdi
  mdi : Filled n (onward (p + 1) (lineAt m m.minusDm p)) (fun _ => nan) i s.lines.mdi
  adx : Filled n (onward (p + 1 + p - 1) (averageIndex (fun j => (m.dx p j).value) p (p + 1)))
    (fun _ => nan) i s.lines.adx

theorem moveOf_real (move other : F) : moveOf (real move) (real other) = real (movement move other) := by
  unfold moveOf movement
  split_ifs with h h' h'
  · rfl
  · exact absurd (by simpa using h) h'
  · exact absurd (by simpa using h') h
  · rfl

variable [IsStrictOrderedRing F]

/-- The index of the charts is that of the signal bot, or zero where that one is undefined. -/
theorem dxOf_lineAt (hi : p ≤ i) :
    dxOf (real (lineAt m m.plusDm p i)) (real (lineAt m m.minusDm p i)) = real (m.dx p i).value := by
  unfold dxOf lineAt Moves.dx
  generalize smoothedSum m.plusDm p i = u
  generalize smoothedSum m.minusDm p i = d
  by_cases hrange : 0 < smoothedSum m.tr p i
  · generalize smoothedSum m.tr p i = t at hrange
    have hscale : 0 < 100 / t := div_pos (by norm_num) hrange
    have hsum : u / t * 100 + d / t * 100 = 100 / t * (u + d) := by ring
    have hdiff : u / t * 100 - d / t * 100 = 100 / t * (u - d) := by ring
    simp only [hrange, if_true, Number.real_add_real, Number.real_sub_real, Number.abs_real, Number.lt_real,
      hsum, hdiff, mul_pos_iff_of_pos_left hscale, decide_eq_true_eq, hi, true_and, abs_mul,
      abs_of_pos hscale]
    split_ifs with hmoved
    · rw [Number.real_div_real _ (mul_pos hscale hmoved).ne', Number.real_mul_real,
        mul_div_mul_left _ _ hscale.ne', div_mul_eq_mul_div, mul_comm]
      rfl
    · rfl
  · simp [hrange, Number.value]

/-- One average of the charts is the sum of the signal bot by the period. -/
theorem average_next (x : ℕ → F) (hp : 0 < p) (hi : p < i) :
    (real (smoothedSum x p (i - 1) / p) * real ((p : F) - 1) + real (x i)) / real (p : F) =
      real (smoothedSum x p i / p) := by
  have hperiod : (p : F) ≠ 0 := Nat.cast_ne_zero.mpr hp.ne'
  obtain ⟨i, rfl⟩ : ∃ j, i = j + 1 := ⟨i - 1, by omega⟩
  rw [Nat.add_sub_cancel, Number.real_mul_real, Number.real_add_real, Number.real_div_real _ hperiod,
    smoothedSum_next (by omega)]
  congr 2
  field_simp

theorem line_next (m : Moves F) (x : ℕ → F) (hp : 0 < p) :
    (if Number.lt (real 0) (real (smoothedSum m.tr p i / p)) then
      real (smoothedSum x p i / p) / real (smoothedSum m.tr p i / p) * real 100 else real 0) =
        real (lineAt m x p i) := by
  have hperiod : (0 : F) < p := Nat.cast_pos.mpr hp
  rw [Number.lt_real, lineAt]
  by_cases hrange : 0 < smoothedSum m.tr p i
  · have hmean : 0 < smoothedSum m.tr p i / p := div_pos hrange hperiod
    rw [if_pos (decide_eq_true hmean), if_pos hrange, Number.real_div_real _ hmean.ne', Number.real_mul_real,
      div_div_div_cancel_right₀ hperiod.ne']
  · have hmean : ¬ 0 < smoothedSum m.tr p i / p := fun h => hrange ((div_pos_iff_of_pos_right hperiod).mp h)
    rw [if_neg (by simpa using hmean), if_neg hrange]

theorem TracksMoves.turn {l : Movements (Number F)} {s : AdxState F} (h : TracksMoves m p n i s) (hl : Lists m n l)
    (hp : 0 < p) (hi : p < i) (hlt : i < n) : TracksMoves m p n (i + 1) (s.turn p l i) := by
  have hperiod : (p : F) ≠ 0 := Nat.cast_ne_zero.mpr hp.ne'
  have hpdi := h.pdi.write (onward_of_le hi)
  have hmdi := h.mdi.write (onward_of_le hi)
  have hdx : ∀ j, p < j → j ≤ i →
      dxOf ((s.lines.pdi.set i (real (lineAt m m.plusDm p i))).getD j nan)
        ((s.lines.mdi.set i (real (lineAt m m.minusDm p i))).getD j nan) = real (m.dx p j).value := by
    intro j hj hle
    rw [hpdi.getD (by omega) (by omega), hmdi.getD (by omega) (by omega), onward_of_le hj, onward_of_le hj,
      dxOf_lineAt hj.le]
  unfold AdxState.turn
  simp only [hl.tr i (by omega) hlt, hl.plusDm i (by omega) hlt, hl.minusDm i (by omega) hlt, h.atr, h.aPlusDM,
    h.aMinusDM, average_next _ hp hi, line_next m _ hp, hdx i hi le_rfl]
  refine ⟨rfl, rfl, rfl, hpdi, hmdi, ?_⟩
  dsimp only
  split_ifs with hfirst hlater
  · -- the mean of the first indices
    rw [Number.forLoop_add_real 0 (fun j hj hle => hdx j hj (by omega)) (by omega), zero_add,
      Finset.sum_Ico_eq_sum_range, Number.real_div_real _ hperiod, show p * 2 + 1 - (p + 1) = p by omega]
    refine h.adx.write ?_
    rw [show i = p + 1 + p - 1 by omega, onward_of_le le_rfl, averageIndex, recur_self]
  · rw [h.adx.last (by omega) hlt.le, Number.real_mul_real, Number.real_add_real, Number.real_div_real _ hperiod]
    exact h.adx.turn (by omega)
  · exact h.adx.skip (onward_of_lt (by omega))

/-- The average of the charts. -/
theorem calcADX_eq {h low cl : List F} (hp : 2 ≤ p) (hlow : low.length = h.length)
    (hcl : cl.length = h.length) :
    (calcADX (h.map real) (low.map real) (cl.map real) p).adx = series h.length (onward (p + 1 + p - 1)
      (averageIndex (fun j => ((Moves.ofPrices h low cl).dx p j).value) p (p + 1))) := by
  have hperiod : (p : F) ≠ 0 := Nat.cast_ne_zero.mpr (by omega)
  rw [calcADX]
  dsimp only
  rw [List.length_map, hcl]
  split_ifs with hshort
  · exact replicate_eq_series_of_blank fun j hj => onward_of_lt (by omega)
  generalize hmoves : Moves.ofPrices h low cl = m
  generalize hl : forLoop 1 h.length _ _ = l
  have hlists : Lists m h.length l := by
    have heq := hl.symm.trans (forLoop_lists
      (m := ⟨fun i => real (m.tr i), fun i => real (m.plusDm i), fun i => real (m.minusDm i)⟩) (real 0)
      (by omega) fun i l hi hlt => by
        rw [rangeAt_real hlow hcl hlt, getD_map_real hlt, getD_map_real (by omega), getD_map_real (by omega),
          getD_map_real (by omega), Number.real_sub_real, Number.real_sub_real, moveOf_real, moveOf_real,
          ← hmoves]
        rfl)
    have hread (x : ℕ → Number F) (i : ℕ) (hi : 1 ≤ i) (hlt : i < h.length) :
        (series h.length (Function.update x 0 (real 0))).getD i nan = x i := by
      rw [getD_series hlt, Function.update_of_ne (by omega)]
    rw [heq]
    exact ⟨hread _, hread _, hread _⟩
  generalize hs : forLoop 1 (p + 1) _ _ = s
  have hsums : s = ⟨real (∑ j ∈ Finset.range p, m.tr (j + 1)), real (∑ j ∈ Finset.range p, m.plusDm (j + 1)),
      real (∑ j ∈ Finset.range p, m.minusDm (j + 1)),
      ⟨List.replicate h.length nan, List.replicate h.length nan, List.replicate h.length nan⟩⟩ := by
    rw [← hs]
    exact forLoop_spec (k := 1) (n := p + 1) (fun i (s : AdxState F) => s =
      ⟨real (∑ j ∈ Finset.range (i - 1), m.tr (j + 1)), real (∑ j ∈ Finset.range (i - 1), m.plusDm (j + 1)),
        real (∑ j ∈ Finset.range (i - 1), m.minusDm (j + 1)),
        ⟨List.replicate h.length nan, List.replicate h.length nan, List.replicate h.length nan⟩⟩)
      (by omega) rfl fun i s hi hlt hs => by
        obtain ⟨i, rfl⟩ : ∃ j, i = j + 1 := ⟨i - 1, by omega⟩
        rw [hs, hlists.tr _ hi (by omega), hlists.plusDm _ hi (by omega), hlists.minusDm _ hi (by omega)]
        simp only [Nat.add_sub_cancel, Finset.sum_range_succ, Number.real_add_real]
  have hblank {start : ℕ} (x : ℕ → F) (hstart : p + 1 ≤ start) :
      Filled h.length (onward start x) (fun _ => nan) (p + 1) (List.replicate h.length nan) :=
    filled_replicate _ fun j hj => onward_of_lt (by omega)
  have hmean (x : ℕ → F) : real (∑ j ∈ Finset.range p, x (j + 1)) / real (p : F) =
      real (smoothedSum x p (p + 1 - 1) / p) := by
    rw [Number.real_div_real _ hperiod, Nat.add_sub_cancel, smoothedSum, recur_self]
  rw [hsums]
  exact (forLoop_spec (TracksMoves m p h.length) (by omega)
    ⟨hmean _, hmean _, hmean _, hblank _ le_rfl, hblank _ le_rfl, hblank _ (by omega)⟩
    fun i s hi hlt htracks => htracks.turn hlists (by omega) hi hlt).adx.eq_series

end DirectionalIndex

/-! ### Candles -/

section Candles

variable {p i j n : ℕ}

/-- A bar with a movement up or down. -/
def MovedAt (candles : List (Bar F)) (j : ℕ) : Prop :=
  0 < (movesOf candles).plusDm j ∨ 0 < (movesOf candles).minusDm j

/-- The true range of the charts. -/
def chartAtr (candles : List (Bar F)) (p : ℕ) : List (Number F) :=
  calcATR ((highs candles).map real) ((lows candles).map real) ((closes candles).map real) p

/-- The directional index of the charts. -/
def chartAdx (candles : List (Bar F)) (p : ℕ) : List (Number F) :=
  (calcADX ((highs candles).map real) ((lows candles).map real) ((closes candles).map real) p).adx

/-- The closes are between the lows and the highs. -/
def Ordered (candles : List (Bar F)) : Prop := ∀ bar ∈ candles, bar.low ≤ bar.close ∧ bar.close ≤ bar.high

instance (candles : List (Bar F)) : Decidable (Ordered candles) :=
  inferInstanceAs (Decidable (∀ bar ∈ candles, bar.low ≤ bar.close ∧ bar.close ≤ bar.high))

theorem Ordered.at {candles : List (Bar F)} (h : Ordered candles) (j : ℕ) :
    (lows candles).getD j 0 ≤ (closes candles).getD j 0 ∧
      (closes candles).getD j 0 ≤ (highs candles).getD j 0 := by
  simp only [lows, closes, highs, List.getD_eq_getElem?_getD, List.getElem?_map]
  cases hbar : candles[j]? with
  | none => exact ⟨le_rfl, le_rfl⟩
  | some bar => exact h bar (List.mem_of_getElem? hbar)

theorem lt_of_movement_pos {move other : F} (h : 0 < movement move other) : 0 < move := by
  unfold movement at h
  split_ifs at h with hmove
  · exact hmove.2
  · exact absurd h (lt_irrefl 0)

variable [IsStrictOrderedRing F]

theorem Ordered.moved {candles : List (Bar F)} (h : Ordered candles) (hmoved : MovedAt candles j) :
    1 ≤ j ∧ 0 < (movesOf candles).tr j := by
  have hprev := h.at (j - 1)
  rcases hmoved with hup | hdown
  · have hmove := lt_of_movement_pos hup
    refine ⟨Nat.one_le_iff_ne_zero.mpr fun hzero => ?_, ?_⟩
    · rw [hzero, sub_self] at hmove
      exact lt_irrefl 0 hmove
    · have hrange : 0 < (highs candles).getD j 0 - (closes candles).getD (j - 1) 0 := by linarith [hprev.2]
      exact hrange.trans_le ((le_abs_self _).trans ((le_max_left _ _).trans (le_max_right _ _)))
  · have hmove := lt_of_movement_pos hdown
    refine ⟨Nat.one_le_iff_ne_zero.mpr fun hzero => ?_, ?_⟩
    · rw [hzero, sub_self] at hmove
      exact lt_irrefl 0 hmove
    · have hrange : 0 < -((lows candles).getD j 0 - (closes candles).getD (j - 1) 0) := by linarith [hprev.1]
      exact hrange.trans_le ((neg_le_abs _).trans ((le_max_right _ _).trans (le_max_right _ _)))

theorem smoothedSum_pos_iff {x : ℕ → F} (hx : ∀ j, 0 ≤ x j) (hp : 2 ≤ p) (hi : p ≤ i) :
    0 < smoothedSum x p i ↔ ∃ j, 1 ≤ j ∧ j ≤ i ∧ 0 < x j := by
  induction i, hi using Nat.le_induction with
  | base =>
    rw [smoothedSum, recur_self, Finset.sum_pos_iff_of_nonneg fun j _ => hx _]
    constructor
    · rintro ⟨j, hj, hpos⟩
      exact ⟨j + 1, by omega, Finset.mem_range.mp hj, hpos⟩
    · rintro ⟨j, hj, hle, hpos⟩
      exact ⟨j - 1, Finset.mem_range.mpr (by omega), by rwa [Nat.sub_add_cancel hj]⟩
  | succ i hi ih =>
    have hnonneg := smoothedSum_nonneg hx (show 0 < p by omega) hi
    constructor
    · intro hpos
      rcases (hx (i + 1)).lt_or_eq with hnew | hzero
      · exact ⟨i + 1, by omega, le_rfl, hnew⟩
      · rcases hnonneg.lt_or_eq with hold | hblank
        · obtain ⟨j, hj, hle, hmoved⟩ := ih.mp hold
          exact ⟨j, hj, by omega, hmoved⟩
        · rw [smoothedSum_next hi, ← hblank, ← hzero, zero_mul, add_zero] at hpos
          exact absurd hpos (lt_irrefl 0)
    · rintro ⟨j, hj, hle, hmoved⟩
      rcases Nat.le_succ_iff.mp hle with hold | rfl
      · exact smoothedSum_pos hx hp hi (ih.mpr ⟨j, hj, hold, hmoved⟩) (Nat.le_succ i)
      · have hkept : (1 : F) / p ≤ 1 :=
          (div_le_one (by positivity)).mpr (Nat.one_le_cast.mpr (by omega))
        rw [smoothedSum_next hi]
        exact add_pos_of_nonneg_of_pos (mul_nonneg hnonneg (sub_nonneg.mpr hkept)) hmoved

/-- A bar has an index if it is not before the period and some bar up to it has moved. -/
theorem Ordered.dx_ne_nan_iff {candles : List (Bar F)} (h : Ordered candles) (hp : 2 ≤ p) :
    (movesOf candles).dx p i ≠ nan ↔ p ≤ i ∧ ∃ j ≤ i, MovedAt candles j := by
  have hm : (movesOf candles).Nonneg := nonneg_ofPrices _ _ _
  rw [Moves.dx_ne_nan_iff]
  refine and_congr_right fun hi => ?_
  rw [smoothedSum_pos_iff hm.tr hp hi]
  constructor
  · rintro ⟨-, hmoved⟩
    rcases (smoothedSum_nonneg hm.plusDm (show 0 < p by omega) hi).lt_or_eq with hplus | hzero
    · obtain ⟨j, -, hle, hpos⟩ := (smoothedSum_pos_iff hm.plusDm hp hi).mp hplus
      exact ⟨j, hle, Or.inl hpos⟩
    · rw [← hzero, zero_add] at hmoved
      obtain ⟨j, -, hle, hpos⟩ := (smoothedSum_pos_iff hm.minusDm hp hi).mp hmoved
      exact ⟨j, hle, Or.inr hpos⟩
  · rintro ⟨j, hle, hmoved⟩
    obtain ⟨hj, hrange⟩ := h.moved hmoved
    refine ⟨⟨j, hj, hle, hrange⟩, ?_⟩
    rcases hmoved with hup | hdown
    · exact add_pos_of_pos_of_nonneg ((smoothedSum_pos_iff hm.plusDm hp hi).mpr ⟨j, hj, hle, hup⟩)
        (smoothedSum_nonneg hm.minusDm (by omega) hi)
    · exact add_pos_of_nonneg_of_pos (smoothedSum_nonneg hm.plusDm (by omega) hi)
        ((smoothedSum_pos_iff hm.minusDm hp hi).mpr ⟨j, hj, hle, hdown⟩)

/-- Both indicators are undefined at the same bars and equal at the others. -/
def TrendsAgree (candles : List (Bar F)) (p : ℕ) : Prop :=
  ∃ index, adx adxNumpy candles p = some index ∧ adx adxPure candles p = some index ∧
    chartAtr candles p = atrNumpy candles p ∧ chartAtr candles p = atrPure candles p ∧
    chartAdx candles p = index

/-- How the indicators of the charts relate to those of the signal bot: where they are defined first, and that
they converge where both are. -/
structure TrendsConverge (candles : List (Bar F)) (p : ℕ) (index : List (Number F)) : Prop where
  atrPaths : atrNumpy candles p = atrPure candles p
  lengths : (atrPure candles p).length = candles.length ∧ (chartAtr candles p).length = candles.length ∧
    index.length = candles.length ∧ (chartAdx candles p).length = candles.length
  atrBot : ∀ i < candles.length, (atrPure candles p).getD i nan ≠ nan ↔ p ≤ i
  atrChart : ∀ i < candles.length, (chartAtr candles p).getD i nan ≠ nan ↔ p ≤ i + 1
  atr : Converge p (chartAtr candles p) (atrPure candles p)
  adxBot : ∀ i < candles.length, index.getD i nan ≠ nan ↔
    p * 2 < candles.length ∧ p * 2 ≤ i + 1 ∧ ∃ j, j + p ≤ i + 1 ∧ MovedAt candles j
  adxChart : ∀ i < candles.length, (chartAdx candles p).getD i nan ≠ nan ↔ p * 2 ≤ i
  adx : Converge p (chartAdx candles p) index

/-- The indicators of the charts and of the signal bot converge. -/
theorem trends_converge (candles : List (Bar F)) (h : Ordered candles) (hp : 2 ≤ p) :
    ∃ index, adx adxNumpy candles p = some index ∧ adx adxPure candles p = some index ∧
      TrendsConverge candles p index := by
  have hm : (movesOf candles).Nonneg := nonneg_ofPrices _ _ _
  have hhighs : (highs candles).length = candles.length := List.length_map _
  have hlows : (lows candles).length = (highs candles).length := by rw [hhighs, lows, List.length_map]
  have hcloses : (closes candles).length = (highs candles).length := by rw [hhighs, closes, List.length_map]
  obtain ⟨-, -, hnumpy, hpure⟩ := adx_eq candles (show 0 < p by omega)
  refine ⟨_, hnumpy, hpure, ?_⟩
  have hatr := atrPure_eq candles (show 0 < p by omega)
  have hchartAtr : chartAtr candles p = _ := calcATR_eq hp hlows hcloses
  have hchartAdx : chartAdx candles p = _ := calcADX_eq hp hlows hcloses
  rw [hhighs] at hchartAtr hchartAdx
  obtain ⟨d, hbefore, hafter⟩ := hm.exists_first hp candles.length
  have hindex := smoothAdx_eq (show 0 < p by omega) hbefore hafter
  -- what the bars from the first index on say of the movements
  have hdefined : ∀ i < candles.length,
      d + p - 1 ≤ i ↔ p * 2 ≤ i + 1 ∧ ∃ j, j + p ≤ i + 1 ∧ MovedAt candles j := by
    intro i hi
    constructor
    · intro hd
      obtain ⟨hpd, j, hj, hmoved⟩ := (h.dx_ne_nan_iff hp).mp (hafter d le_rfl (by omega))
      exact ⟨by omega, j, by omega, hmoved⟩
    · rintro ⟨hlong, j, hj, hmoved⟩
      by_contra hd
      refine (h.dx_ne_nan_iff (i := i + 1 - p) hp).mpr ⟨by omega, j, by omega, hmoved⟩ ?_
      exact hbefore _ (by omega)
  refine ⟨atrNumpy_eq_atrPure candles p, ⟨?_, ?_, ?_, ?_⟩, fun i hi => ?_, fun i hi => ?_, ?_, fun i hi => ?_,
    fun i hi => ?_, ?_⟩
  · rw [hatr, length_series]
  · rw [hchartAtr, length_series]
  · split_ifs
    · exact List.length_replicate
    · rw [hindex, length_series]
  · rw [hchartAdx, length_series]
  · rw [defined_onward hatr i hi, Nat.add_sub_cancel_left]
  · rw [defined_onward hchartAtr i hi]
    omega
  · rw [hchartAtr, hatr]
    exact converge_onward fun k _ hk => Function.update_of_ne (by omega) _ _
  · split_ifs with hshort
    · refine iff_of_false (not_not_intro ?_) fun hlong => by omega
      rw [replicate_eq_series, getD_series hi]
    · rw [defined_onward hindex i hi, hdefined i hi,
        and_iff_right (show p * 2 < candles.length by omega)]
  · rw [defined_onward hchartAdx i hi]
    omega
  · rw [hchartAdx]
    split_ifs with hshort
    · intro i j hij hj _ hblank
      rw [length_series] at hj
      rw [replicate_eq_series, getD_series (hij.trans_lt hj)] at hblank
      exact absurd rfl hblank
    · rw [hindex]
      exact converge_onward fun k _ _ => rfl

/-- Two bars, with a period of two. -/
theorem trends_converge_twoBars : ∃ index : List (Number ℚ),
    adx adxNumpy [⟨2, 0, 1, 1⟩, ⟨2, 0, 1, 1⟩] 2 = some index ∧
      adx adxPure [⟨2, 0, 1, 1⟩, ⟨2, 0, 1, 1⟩] 2 = some index ∧
      TrendsConverge [⟨2, 0, 1, 1⟩, ⟨2, 0, 1, 1⟩] 2 index :=
  trends_converge _ (by decide +kernel) le_rfl

/-- The charts have a true range at the second of two bars, the signal bot has none. -/
theorem not_trendsAgree_twoBars : ¬ TrendsAgree ([⟨2, 0, 1, 1⟩, ⟨2, 0, 1, 1⟩] : List (Bar ℚ)) 2 := by
  rintro ⟨_, -, -, hatr, -, -⟩
  revert hatr
  decide +kernel

end Candles

end TradingSim.Dashboard
