import TradingSim.Bot.Indicators
import TradingSim.Foundations.Series

/-!
# Technical indicators of the signal bot

Moving averages, relative strength, true range and directional index over a list of candles, with the
arithmetic of an ordered field in place of floating point. Each has two paths: one over arrays that are
combined as a whole, one over lists that are gone through entry by entry.
-/

namespace TradingSim.Bot.TechnicalAnalysis

open Foundations
open Number (nan real)

variable {F : Type*} [Field F]

def closes (candles : List (Bar F)) : List F := candles.map Bar.close

def highs (candles : List (Bar F)) : List F := candles.map Bar.high

def lows (candles : List (Bar F)) : List F := candles.map Bar.low

def mean (arr : List F) : F := arr.sum / arr.length

/-- `arr[1:] - arr[:-1]`. -/
def diff (arr : List F) : List F := List.zipWith (· - ·) (arr.drop 1) arr

/-- Entry by entry, the values that meet a condition and zero in place of the others. -/
def whereElseZero (cond : F → Prop) [DecidablePred cond] (value : F → F) (arr : List F) : List F :=
  arr.map fun x => if cond x then value x else 0

theorem sum_take {values : List F} {k : ℕ} (hk : k ≤ values.length) :
    (values.take k).sum = ∑ j ∈ Finset.range k, values.getD j 0 := by
  conv_lhs => rw [eq_series_getD values 0]
  rw [take_series hk, sum_series]

theorem diff_eq (arr : List F) :
    diff arr = series (arr.length - 1) fun j => arr.getD (j + 1) 0 - arr.getD j 0 := by
  conv_lhs => rw [diff, eq_series_getD arr 0]
  rw [drop_series, zipWith_series, min_eq_left (Nat.sub_le _ _)]
  exact series_congr fun j _ => by rw [Nat.add_comm]

/-! ### Moving averages -/

variable [LinearOrder F]

/-- The loop of the moving averages. -/
def smoothEma (values : List F) (period : ℕ) (mult : F) (result : List (Number F)) : List (Number F) :=
  forLoop period values.length
    (fun i result => result.set i (real (values.getD i 0 * mult) + result.getD (i - 1) nan * real (1 - mult)))
    result

/-- `ema` with arrays. -/
def emaNumpy (values : List F) (period : ℕ) : List (Number F) :=
  let n := values.length
  if n < period then List.replicate n nan
  else
    let mult : F := 2 / (period + 1)
    smoothEma values period mult ((List.replicate n nan).set (period - 1) (real (mean (values.take period))))

/-- `ema` with lists. -/
def emaPure (values : List F) (period : ℕ) : List (Number F) :=
  let n := values.length
  if n < period then List.replicate n nan
  else
    let mult : F := 2 / (period + 1)
    smoothEma values period mult
      ((List.replicate n nan).set (period - 1) (real ((values.take period).sum / period)))

/-! ### Relative strength -/

/-- The index of the averages of the gains and the losses. -/
def strength (avgGain avgLoss : F) : F :=
  if avgLoss = 0 then 100 else 100 - 100 / (1 + avgGain / avgLoss)

/-- The averages and the array that a loop fills with their index. -/
structure RsiLoop (F : Type*) where
  avgGain : F
  avgLoss : F
  result : List (Number F)

/-- One turn of the smoothing. -/
def RsiLoop.smooth (period i : ℕ) (gain loss : F) (s : RsiLoop F) : RsiLoop F :=
  let avgGain := (s.avgGain * (period - 1) + gain) / period
  let avgLoss := (s.avgLoss * (period - 1) + loss) / period
  { avgGain := avgGain, avgLoss := avgLoss, result := s.result.set i (real (strength avgGain avgLoss)) }

/-- The index of the first averages is entered. -/
def RsiLoop.start (n period : ℕ) (avgGain avgLoss : F) : RsiLoop F where
  avgGain := avgGain
  avgLoss := avgLoss
  result := (List.replicate n nan).set period (real (strength avgGain avgLoss))

/-- `rsi` with arrays. -/
def rsiNumpy (candles : List (Bar F)) (period : ℕ) : List (Number F) :=
  let c := closes candles
  let n := c.length
  if n < period + 1 then List.replicate n nan
  else
    let diffs := diff c
    let gains := whereElseZero (0 < ·) id diffs
    let losses := whereElseZero (· < 0) (- ·) diffs
    (forLoop (period + 1) n
      (fun i => RsiLoop.smooth period i (gains.getD (i - 1) 0) (losses.getD (i - 1) 0))
      (RsiLoop.start n period (mean (gains.take period)) (mean (losses.take period)))).result

/-- `rsi` with lists. -/
def rsiPure (candles : List (Bar F)) (period : ℕ) : List (Number F) :=
  let c := closes candles
  let n := c.length
  if n < period + 1 then List.replicate n nan
  else
    let change (i : ℕ) : F := c.getD i 0 - c.getD (i - 1) 0
    let gains := series period fun j => max (change (j + 1)) 0
    let losses := series period fun j => max (-change (j + 1)) 0
    (forLoop (period + 1) n (fun i => RsiLoop.smooth period i (max (change i) 0) (max (-change i) 0))
      (RsiLoop.start n period (gains.sum / period) (losses.sum / period))).result

/-! ### True range -/

/-- The loop of the average true range. -/
def smoothAtr (n period : ℕ) (tr result : List (Number F)) : List (Number F) :=
  forLoop (period + 1) n
    (fun i result =>
      result.set i ((result.getD (i - 1) nan * real ((period : F) - 1) + tr.getD i nan) / real (period : F)))
    result

/-- The true ranges of all candles but the first one, as an array. -/
def trueRanges (h low cl : List F) : List F :=
  List.zipWith max (List.zipWith (· - ·) (h.drop 1) (low.drop 1))
    (List.zipWith max ((List.zipWith (· - ·) (h.drop 1) cl).map fun x => |x|)
      ((List.zipWith (· - ·) (low.drop 1) cl).map fun x => |x|))

/-- `atr` with arrays. -/
def atrNumpy (candles : List (Bar F)) (period : ℕ) : List (Number F) :=
  let n := candles.length
  if n < period + 1 then List.replicate n nan
  else
    let tr := nan :: (trueRanges (highs candles) (lows candles) (closes candles)).map real
    smoothAtr n period tr
      ((List.replicate n nan).set period (Number.sum ((tr.drop 1).take period) / real (period : F)))

/-- The range of a candle with the close before it, read from lists. -/
def trueRangeAt (h low cl : List F) (i : ℕ) : F :=
  trueRange (h.getD i 0) (low.getD i 0) (cl.getD (i - 1) 0)

/-- `atr` with lists. -/
def atrPure (candles : List (Bar F)) (period : ℕ) : List (Number F) :=
  let n := candles.length
  if n < period + 1 then List.replicate n nan
  else
    let tr := forLoop 1 n
      (fun i tr => tr.set i (real (trueRangeAt (highs candles) (lows candles) (closes candles) i)))
      (List.replicate n nan)
    smoothAtr n period tr
      ((List.replicate n nan).set period (Number.sum ((tr.drop 1).take period) / real (period : F)))

/-! ### Directional index -/

/-- The smoothed sums of the true ranges and of the movements up and down. -/
structure Smoothed (F : Type*) where
  atrW : List (Number F)
  pdmW : List (Number F)
  mdmW : List (Number F)

/-- The next entry of a smoothed sum. -/
def wilder (period i : ℕ) (x : F) (w : List (Number F)) : List (Number F) :=
  w.set i (w.getD (i - 1) nan - w.getD (i - 1) nan / real (period : F) + real x)

/-- The first sums are entered. -/
def Smoothed.start (n period : ℕ) (tr plusDm minusDm : F) : Smoothed F where
  atrW := (List.replicate n nan).set period (real tr)
  pdmW := (List.replicate n nan).set period (real plusDm)
  mdmW := (List.replicate n nan).set period (real minusDm)

def Smoothed.turn (period i : ℕ) (tr plusDm minusDm : F) (s : Smoothed F) : Smoothed F where
  atrW := wilder period i tr s.atrW
  pdmW := wilder period i plusDm s.pdmW
  mdmW := wilder period i minusDm s.mdmW

/-- The index of one candle, if there is a range and a movement. -/
def dxAt (atr pdm mdm : Number F) : Option (Number F) :=
  if !atr.isNaN && Number.lt (real 0) atr then
    let pdi := real 100 * pdm / atr
    let mdi := real 100 * mdm / atr
    let denom := pdi + mdi
    if Number.lt (real 0) denom then some (real 100 * Number.abs (pdi - mdi) / denom) else none
  else none

/-- The loop of the index. -/
def computeDx (s : Smoothed F) (n period : ℕ) : List (Number F) :=
  forLoop period n
    (fun i dx =>
      match dxAt (s.atrW.getD i nan) (s.pdmW.getD i nan) (s.mdmW.getD i nan) with
      | some v => dx.set i v
      | none => dx)
    (List.replicate n nan)

def computeDxNumpy (s : Smoothed F) (n period : ℕ) : List (Number F) := computeDx s n period

def computeDxPure (s : Smoothed F) (n period : ℕ) : List (Number F) := computeDx s n period

/-- The average of the index, from its first value on. -/
def smoothAdx (dx : List (Number F)) (n period : ℕ) : List (Number F) :=
  let result := List.replicate n nan
  match dx.findIdx? fun v => !v.isNaN with
  | none => result
  | some dxStart =>
    if dxStart + period ≤ n then
      forLoop (dxStart + period) n
        (fun i result =>
          if (dx.getD i nan).isNaN then result
          else result.set i ((result.getD (i - 1) nan * real ((period : F) - 1) + dx.getD i nan) / real (period : F)))
        (result.set (dxStart + period - 1) (Number.sum ((dx.drop dxStart).take period) / real (period : F)))
    else result

def smoothAdxNumpy (dx : List (Number F)) (n period : ℕ) : List (Number F) := smoothAdx dx n period

def smoothAdxPure (dx : List (Number F)) (period : ℕ) : List (Number F) := smoothAdx dx dx.length period

/-- The movement in one direction, where it is the greater one. -/
def movement (move other : F) : F := if other < move ∧ 0 < move then move else 0

/-- `_adx_numpy`. It raises if there is no candle at the period. -/
def adxNumpy (h low cl : List F) (n period : ℕ) : Option (List (Number F)) :=
  let up := diff h
  let down := List.zipWith (· - ·) low (low.drop 1)
  let plusDm := List.zipWith movement up down
  let minusDm := List.zipWith movement down up
  let tr := trueRanges h low cl
  if n ≤ period then none
  else
    let s := forLoop (period + 1) n
      (fun i => Smoothed.turn period i (tr.getD (i - 1) 0) (plusDm.getD (i - 1) 0) (minusDm.getD (i - 1) 0))
      (Smoothed.start n period (tr.take period).sum (plusDm.take period).sum (minusDm.take period).sum)
    some (smoothAdxNumpy (computeDxNumpy s n period) n period)

/-- The movements and true ranges, entry by entry. -/
structure Movements (F : Type*) where
  plusDm : List F
  minusDm : List F
  tr : List F

/-- `_adx_pure`. It raises if there is no candle at the period. -/
def adxPure (h low cl : List F) (n period : ℕ) : Option (List (Number F)) :=
  let m := forLoop 1 n
    (fun i m =>
      let up := h.getD i 0 - h.getD (i - 1) 0
      let down := low.getD (i - 1) 0 - low.getD i 0
      { plusDm := m.plusDm.set i (movement up down)
        minusDm := m.minusDm.set i (movement down up)
        tr := m.tr.set i (trueRangeAt h low cl i) })
    (⟨List.replicate n 0, List.replicate n 0, List.replicate n 0⟩ : Movements F)
  if n ≤ period then none
  else
    let s := forLoop (period + 1) n
      (fun i => Smoothed.turn period i (m.tr.getD i 0) (m.plusDm.getD i 0) (m.minusDm.getD i 0))
      (Smoothed.start n period ((m.tr.drop 1).take period).sum ((m.plusDm.drop 1).take period).sum
        ((m.minusDm.drop 1).take period).sum)
    some (smoothAdxPure (computeDxPure s n period) period)

/-- `adx`, by one of its paths. -/
def adx (path : List F → List F → List F → ℕ → ℕ → Option (List (Number F))) (candles : List (Bar F))
    (period : ℕ) : Option (List (Number F)) :=
  let n := candles.length
  if n < period * 2 + 1 then some (List.replicate n nan)
  else path (highs candles) (lows candles) (closes candles) n period

end TradingSim.Bot.TechnicalAnalysis
