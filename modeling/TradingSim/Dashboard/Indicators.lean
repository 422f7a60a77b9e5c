import TradingSim.Bot.RunningVwap
import TradingSim.Foundations.Series

/-!
# Indicators of the charts

The indicators that the panels compute from arrays of numbers, some of which may be undefined. Reading past
the end of an array gives the undefined number.
-/

namespace TradingSim.Dashboard

open Foundations
open Number (nan real)

variable {F : Type*} [Field F] [LinearOrder F]

/-- The exponential moving average. -/
def calcEMA (closes : List (Number F)) (period : ℕ) : List (Number F) :=
  let k : F := 2 / (period + 1)
  let n := closes.length
  let ema := List.replicate n nan
  if n < period then ema
  else
    let sma := forLoop 0 period (fun i sma => sma + closes.getD i nan) (real 0) / real (period : F)
    forLoop period n
      (fun i ema => ema.set i (closes.getD i nan * real k + ema.getD (i - 1) nan * real (1 - k)))
      (ema.set (period - 1) sma)

/-- The averages of the relative strength index, and the array that a loop fills. -/
structure RsiState (F : Type*) where
  avgGain : Number F
  avgLoss : Number F
  rsi : List (Number F)

/-- The index of the averages. -/
def rsiOf (avgGain avgLoss : Number F) : Number F :=
  if avgLoss = real 0 then real 100 else real 100 - real 100 / (real 1 + avgGain / avgLoss)

/-- The change between two closes. -/
def changeAt (closes : List (Number F)) (i : ℕ) : Number F := closes.getD i nan - closes.getD (i - 1) nan

/-- A change is added to the gains or the losses. -/
def addChange (change : Number F) (sums : Number F × Number F) : Number F × Number F :=
  if Number.le (real 0) change then (sums.1 + change, sums.2) else (sums.1, sums.2 + Number.abs change)

/-- One turn of the smoothing. -/
def RsiState.smooth (period i : ℕ) (change : Number F) (s : RsiState F) : RsiState F :=
  let gain := if Number.le (real 0) change then change else real 0
  let loss := if Number.lt change (real 0) then Number.abs change else real 0
  let avgGain := (s.avgGain * real ((period : F) - 1) + gain) / real (period : F)
  let avgLoss := (s.avgLoss * real ((period : F) - 1) + loss) / real (period : F)
  { avgGain := avgGain, avgLoss := avgLoss, rsi := s.rsi.set i (rsiOf avgGain avgLoss) }

/-- The relative strength index. -/
def calcRSI (closes : List (Number F)) (period : ℕ) : List (Number F) :=
  let n := closes.length
  let rsi := List.replicate n nan
  if n < period + 1 then rsi
  else
    let sums := forLoop 1 (period + 1) (fun i => addChange (changeAt closes i)) (real 0, real 0)
    let avgGain := sums.1 / real (period : F)
    let avgLoss := sums.2 / real (period : F)
    (forLoop (period + 1) n (fun i => RsiState.smooth period i (changeAt closes i))
      { avgGain := avgGain, avgLoss := avgLoss, rsi := rsi.set period (rsiOf avgGain avgLoss) }).rsi

/-- One turn of the running sum. -/
def smaTurn (closes : List (Number F)) (period i : ℕ) (s : Number F × List (Number F)) :
    Number F × List (Number F) :=
  let sum := s.1 + closes.getD i nan
  let sum := if period ≤ i then sum - closes.getD (i - period) nan else sum
  (sum, if period ≤ i + 1 then s.2.set i (sum / real (period : F)) else s.2)

/-- The simple moving average. -/
def calcSMA (closes : List (Number F)) (period : ℕ) : List (Number F) :=
  (forLoop 0 closes.length (smaTurn closes period) (real 0, List.replicate closes.length nan)).2

/-- The range of a bar with the close before it. -/
def rangeAt (highs lows closes : List (Number F)) (i : ℕ) : Number F :=
  Number.max (highs.getD i nan - lows.getD i nan)
    (Number.max (Number.abs (highs.getD i nan - closes.getD (i - 1) nan))
      (Number.abs (lows.getD i nan - closes.getD (i - 1) nan)))

/-- The average true range. -/
def calcATR (highs lows closes : List (Number F)) (period : ℕ) : List (Number F) :=
  let n := closes.length
  let atr := List.replicate n nan
  if n < 2 then atr
  else
    let tr := forLoop 1 n (fun i tr => tr.set i (rangeAt highs lows closes i))
      ((List.replicate n (real 0)).set 0 (highs.getD 0 nan - lows.getD 0 nan))
    if n < period then atr
    else
      let sum := forLoop 0 period (fun i sum => sum + tr.getD i nan) (real 0)
      forLoop period n
        (fun i atr =>
          atr.set i ((atr.getD (i - 1) nan * real ((period : F) - 1) + tr.getD i nan) / real (period : F)))
        (atr.set (period - 1) (sum / real (period : F)))

end TradingSim.Dashboard
