import Mathlib.Analysis.Real.Sqrt
import TradingSim.Bot.Indicators
import TradingSim.Foundations.WeightedMean

/-!
# The running volume-weighted price

The indicator keeps the sums of the volumes, of the weighted typical prices and of their squared
deviations, and adds one candle at a time. Its mean and its variance are those of all candles together,
computed in two passes. A candle is divided by the volume so far without a check, so the first candle
must have a volume.
-/

namespace TradingSim.Bot

open Foundations

/-- The square root that the indicators call. -/
class SquareRoot (F : Type*) where
  sqrt : F → F

noncomputable instance : SquareRoot ℝ := ⟨Real.sqrt⟩

namespace InlineVWAP

section Definitions

variable {F : Type*} [Field F] [LinearOrder F]

def value (v : InlineVWAP F) : F := if 0 < v.cumV then v.cumPv / v.cumV else 0

def stdDev [SquareRoot F] (v : InlineVWAP F) : F :=
  if 0 < v.cumV then SquareRoot.sqrt (v.cumVar / v.cumV) else 0

/-- `update` where it does not divide by zero: the new mean is taken of the volume with the candle. -/
def update? (v : InlineVWAP F) (bar : Bar F) : Option (InlineVWAP F) :=
  if v.cumV + bar.volume = 0 then none
  else some (v.update bar.high bar.low bar.close bar.volume)

/-- Feed candles one after the other, as long as nothing is divided by zero. -/
def updateAll? (v : InlineVWAP F) (bars : List (Bar F)) : Option (InlineVWAP F) :=
  bars.foldlM update? v

/-- The typical price of a candle, weighted by its volume. -/
def typical (bar : Bar F) : Weighted F := ⟨bar.volume, (bar.high + bar.low + bar.close) / 3⟩

/-- The sums are those of weighted prices, the deviations taken from their mean. -/
structure Tracks (v : InlineVWAP F) (xs : List (Weighted F)) : Prop where
  moment : v.cumPv = Weighted.moment xs
  total : v.cumV = Weighted.total xs
  deviations : v.cumVar = Weighted.deviations (Weighted.mean xs) xs

omit [LinearOrder F] in
theorem Tracks.empty : (InlineVWAP.empty : InlineVWAP F).Tracks [] where
  moment := rfl
  total := rfl
  deviations := rfl

theorem Tracks.update_first {bar : Bar F} (hvolume : 0 < bar.volume) :
    ((InlineVWAP.empty : InlineVWAP F).update bar.high bar.low bar.close bar.volume).Tracks
      [typical bar] := by
  have hmean : Weighted.mean [typical bar] = (typical bar).value := by
    simp [Weighted.mean, Weighted.moment, Weighted.total, typical, hvolume.ne']
  refine ⟨?_, ?_, ?_⟩
  · simp [InlineVWAP.update, InlineVWAP.empty, Weighted.moment, typical]
  · simp [InlineVWAP.update, InlineVWAP.empty, Weighted.total, typical]
  · rw [hmean]
    simp [InlineVWAP.update, InlineVWAP.empty, Weighted.deviations]

end Definitions

section Exact

variable {F : Type*} [Field F] [LinearOrder F] [IsStrictOrderedRing F] {v : InlineVWAP F}
  {xs : List (Weighted F)} {bar : Bar F}

/-- A candle whose volume is not the first adds what the two-pass sums gain. -/
theorem Tracks.update (h : v.Tracks xs) (hpositive : 0 < Weighted.total xs) (hvolume : 0 ≤ bar.volume) :
    (v.update bar.high bar.low bar.close bar.volume).Tracks (xs ++ [typical bar]) := by
  have htotal' : Weighted.total xs + (typical bar).weight ≠ 0 := by
    have hsum : 0 < Weighted.total xs + bar.volume := by linarith
    exact hsum.ne'
  have hgrow := Weighted.deviations_mean_append hpositive.ne' htotal'
  refine ⟨?_, ?_, ?_⟩
  · simp [InlineVWAP.update, h.moment, typical]
  · simp [InlineVWAP.update, h.total, typical]
  · rw [hgrow]
    simp only [InlineVWAP.update, h.moment, h.total, h.deviations, hpositive, if_true, Weighted.mean,
      Weighted.moment_append, Weighted.total_append, typical]

/-- Candles behind one that has a volume are fed without a division by zero. -/
theorem Tracks.updateAll (h : v.Tracks xs) (hpositive : 0 < Weighted.total xs) (bars : List (Bar F))
    (hvolumes : ∀ bar ∈ bars, 0 ≤ bar.volume) :
    ∃ v', v.updateAll? bars = some v' ∧ v'.Tracks (xs ++ bars.map typical) := by
  induction bars generalizing v xs with
  | nil => exact ⟨v, rfl, by simpa using h⟩
  | cons bar rest ih =>
    rw [List.forall_mem_cons] at hvolumes
    have hnext : 0 < Weighted.total (xs ++ [typical bar]) := by
      rw [Weighted.total_append]
      exact add_pos_of_pos_of_nonneg hpositive hvolumes.1
    obtain ⟨v', hrun, htracks⟩ := ih (h.update hpositive hvolumes.1) hnext hvolumes.2
    refine ⟨v', ?_, by simpa using htracks⟩
    have hdivides : v.cumV + bar.volume ≠ 0 := by
      rw [h.total]
      rw [Weighted.total_append] at hnext
      exact hnext.ne'
    rw [updateAll?, List.foldlM_cons, update?, if_neg hdivides]
    exact hrun

theorem Tracks.value_eq (h : v.Tracks xs) (hweights : ∀ x ∈ xs, 0 ≤ x.weight) :
    v.value = Weighted.mean xs := by
  have hnonneg := Weighted.total_nonneg hweights
  unfold value
  rw [h.moment, h.total]
  split_ifs with hpositive
  · rfl
  · rw [Weighted.mean, le_antisymm (not_lt.mp hpositive) hnonneg, div_zero]

end Exact

/-- The candles are fed without a division by zero, and leave the mean and the variance of the typical
prices weighted by the volumes, or zero without any volume. -/
def Agrees (bars : List (Bar ℝ)) : Prop :=
  ∃ v, InlineVWAP.empty.updateAll? bars = some v ∧
    v.value = Weighted.mean (bars.map typical) ∧
    v.stdDev ^ 2 = Weighted.variance (bars.map typical) ∧ 0 ≤ v.cumVar ∧
    0 ≤ Weighted.variance (bars.map typical)

theorem Tracks.agrees {v : InlineVWAP ℝ} {bars : List (Bar ℝ)}
    (hrun : InlineVWAP.empty.updateAll? bars = some v) (h : v.Tracks (bars.map typical))
    (hvolumes : ∀ bar ∈ bars, 0 ≤ bar.volume) : Agrees bars := by
  have hweights : ∀ x ∈ bars.map typical, 0 ≤ x.weight := by
    intro x hx
    obtain ⟨bar, hbar, rfl⟩ := List.mem_map.mp hx
    exact hvolumes bar hbar
  have hvariance : 0 ≤ Weighted.variance (bars.map typical) := Weighted.variance_nonneg hweights
  refine ⟨v, hrun, h.value_eq hweights, ?_, ?_, hvariance⟩
  · unfold stdDev
    rw [h.deviations, h.total, ← Weighted.variance]
    split_ifs with hpositive
    · exact Real.sq_sqrt hvariance
    · rw [Weighted.variance, le_antisymm (not_lt.mp hpositive) (Weighted.total_nonneg hweights)]
      simp
  · rw [h.deviations]
    exact Weighted.deviations_nonneg hweights _

/-- The running price is the two-pass price exactly if no candle was fed or the first one has a volume. -/
theorem agrees_iff (bars : List (Bar ℝ)) (hvolumes : ∀ bar ∈ bars, 0 ≤ bar.volume) :
    Agrees bars ↔ ∀ first ∈ bars.head?, 0 < first.volume := by
  cases bars with
  | nil => exact iff_of_true (Tracks.empty.agrees rfl hvolumes) (by simp)
  | cons first rest =>
    rw [List.forall_mem_cons] at hvolumes
    simp only [List.head?_cons, Option.mem_some_iff, forall_eq']
    constructor
    · rintro ⟨v, hrun, -⟩
      refine lt_of_le_of_ne hvolumes.1 fun hzero => ?_
      have hdivides : (InlineVWAP.empty : InlineVWAP ℝ).cumV + first.volume = 0 := by
        rw [← hzero]
        exact add_zero 0
      rw [updateAll?, List.foldlM_cons, update?, if_pos hdivides] at hrun
      cases hrun
    · intro hfirst
      have hpositive : 0 < Weighted.total [typical first] := by
        simpa [Weighted.total, typical] using hfirst
      obtain ⟨v, hrun, htracks⟩ := (Tracks.update_first hfirst).updateAll hpositive rest hvolumes.2
      refine Tracks.agrees ?_ htracks (List.forall_mem_cons.mpr hvolumes)
      have hdivides : (InlineVWAP.empty : InlineVWAP ℝ).cumV + first.volume ≠ 0 := by
        simpa [InlineVWAP.empty] using hfirst.ne'
      rw [updateAll?, List.foldlM_cons, update?, if_neg hdivides]
      exact hrun

/-- A candle without a volume behind one that has a volume. -/
theorem agrees_iff_quietSecond : Agrees [⟨102, 98, 100, 2⟩, ⟨104, 100, 102, 0⟩, ⟨110, 104, 107, 3⟩] := by
  refine (agrees_iff _ ?_).mpr ?_
  · simp
  · simp

/-- A first candle without a volume is divided by zero. -/
theorem not_agrees_quietFirst : ¬ ∀ bars : List (Bar ℝ), (∀ bar ∈ bars, 0 ≤ bar.volume) → Agrees bars := by
  intro h
  obtain ⟨v, hrun, -⟩ := h [⟨102, 98, 100, 0⟩] (by simp)
  have hzero : (InlineVWAP.empty : InlineVWAP ℝ).cumV + 0 = 0 := add_zero 0
  rw [updateAll?, List.foldlM_cons, update?, if_pos hzero] at hrun
  cases hrun

end InlineVWAP

end TradingSim.Bot
