import Mathlib.Tactic.Linarith
import TradingSim.Dashboard.Indicators

/-!
# The stochastic oscillator

%K places the close within the range of the last bars, and %D is to average it. The average is taken of
an array in which zeros stand for the bars that have no %K yet, and of the averages only those at such
bars are taken back. The first averages therefore count some of the zeros.
-/

namespace TradingSim.Dashboard

open Foundations
open Number (nan real)
open TradingSim.Bot (Bar)

variable {F : Type*} [Field F] [LinearOrder F]

/-- The lines of the oscillator. -/
structure Stochastic (F : Type*) where
  k : List (Number F)
  d : List (Number F)

/-- The greatest high and the least low, which are infinite at first. -/
def widen (highs lows : List F) (j : ℕ) (s : Option F × Option F) : Option F × Option F :=
  (if s.1.all (· < highs.getD j 0) then some (highs.getD j 0) else s.1,
    if s.2.all (lows.getD j 0 < ·) then some (lows.getD j 0) else s.2)

/-- %K of a bar. -/
def percentK (highs lows closes : List F) (kPeriod i : ℕ) : Number F :=
  match forLoop (i + 1 - kPeriod) (i + 1) (widen highs lows) (none, none) with
  | (some hh, some ll) =>
    let range := if hh - ll = 0 then 1 else hh - ll
    real ((closes.getD i 0 - ll) / range * 100)
  | _ => nan

/-- %K of all bars. -/
def lineK (highs lows closes : List F) (kPeriod : ℕ) : List (Number F) :=
  forLoop (kPeriod - 1) closes.length (fun i k => k.set i (percentK highs lows closes kPeriod i))
    (List.replicate closes.length nan)

/-- %D of all bars. -/
def lineD (n : ℕ) (k : List (Number F)) (dPeriod : ℕ) : List (Number F) :=
  forLoop 0 n (fun i d => if (k.getD i nan).isNaN then d.set i nan else d)
    (calcSMA (k.map fun v => if v.isNaN then real 0 else v) dPeriod)

/-- The stochastic oscillator. -/
def calcStochastic (highs lows closes : List F) (kPeriod dPeriod : ℕ) : Stochastic F :=
  let k := lineK highs lows closes kPeriod
  { k := k, d := lineD closes.length k dPeriod }

namespace Stochastic

/-- %D at a bar is the mean of %K over the last bars where all of these have one, and is undefined
otherwise. -/
def AveragesAt (s : Stochastic F) (dPeriod i : ℕ) : Prop :=
  s.d.getD i nan =
    if dPeriod ≤ i + 1 ∧ ∀ j ∈ Finset.Ico (i + 1 - dPeriod) (i + 1), s.k.getD j nan ≠ nan then
      real ((∑ j ∈ Finset.Ico (i + 1 - dPeriod) (i + 1), (s.k.getD j nan).value) / dPeriod)
    else nan

/-- Both lines have as many entries as there are bars, and what is defined of them is from 0 to 100. -/
def Bounded (s : Stochastic F) : Prop := ∀ x, real x ∈ s.k ∨ real x ∈ s.d → 0 ≤ x ∧ x ≤ 100

end Stochastic

section Sma

variable {y : ℕ → F} {n period : ℕ}

/-- The mean of the last values, once there are enough. -/
def smaEntry (y : ℕ → F) (period i : ℕ) : Number F :=
  if i + 1 < period then nan else real ((∑ j ∈ Finset.Ico (i + 1 - period) (i + 1), y j) / period)

omit [LinearOrder F] in
theorem sum_window_succ (y : ℕ → F) (i : ℕ) (hperiod : 1 ≤ period) :
    ∑ j ∈ Finset.Ico (i + 1 - period) (i + 1), y j =
      ∑ j ∈ Finset.Ico (i - period) i, y j + y i - if period ≤ i then y (i - period) else 0 := by
  rw [← Finset.sum_Ico_succ_top (Nat.sub_le i period)]
  split_ifs with hi
  · rw [Finset.sum_eq_sum_Ico_succ_bot (show i - period < i + 1 by omega), add_sub_cancel_left,
      show i - period + 1 = i + 1 - period by omega]
  · rw [sub_zero, show i + 1 - period = i - period by omega]

/-- The moving average of defined values. -/
theorem calcSMA_series [IsStrictOrderedRing F] (hperiod : 1 ≤ period) :
    calcSMA (series n fun i => real (y i)) period = series n (smaEntry y period) := by
  have hp : (period : F) ≠ 0 := Nat.cast_ne_zero.mpr (by omega)
  have hloop := forLoop_spec (k := 0) (n := n)
    (f := smaTurn (series n fun i => real (y i)) period)
    (s := ((real 0 : Number F), List.replicate n nan))
    (fun i s => s.1 = real (∑ j ∈ Finset.Ico (i - period) i, y j) ∧
      Filled n (smaEntry y period) (fun _ => nan) i s.2) n.zero_le ?_ ?_
  · rw [calcSMA, length_series]
    exact hloop.2.eq_series
  · refine ⟨?_, filled_replicate n fun j hj => absurd hj j.not_lt_zero⟩
    rw [Nat.zero_sub, Finset.Ico_self, Finset.sum_empty]
  · rintro i s - hi ⟨hsum, hfilled⟩
    have hnext : (smaTurn (series n fun i => real (y i)) period i s).1 =
        real (∑ j ∈ Finset.Ico (i + 1 - period) (i + 1), y j) := by
      rw [sum_window_succ y i hperiod, smaTurn]
      dsimp only
      rw [hsum, getD_series hi, Number.real_add_real]
      split_ifs with hback
      · rw [getD_series (by omega), Number.real_sub_real]
      · rw [sub_zero]
    refine ⟨hnext, ?_⟩
    change Filled n _ _ (i + 1) (if period ≤ i + 1 then
      s.2.set i ((smaTurn (series n fun i => real (y i)) period i s).1 / real (period : F)) else s.2)
    rw [hnext, Number.real_div_real _ hp]
    split_ifs with hlong
    · have hentry : smaEntry y period i = _ := if_neg (Nat.not_lt.mpr hlong)
      rw [← hentry]
      exact hfilled.set
    · exact hfilled.skip (if_pos (Nat.lt_of_not_le hlong))

end Sma

section Lines

variable {highs lows closes : List F} {kPeriod dPeriod n i start stop : ℕ}

/-- The loop over a window finds a high and a low that no bar of it exceeds. -/
theorem widen_spec (highs lows : List F) (hlt : start < stop) :
    ∃ hh ll, forLoop start stop (widen highs lows) (none, none) = (some hh, some ll) ∧
      ∀ j, start ≤ j → j < stop → highs.getD j 0 ≤ hh ∧ ll ≤ lows.getD j 0 := by
  have hloop := forLoop_spec (f := widen highs lows) (s := (none, none))
    (fun i s => start = i ∧ s = (none, none) ∨ ∃ hh ll, s = (some hh, some ll) ∧
      ∀ j, start ≤ j → j < i → highs.getD j 0 ≤ hh ∧ ll ≤ lows.getD j 0) hlt.le (Or.inl ⟨rfl, rfl⟩) ?_
  · rcases hloop with ⟨heq, -⟩ | hfound
    · exact absurd heq hlt.ne
    · exact hfound
  · rintro i s - - (⟨rfl, rfl⟩ | ⟨hh, ll, rfl, hbound⟩)
    · refine Or.inr ⟨highs.getD start 0, lows.getD start 0, rfl, fun j hj hlt => ?_⟩
      obtain rfl : j = start := by omega
      exact ⟨le_rfl, le_rfl⟩
    · refine Or.inr ⟨max hh (highs.getD i 0), min (lows.getD i 0) ll, ?_, fun j hj hlt => ?_⟩
      · simp only [widen, Option.all_some, decide_eq_true_eq, max_def_lt, min_def_lt, apply_ite some]
      · rcases Nat.lt_succ_iff_lt_or_eq.mp hlt with hlt | rfl
        · exact ⟨le_max_of_le_left (hbound j hj hlt).1, min_le_of_right_le (hbound j hj hlt).2⟩
        · exact ⟨le_max_right _ _, min_le_left _ _⟩

/-- %K of a bar, once there are enough. -/
def kEntry (highs lows closes : List F) (kPeriod i : ℕ) : Number F :=
  if i + 1 < kPeriod then nan else percentK highs lows closes kPeriod i

/-- %K is from 0 to 100 where the close lies within its bar. -/
theorem percentK_spec [IsStrictOrderedRing F] (highs lows closes : List F) (hk : 1 ≤ kPeriod) (i : ℕ) :
    ∃ x, percentK highs lows closes kPeriod i = real x ∧
      (lows.getD i 0 ≤ closes.getD i 0 → closes.getD i 0 ≤ highs.getD i 0 → 0 ≤ x ∧ x ≤ 100) := by
  obtain ⟨hh, ll, hfound, hbound⟩ := widen_spec highs lows (show i + 1 - kPeriod < i + 1 by omega)
  obtain ⟨hhigh, hlow⟩ := hbound i (by omega) (Nat.lt_succ_self i)
  rw [percentK, hfound]
  refine ⟨_, rfl, fun hfrom hto => ?_⟩
  have hnonneg : 0 ≤ closes.getD i 0 - ll := by linarith
  split_ifs with hrange
  · have hzero : closes.getD i 0 - ll = 0 := by linarith
    rw [hzero]
    norm_num
  · have hpos : 0 < hh - ll := lt_of_le_of_ne (by linarith) (Ne.symm hrange)
    have hle : (closes.getD i 0 - ll) / (hh - ll) ≤ 1 := (div_le_one hpos).mpr (by linarith)
    have hge : 0 ≤ (closes.getD i 0 - ll) / (hh - ll) := div_nonneg hnonneg hpos.le
    constructor <;> linarith

theorem kEntry_eq_nan_iff [IsStrictOrderedRing F] (hk : 1 ≤ kPeriod) :
    kEntry highs lows closes kPeriod i = nan ↔ i + 1 < kPeriod := by
  obtain ⟨x, hx, -⟩ := percentK_spec highs lows closes hk i
  rw [kEntry, hx]
  split_ifs with hshort
  · exact iff_of_true rfl hshort
  · exact iff_of_false (fun h => nomatch h) hshort

theorem lineK_eq (hk : 1 ≤ kPeriod) :
    lineK highs lows closes kPeriod = series closes.length (kEntry highs lows closes kPeriod) := by
  rcases le_or_gt closes.length (kPeriod - 1) with hshort | hlong
  · rw [lineK, forLoop, Nat.sub_eq_zero_of_le hshort]
    exact replicate_eq_series_of_blank fun j hj => if_pos (by omega)
  · refine (forLoop_spec (Filled closes.length (kEntry highs lows closes kPeriod) fun _ => nan) hlong.le
      (filled_replicate _ fun j hj => if_pos (by omega)) fun i k hi _ hfilled => ?_).eq_series
    have hi : kEntry highs lows closes kPeriod i = percentK highs lows closes kPeriod i := if_neg (by omega)
    exact hi ▸ hfilled.set

/-- Averages are masked where there is no %K, and count zeros elsewhere. -/
theorem lineD_series {entry : ℕ → Number F} [IsStrictOrderedRing F] (hd : 1 ≤ dPeriod) :
    lineD n (series n entry) dPeriod =
      series n fun i => if entry i = nan then nan else smaEntry (fun j => (entry j).value) dPeriod i := by
  have hnumbers : (series n entry).map (fun v => if v.isNaN then real 0 else v) =
      series n fun j => real (entry j).value := by
    rw [map_series]
    refine series_congr fun j _ => ?_
    cases entry j with
    | nan => rfl
    | real x => rfl
  rw [lineD, hnumbers, calcSMA_series hd]
  refine (forLoop_spec (Filled n _ _) n.zero_le (filled_zero n _ _) fun i d _ hi hfilled => ?_).eq_series
  rw [getD_series hi]
  split_ifs with hnan
  · have hnext := hfilled.set
    rwa [if_pos (Number.isNaN_iff.mp hnan)] at hnext
  · exact hfilled.skip (if_neg fun h => hnan (Number.isNaN_iff.mpr h))

theorem calcStochastic_eq [IsStrictOrderedRing F] (hk : 1 ≤ kPeriod) (hd : 1 ≤ dPeriod) :
    calcStochastic highs lows closes kPeriod dPeriod =
      { k := series closes.length (kEntry highs lows closes kPeriod)
        d := series closes.length fun i => if kEntry highs lows closes kPeriod i = nan then nan else
          smaEntry (fun j => (kEntry highs lows closes kPeriod j).value) dPeriod i } := by
  rw [calcStochastic, lineK_eq hk, lineD_series hd]

/-- %D is as asked at a bar, unless the bar has a %K but not all of the last ones have. -/
theorem averagesAt_iff [IsStrictOrderedRing F] (hk : 1 ≤ kPeriod) (hd : 1 ≤ dPeriod) (hi : i < closes.length) :
    (calcStochastic highs lows closes kPeriod dPeriod).AveragesAt dPeriod i ↔
      ¬ (kPeriod ≤ i + 1 ∧ dPeriod ≤ i + 1 ∧ i + 2 < kPeriod + dPeriod) := by
  have hread : ∀ j ∈ Finset.Ico (i + 1 - dPeriod) (i + 1),
      (series closes.length (kEntry highs lows closes kPeriod)).getD j nan = kEntry highs lows closes kPeriod j :=
    fun j hj => getD_series ((Finset.mem_Ico.mp hj).2.trans_le hi) nan
  have hall : (∀ j ∈ Finset.Ico (i + 1 - dPeriod) (i + 1),
      (series closes.length (kEntry highs lows closes kPeriod)).getD j nan ≠ nan) ↔
        kPeriod ≤ i + 1 - dPeriod + 1 := by
    constructor
    · intro h
      have hmem : i + 1 - dPeriod ∈ Finset.Ico (i + 1 - dPeriod) (i + 1) := Finset.mem_Ico.mpr (by omega)
      have hfirst := h _ hmem
      rw [hread _ hmem, ne_eq, kEntry_eq_nan_iff hk] at hfirst
      exact Nat.not_lt.mp hfirst
    · intro h j hj
      rw [hread j hj, ne_eq, kEntry_eq_nan_iff hk]
      have := (Finset.mem_Ico.mp hj).1
      omega
  rw [Stochastic.AveragesAt, calcStochastic_eq hk hd, getD_series hi,
    Finset.sum_congr rfl fun j hj => congrArg Number.value (hread j hj)]
  simp only [hall, kEntry_eq_nan_iff hk, smaEntry]
  split_ifs
  all_goals first
    | exact iff_of_true rfl (by omega)
    | exact iff_of_false (fun h => nomatch h) (by omega)

/-- What is defined of both lines is from 0 to 100 where the closes lie within their bars. -/
theorem bounded_calcStochastic [IsStrictOrderedRing F] (hk : 1 ≤ kPeriod) (hd : 1 ≤ dPeriod)
    (hwithin : ∀ i < closes.length, lows.getD i 0 ≤ closes.getD i 0 ∧ closes.getD i 0 ≤ highs.getD i 0) :
    (calcStochastic highs lows closes kPeriod dPeriod).Bounded := by
  have hvalue : ∀ i < closes.length, 0 ≤ (kEntry highs lows closes kPeriod i).value ∧
      (kEntry highs lows closes kPeriod i).value ≤ 100 := by
    intro i hi
    obtain ⟨x, hx, hbound⟩ := percentK_spec highs lows closes hk i
    rw [kEntry, hx]
    split_ifs
    · exact ⟨le_rfl, by norm_num [Number.value]⟩
    · exact hbound (hwithin i hi).1 (hwithin i hi).2
  intro x hx
  rw [calcStochastic_eq hk hd, mem_series, mem_series] at hx
  obtain ⟨i, hi, heq⟩ | ⟨i, hi, heq⟩ := hx
  · have hbound := hvalue i hi
    rwa [heq] at hbound
  · simp only [smaEntry] at heq
    split_ifs at heq with hnan hfew
    obtain rfl := (Number.real.inj heq).symm
    have hp : (0 : F) < dPeriod := Nat.cast_pos.mpr hd
    have hcard : (Finset.Ico (i + 1 - dPeriod) (i + 1)).card = dPeriod := by
      rw [Nat.card_Ico]
      omega
    have hmem : ∀ j ∈ Finset.Ico (i + 1 - dPeriod) (i + 1), j < closes.length :=
      fun j hj => (Finset.mem_Ico.mp hj).2.trans_le hi
    constructor
    · exact div_nonneg (Finset.sum_nonneg fun j hj => (hvalue j (hmem j hj)).1) hp.le
    · rw [div_le_iff₀ hp, mul_comm]
      have hle := Finset.sum_le_card_nsmul _ _ _ fun j hj => (hvalue j (hmem j hj)).2
      rwa [hcard, nsmul_eq_mul] at hle

end Lines

end TradingSim.Dashboard
