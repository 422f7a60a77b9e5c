import Mathlib.Algebra.Order.Field.Rat
import Mathlib.Algebra.Order.Interval.Set.SuccPred
import TradingSim.Foundations.Series

/-!
# The parabolic stop

The stop follows the trend and moves to the other side at a reversal, where it becomes the extreme price
of the trend that ended. The extreme is the one before the bar that reverses, and at first it is a low
although the trend counts as a rise. Elsewhere the stop is held outside the bar.
-/

namespace TradingSim.Dashboard

open Foundations
open Number (nan real)

variable {F : Type*} [Field F] [LinearOrder F]

/-- The trend, the acceleration, the extreme price and the stop after a bar. -/
structure Sar (F : Type*) where
  bull : Bool
  af : F
  ep : F
  sarVal : F

namespace Sar

/-- The stop moves towards the extreme price. -/
def moved (s : Sar F) : F := s.sarVal + s.af * (s.ep - s.sarVal)

/-- A bar on the other side of the stop reverses the trend. -/
def Reverses (high low : ℕ → F) (i : ℕ) (s : Sar F) : Prop :=
  s.bull = true ∧ low i < s.moved ∨ s.bull = false ∧ s.moved < high i

instance (high low : ℕ → F) (i : ℕ) (s : Sar F) : Decidable (s.Reverses high low i) :=
  inferInstanceAs (Decidable (_ ∨ _))

/-- One turn of the loop. -/
def turn (high low : ℕ → F) (step maxStep : F) (i : ℕ) (s : Sar F) : Sar F :=
  if s.bull then
    if low i < s.moved then { bull := false, af := step, ep := low i, sarVal := s.ep }
    else
      { bull := true
        af := if s.ep < high i then min (s.af + step) maxStep else s.af
        ep := if s.ep < high i then high i else s.ep
        sarVal := min s.moved (min (low (i - 1)) (low (i - 2))) }
  else
    if s.moved < high i then { bull := true, af := step, ep := high i, sarVal := s.ep }
    else
      { bull := false
        af := if low i < s.ep then min (s.af + step) maxStep else s.af
        ep := if low i < s.ep then low i else s.ep
        sarVal := max s.moved (max (high (i - 1)) (high (i - 2))) }

theorem turn_cases (high low : ℕ → F) (step maxStep : F) (i : ℕ) (s : Sar F) :
    (s.bull = true ∧ s.Reverses high low i ∧ s.turn high low step maxStep i = ⟨false, step, low i, s.ep⟩) ∨
    (s.bull = true ∧ ¬ s.Reverses high low i ∧ ∃ af v, v ≤ low i ∧
      s.turn high low step maxStep i = ⟨true, af, max s.ep (high i), v⟩) ∨
    (s.bull = false ∧ s.Reverses high low i ∧
      s.turn high low step maxStep i = ⟨true, step, high i, s.ep⟩) ∨
    (s.bull = false ∧ ¬ s.Reverses high low i ∧ ∃ af v, high i ≤ v ∧
      s.turn high low step maxStep i = ⟨false, af, min (low i) s.ep, v⟩) := by
  cases hbull : s.bull with
  | true =>
    by_cases hlt : low i < s.moved
    · exact Or.inl ⟨rfl, Or.inl ⟨hbull, hlt⟩, by rw [turn, if_pos hbull, if_pos hlt]⟩
    · refine Or.inr (Or.inl ⟨rfl, ?_, _, min s.moved (min (low (i - 1)) (low (i - 2))),
        (min_le_left _ _).trans (not_lt.mp hlt), by rw [turn, if_pos hbull, if_neg hlt, max_def_lt]⟩)
      rintro (⟨-, h⟩ | ⟨h, -⟩)
      · exact hlt h
      · exact nomatch hbull.symm.trans h
  | false =>
    have hbull' : ¬ s.bull = true := fun h => nomatch hbull.symm.trans h
    by_cases hlt : s.moved < high i
    · exact Or.inr (Or.inr (Or.inl ⟨rfl, Or.inr ⟨hbull, hlt⟩, by rw [turn, if_neg hbull', if_pos hlt]⟩))
    · refine Or.inr (Or.inr (Or.inr ⟨rfl, ?_, _, max s.moved (max (high (i - 1)) (high (i - 2))),
        (not_lt.mp hlt).trans (le_max_left _ _), by rw [turn, if_neg hbull', if_neg hlt, min_def_lt (low i)]⟩))
      rintro (⟨h, -⟩ | ⟨-, h⟩)
      · exact hbull' h
      · exact hlt h

end Sar

/-- The stops of all bars but the first one. -/
def calcParabolicSAR (highs lows : List F) (step maxStep : F) : List (Number F) :=
  let n := highs.length
  let sar := List.replicate n nan
  if n < 2 then sar
  else
    (forLoop 1 n
      (fun i (t : Sar F × List (Number F)) =>
        let s := t.1.turn (highs.getD · 0) (lows.getD · 0) step maxStep i
        (s, t.2.set i (real s.sarVal)))
      (⟨true, step, lows.getD 0 0, highs.getD 0 0⟩, sar)).2

section Bars

variable (high low : ℕ → F) (step maxStep : F)

/-- The state after a bar. -/
def sarAt : ℕ → Sar F := recur 0 ⟨true, step, low 0, high 0⟩ (Sar.turn high low step maxStep)

/-- The bar with which the trend after a bar began. -/
def began : ℕ → ℕ :=
  recur 0 0 fun i start =>
    if (sarAt high low step maxStep (i - 1)).Reverses high low i then i else start

/-- The stop after a bar is outside of it. -/
def StaysOutside (i : ℕ) : Prop :=
  let s := sarAt high low step maxStep i
  if s.bull then s.sarVal ≤ low i else high i ≤ s.sarVal

/-- The stop after a reversal is the extreme price of the trend that the bar ends. -/
def StopsAtExtreme (i : ℕ) : Prop :=
  let s := sarAt high low step maxStep (i - 1)
  let trend := Set.Icc (began high low step maxStep (i - 1)) i
  s.Reverses high low i →
    if s.bull then IsGreatest (high '' trend) (sarAt high low step maxStep i).sarVal
    else IsLeast (low '' trend) (sarAt high low step maxStep i).sarVal

/-- A bar that reverses the trend does not go beyond the extreme price before it, and neither does the
first bar. -/
def Covered (i : ℕ) : Prop :=
  let s := sarAt high low step maxStep (i - 1)
  s.Reverses high low i →
    if s.bull then high i ≤ s.ep ∧ (began high low step maxStep (i - 1) = 0 → high 0 ≤ s.ep) else s.ep ≤ low i

/-- What the extreme price is of: the highs of a rise, of the first one without its first bar, or the lows
of a fall. -/
def Tracks (i : ℕ) : Prop :=
  let s := sarAt high low step maxStep i
  let start := began high low step maxStep i
  if s.bull then
    (∀ j, start ≤ j → j ≤ i → j ≠ 0 → high j ≤ s.ep) ∧
      (s.ep ∈ high '' Set.Icc start i ∨ start = 0 ∧ s.ep = low 0)
  else IsLeast (low '' Set.Icc start i) s.ep

end Bars

section Steps

variable {high low : ℕ → F} {step maxStep : F} {i : ℕ}

theorem sarAt_succ (high low : ℕ → F) (step maxStep : F) (i : ℕ) : sarAt high low step maxStep (i + 1) =
    (sarAt high low step maxStep i).turn high low step maxStep (i + 1) := recur_succ i.zero_le

theorem began_succ (i : ℕ) : began high low step maxStep (i + 1) =
    if (sarAt high low step maxStep i).Reverses high low (i + 1) then i + 1
    else began high low step maxStep i := recur_succ i.zero_le

theorem began_le (high low : ℕ → F) (step maxStep : F) (i : ℕ) : began high low step maxStep i ≤ i := by
  induction i with
  | zero => exact le_rfl
  | succ i ih =>
    rw [began_succ]
    split_ifs
    · exact le_rfl
    · exact Nat.le_succ_of_le ih

theorem tracks (i : ℕ) : Tracks high low step maxStep i := by
  induction i with
  | zero => exact ⟨fun j _ hj hne => absurd (Nat.le_zero.mp hj) hne, Or.inr ⟨rfl, rfl⟩⟩
  | succ i ih =>
    have hstart := began_le high low step maxStep i
    unfold Tracks at ih ⊢
    rw [sarAt_succ, began_succ]
    obtain ⟨hbull, hrev, hturn⟩ | ⟨hbull, hrev, af, v, -, hturn⟩ | ⟨hbull, hrev, hturn⟩ |
      ⟨hbull, hrev, af, v, -, hturn⟩ := (sarAt high low step maxStep i).turn_cases high low step maxStep (i + 1)
    · rw [hturn, if_pos hrev]
      simp
    · rw [hturn, if_neg hrev]
      simp only [hbull, if_true] at ih ⊢
      refine ⟨fun j hj hle hne => ?_, ?_⟩
      · rcases Nat.le_succ_iff.mp hle with hle | rfl
        · exact le_max_of_le_left (ih.1 j hj hle hne)
        · exact le_max_right _ _
      · rcases le_total (high (i + 1)) (sarAt high low step maxStep i).ep with hle | hle
        · rw [max_eq_left hle]
          exact ih.2.imp_left (Set.image_mono (Set.Icc_subset_Icc_right i.le_succ) ·)
        · rw [max_eq_right hle]
          exact Or.inl ⟨i + 1, ⟨by omega, le_rfl⟩, rfl⟩
    · rw [hturn, if_pos hrev]
      simp only [if_true]
      refine ⟨fun j hj hle _ => (le_antisymm hle hj) ▸ le_rfl, Or.inl ⟨i + 1, ⟨le_rfl, le_rfl⟩, rfl⟩⟩
    · rw [hturn, if_neg hrev]
      simp only [hbull, if_false, Bool.false_eq_true] at ih ⊢
      rw [← Set.insert_Icc_right_eq_Icc_add_one (by omega), Set.image_insert_eq]
      exact ih.insert _

theorem isGreatest_ep_iff (hfirst : low 0 ≤ high 0) (hbull : (sarAt high low step maxStep i).bull = true) :
    IsGreatest (high '' Set.Icc (began high low step maxStep i) (i + 1)) (sarAt high low step maxStep i).ep ↔
      high (i + 1) ≤ (sarAt high low step maxStep i).ep ∧
        (began high low step maxStep i = 0 → high 0 ≤ (sarAt high low step maxStep i).ep) := by
  have hle := began_le high low step maxStep i
  have htracks : Tracks high low step maxStep i := tracks i
  simp only [Tracks, hbull, if_true] at htracks
  obtain ⟨hbound, hep⟩ := htracks
  constructor
  · intro h
    exact ⟨h.2 ⟨i + 1, ⟨by omega, le_rfl⟩, rfl⟩, fun hzero => h.2 ⟨0, ⟨hzero.le, Nat.zero_le _⟩, rfl⟩⟩
  · rintro ⟨hlast, hopening⟩
    constructor
    · rcases hep with ⟨j, hj, heq⟩ | ⟨hzero, heq⟩
      · exact ⟨j, ⟨hj.1, Nat.le_succ_of_le hj.2⟩, heq⟩
      · exact ⟨0, ⟨hzero.le, Nat.zero_le _⟩, le_antisymm (hopening hzero) (heq ▸ hfirst)⟩
    · rintro _ ⟨j, hj, rfl⟩
      rcases Nat.le_succ_iff.mp hj.2 with hji | rfl
      · by_cases hj0 : j = 0
        · exact hj0 ▸ hopening (Nat.le_zero.mp (hj0 ▸ hj.1))
        · exact hbound j hj.1 hji hj0
      · exact hlast

theorem isLeast_ep_iff (hbull : (sarAt high low step maxStep i).bull = false) :
    IsLeast (low '' Set.Icc (began high low step maxStep i) (i + 1)) (sarAt high low step maxStep i).ep ↔
      (sarAt high low step maxStep i).ep ≤ low (i + 1) := by
  have hle := began_le high low step maxStep i
  have htracks : Tracks high low step maxStep i := tracks i
  simp only [Tracks, hbull, Bool.false_eq_true, if_false] at htracks
  constructor
  · exact fun h => h.2 ⟨i + 1, ⟨by omega, le_rfl⟩, rfl⟩
  · intro h
    rw [← Set.insert_Icc_right_eq_Icc_add_one (by omega), Set.image_insert_eq]
    have hinsert := htracks.insert (low (i + 1))
    rwa [min_eq_right h] at hinsert

/-- The stop is outside of every bar that does not reverse the trend. At a reversal it is as asked exactly
if the bar is covered. -/
theorem correct_iff_covered (hfirst : low 0 ≤ high 0) (i : ℕ) :
    StaysOutside high low step maxStep (i + 1) ∧ StopsAtExtreme high low step maxStep (i + 1) ↔
      Covered high low step maxStep (i + 1) := by
  unfold StaysOutside StopsAtExtreme Covered
  simp only [Nat.add_sub_cancel, sarAt_succ]
  obtain ⟨hbull, hrev, hturn⟩ | ⟨hbull, hrev, af, v, hv, hturn⟩ | ⟨hbull, hrev, hturn⟩ |
    ⟨hbull, hrev, af, v, hv, hturn⟩ := (sarAt high low step maxStep i).turn_cases high low step maxStep (i + 1)
  · simp only [hturn, hbull, hrev, Bool.false_eq_true, if_false, if_true, true_implies,
      isGreatest_ep_iff hfirst hbull]
    exact and_iff_right_of_imp And.left
  · simp [hturn, hrev, hv]
  · simp only [hturn, hbull, hrev, Bool.false_eq_true, if_false, if_true, true_implies, isLeast_ep_iff hbull,
      and_self]
  · simp [hturn, hrev, hv]

end Steps

theorem calcParabolicSAR_eq (highs lows : List F) (step maxStep : F) :
    calcParabolicSAR highs lows step maxStep = series highs.length fun i =>
      if i = 0 then nan else real (sarAt (highs.getD · 0) (lows.getD · 0) step maxStep i).sarVal := by
  rw [calcParabolicSAR]
  split_ifs with hshort
  · exact replicate_eq_series_of_blank fun j hj => if_pos (by omega)
  · refine (forLoop_spec
      (fun i (t : Sar F × List (Number F)) => t.1 = sarAt (highs.getD · 0) (lows.getD · 0) step maxStep (i - 1) ∧
        Filled highs.length (fun i => if i = 0 then nan else
          real (sarAt (highs.getD · 0) (lows.getD · 0) step maxStep i).sarVal) (fun _ => nan) i t.2)
      (by omega) ⟨rfl, filled_replicate _ fun j hj => if_pos (by omega)⟩ ?_).2.eq_series
    rintro i ⟨s, sar⟩ hi - ⟨rfl, hfilled⟩
    obtain ⟨i, rfl⟩ : ∃ j, i = j + 1 := ⟨i - 1, by omega⟩
    have hturn := sarAt_succ (highs.getD · 0) (lows.getD · 0) step maxStep i
    refine ⟨hturn.symm, ?_⟩
    have hset := hfilled.set
    rw [if_neg i.succ_ne_zero, hturn] at hset
    exact hset

/-- The stop is outside of every bar, and at each reversal the extreme price of the trend that the bar
ends, exactly if all bars are covered. -/
theorem calcParabolicSAR_correct_iff (highs lows : List F) (step maxStep : F)
    (hbars : ∀ i < highs.length, lows.getD i 0 ≤ highs.getD i 0) :
    let high := (highs.getD · 0)
    let low := (lows.getD · 0)
    (∀ i, 1 ≤ i → i < highs.length →
      (calcParabolicSAR highs lows step maxStep).getD i nan = real (sarAt high low step maxStep i).sarVal ∧
        StaysOutside high low step maxStep i ∧ StopsAtExtreme high low step maxStep i) ↔
      ∀ i, 1 ≤ i → i < highs.length → Covered high low step maxStep i := by
  intro high low
  refine forall_congr' fun i => forall_congr' fun hi => forall_congr' fun hlt => ?_
  obtain ⟨i, rfl⟩ : ∃ j, i = j + 1 := ⟨i - 1, by omega⟩
  rw [calcParabolicSAR_eq, getD_series hlt, if_neg i.succ_ne_zero, and_iff_right rfl]
  exact correct_iff_covered (hbars 0 (by omega)) i

/-- A rise that ends with a bar below its highs. -/
theorem calcParabolicSAR_correct_falling :
    let highs : List ℚ := [10, 12, 13, 9]
    let lows : List ℚ := [8, 11, 12, 5]
    (sarAt (highs.getD · 0) (lows.getD · 0) (1 / 50) (1 / 5) 3).bull = false ∧
      (calcParabolicSAR highs lows (1 / 50) (1 / 5)).getD 3 nan =
        real (sarAt (highs.getD · 0) (lows.getD · 0) (1 / 50) (1 / 5) 3).sarVal ∧
      StaysOutside (highs.getD · 0) (lows.getD · 0) (1 / 50) (1 / 5) 3 ∧
      StopsAtExtreme (highs.getD · 0) (lows.getD · 0) (1 / 50) (1 / 5) 3 := by
  intro highs lows
  refine ⟨by decide +kernel, (calcParabolicSAR_correct_iff highs lows (1 / 50) (1 / 5) (by decide)).mpr ?_ 3
    (by decide) (by decide)⟩
  intro i hi hlt
  have hcases : i = 1 ∨ i = 2 ∨ i = 3 := by
    change i < 4 at hlt
    omega
  rcases hcases with rfl | rfl | rfl
  · exact fun h => absurd h (by decide +kernel)
  · exact fun h => absurd h (by decide +kernel)
  · intro _
    decide +kernel

/-- The second bar rises above the first one, and is taken for the end of a rise whose extreme price was the
first low. -/
theorem not_calcParabolicSAR_correct_rising :
    let highs : List ℚ := [10, 11]
    let lows : List ℚ := [8, 9]
    calcParabolicSAR highs lows (1 / 50) (1 / 5) = [nan, real 8] ∧
      (sarAt (highs.getD · 0) (lows.getD · 0) (1 / 50) (1 / 5) 1).bull = false ∧
      ¬ StaysOutside (highs.getD · 0) (lows.getD · 0) (1 / 50) (1 / 5) 1 := by
  refine ⟨by decide +kernel, by decide +kernel, ?_⟩
  rw [StaysOutside]
  decide +kernel

end TradingSim.Dashboard
