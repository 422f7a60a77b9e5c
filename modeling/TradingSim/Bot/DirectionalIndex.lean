import Mathlib.Algebra.Order.BigOperators.Group.Finset
import Mathlib.Tactic.FieldSimp
import Mathlib.Tactic.Linarith
import TradingSim.Bot.TechnicalAnalysis

/-!
# The average directional index

The two paths of the index read the same ranges and movements, the arrays shifted by one bar against the
lists, and smooth them alike. A smoothed sum that is positive stays so, whatever comes: from the first bar on
that has an index, all have one, and the average has no holes.
-/

namespace TradingSim.Bot.TechnicalAnalysis

open Foundations
open Number (nan real)

variable {F : Type*} [Field F]

/-- The smoothed sum of the values from the first bar on. -/
def smoothedSum (x : ℕ → F) (p : ℕ) : ℕ → F :=
  recur p (∑ j ∈ Finset.range p, x (j + 1)) fun i w => w - w / p + x i

/-- The average of an index from the mean of its first values on. -/
def averageIndex (dx : ℕ → F) (p d : ℕ) : ℕ → F :=
  recur (d + p - 1) ((∑ j ∈ Finset.range p, dx (d + j)) / p) fun i average => (average * (p - 1) + dx i) / p

theorem averageIndex_sub {x y : ℕ → F} {p d e i j : ℕ} (hd : d + p - 1 ≤ i) (he : e + p - 1 ≤ i)
    (hsame : ∀ k, i < k → x k = y k) (hij : i ≤ j) : averageIndex x p d j - averageIndex y p e j =
      ((p - 1 : F) / p) ^ (j - i) * (averageIndex x p d i - averageIndex y p e i) := by
  induction j, hij using Nat.le_induction with
  | base => rw [Nat.sub_self, pow_zero, one_mul]
  | succ j hij ih =>
    have hx : averageIndex x p d (j + 1) = (averageIndex x p d j * (p - 1) + x (j + 1)) / p :=
      recur_succ (hd.trans hij)
    have hy : averageIndex y p e (j + 1) = (averageIndex y p e j * (p - 1) + y (j + 1)) / p :=
      recur_succ (he.trans hij)
    rw [hx, hy, hsame (j + 1) (by omega), Nat.succ_sub hij, pow_succ', mul_assoc, ← ih]
    ring

/-- The true range of each bar, and its movements up and down. -/
structure Moves (F : Type*) where
  tr : ℕ → F
  plusDm : ℕ → F
  minusDm : ℕ → F

namespace Moves

/-- The smoothed sums of the first bars. -/
def smoothed (m : Moves F) (n p : ℕ) : Smoothed F where
  atrW := series n (onward p (smoothedSum m.tr p))
  pdmW := series n (onward p (smoothedSum m.plusDm p))
  mdmW := series n (onward p (smoothedSum m.minusDm p))

variable [LinearOrder F]

/-- The movements read from lists of prices. -/
def ofPrices (h low cl : List F) : Moves F where
  tr := trueRangeAt h low cl
  plusDm i := movement (h.getD i 0 - h.getD (i - 1) 0) (low.getD (i - 1) 0 - low.getD i 0)
  minusDm i := movement (low.getD (i - 1) 0 - low.getD i 0) (h.getD i 0 - h.getD (i - 1) 0)

/-- The index of a bar, if there has been a range and a movement. -/
def dx (m : Moves F) (p i : ℕ) : Number F :=
  if p ≤ i ∧ 0 < smoothedSum m.tr p i ∧ 0 < smoothedSum m.plusDm p i + smoothedSum m.minusDm p i then
    real (100 * |smoothedSum m.plusDm p i - smoothedSum m.minusDm p i| /
      (smoothedSum m.plusDm p i + smoothedSum m.minusDm p i))
  else nan

/-- No range and no movement is negative. -/
structure Nonneg (m : Moves F) : Prop where
  tr : ∀ i, 0 ≤ m.tr i
  plusDm : ∀ i, 0 ≤ m.plusDm i
  minusDm : ∀ i, 0 ≤ m.minusDm i

end Moves

/-! ### The loops -/

section Loops

variable {m : Moves F} {x : ℕ → F} {p n i : ℕ}

theorem forLoop_average {d : ℕ} {f : ℕ → List (Number F) → List (Number F)} (hp : 0 < p)
    (hn : d + p ≤ n) (hf : ∀ i result, d + p ≤ i → i < n → ∀ v, result.getD (i - 1) nan = real v →
      f i result = result.set i (real ((v * (p - 1) + x i) / p))) :
    forLoop (d + p) n f ((List.replicate n nan).set (d + p - 1)
      (real ((∑ j ∈ Finset.range p, x (d + j)) / p))) = series n (onward (d + p - 1) (averageIndex x p d)) := by
  obtain ⟨e, he⟩ : ∃ e, d + p = e + 1 := ⟨d + p - 1, by omega⟩
  unfold averageIndex
  rw [he, Nat.add_sub_cancel]
  exact forLoop_recur (by omega) fun i result hi hlt => hf i result (by omega) hlt

/-- Lists of ranges and movements that are filled up to a bar, after a blank for the first one. -/
structure Moves.Lists {α : Type*} (m : Moves α) (blank : α) (n i : ℕ) (l : Movements α) : Prop where
  plusDm : Filled n (Function.update m.plusDm 0 blank) (fun _ => blank) i l.plusDm
  minusDm : Filled n (Function.update m.minusDm 0 blank) (fun _ => blank) i l.minusDm
  tr : Filled n (Function.update m.tr 0 blank) (fun _ => blank) i l.tr

theorem forLoop_lists {α : Type*} {m : Moves α} {f : ℕ → Movements α → Movements α} (blank : α) (hn : 1 ≤ n)
    (hf : ∀ i l, 1 ≤ i → i < n →
      f i l = ⟨l.plusDm.set i (m.plusDm i), l.minusDm.set i (m.minusDm i), l.tr.set i (m.tr i)⟩) :
    forLoop 1 n f ⟨List.replicate n blank, List.replicate n blank, List.replicate n blank⟩ =
      ⟨series n (Function.update m.plusDm 0 blank), series n (Function.update m.minusDm 0 blank),
        series n (Function.update m.tr 0 blank)⟩ := by
  have hstart : m.Lists blank n 1
      ⟨List.replicate n blank, List.replicate n blank, List.replicate n blank⟩ := by
    have hblank (y : ℕ → α) :
        Filled n (Function.update y 0 blank) (fun _ => blank) 1 (List.replicate n blank) :=
      filled_replicate n fun j hj => by rw [Nat.lt_one_iff.mp hj, Function.update_self]
    exact ⟨hblank _, hblank _, hblank _⟩
  have hend := forLoop_spec (f := f) (m.Lists blank n) hn hstart fun i l hi hlt hl => by
    have hnext (y : ℕ → α) : Function.update y 0 blank i = y i := Function.update_of_ne (by omega) _ _
    rw [hf i l hi hlt]
    exact ⟨hl.plusDm.write (hnext _), hl.minusDm.write (hnext _), hl.tr.write (hnext _)⟩
  generalize forLoop 1 n f _ = l at hend ⊢
  obtain ⟨plusDm, minusDm, tr⟩ := l
  obtain ⟨hplus, hminus, htr⟩ := hend
  rw [← hplus.eq_series, ← hminus.eq_series, ← htr.eq_series]

/-- What a list that starts with a zero has after it. -/
theorem sum_tail (hn : p < n) :
    (((series n (Function.update x 0 0)).drop 1).take p).sum = ∑ j ∈ Finset.range p, x (j + 1) := by
  rw [drop_series, take_series (by omega), sum_series]
  exact Finset.sum_congr rfl fun j _ => by rw [Nat.add_comm, Function.update_of_ne (Nat.succ_ne_zero j)]

variable [LinearOrder F] {h low cl : List F}

theorem trueRanges_eq (hlow : low.length = h.length) (hcl : cl.length = h.length) :
    trueRanges h low cl = series (h.length - 1) fun j => trueRangeAt h low cl (j + 1) := by
  conv_lhs => rw [trueRanges, eq_series_getD h 0, eq_series_getD low 0, eq_series_getD cl 0, hlow, hcl]
  simp only [drop_series, zipWith_series, map_series, min_self, min_eq_left (Nat.sub_le _ _)]
  exact series_congr fun j _ => by rw [Nat.add_comm 1, trueRangeAt, Nat.add_sub_cancel]; rfl

theorem filled_wilder {old : ℕ → Number F} {w : List (Number F)}
    (h : Filled n (onward p (smoothedSum x p)) old i w) (hp : (p : F) ≠ 0) (hi : p < i) (hlt : i < n) :
    Filled n (onward p (smoothedSum x p)) old (i + 1) (wilder p i (x i) w) := by
  rw [wilder, h.last hi hlt.le, Number.real_div_real _ hp, Number.real_sub_real, Number.real_add_real]
  exact h.turn hi

/-- The sums are filled up to a bar. -/
structure Moves.Smooths (m : Moves F) (n p i : ℕ) (s : Smoothed F) : Prop where
  atrW : Filled n (onward p (smoothedSum m.tr p)) (fun _ => nan) i s.atrW
  pdmW : Filled n (onward p (smoothedSum m.plusDm p)) (fun _ => nan) i s.pdmW
  mdmW : Filled n (onward p (smoothedSum m.minusDm p)) (fun _ => nan) i s.mdmW

theorem forLoop_turn {f : ℕ → Smoothed F → Smoothed F} (hp : (p : F) ≠ 0) (hn : p < n)
    (hf : ∀ i s, p < i → i < n → f i s = s.turn p i (m.tr i) (m.plusDm i) (m.minusDm i)) :
    forLoop (p + 1) n f (.start n p (∑ j ∈ Finset.range p, m.tr (j + 1))
      (∑ j ∈ Finset.range p, m.plusDm (j + 1)) (∑ j ∈ Finset.range p, m.minusDm (j + 1))) =
        m.smoothed n p := by
  have hstart : m.Smooths n p (p + 1) (.start n p (∑ j ∈ Finset.range p, m.tr (j + 1))
      (∑ j ∈ Finset.range p, m.plusDm (j + 1)) (∑ j ∈ Finset.range p, m.minusDm (j + 1))) :=
    ⟨filled_seed .., filled_seed .., filled_seed ..⟩
  have hend := forLoop_spec (f := f) (m.Smooths n p) hn hstart fun i s hi hlt hs => by
    rw [hf i s hi hlt]
    exact ⟨filled_wilder hs.atrW hp hi hlt, filled_wilder hs.pdmW hp hi hlt,
      filled_wilder hs.mdmW hp hi hlt⟩
  generalize forLoop (p + 1) n f _ = s at hend ⊢
  obtain ⟨atrW, pdmW, mdmW⟩ := s
  obtain ⟨hatr, hpdm, hmdm⟩ := hend
  rw [Moves.smoothed, ← hatr.eq_series, ← hpdm.eq_series, ← hmdm.eq_series]

variable [IsStrictOrderedRing F]

/-- The index of the sums at one bar. -/
theorem dxAt_real (a u d : F) : dxAt (real a) (real u) (real d) =
    if 0 < a ∧ 0 < u + d then some (real (100 * |u - d| / (u + d))) else none := by
  unfold dxAt
  by_cases ha : 0 < a
  · have hscale : 100 * u / a + 100 * d / a = 100 / a * (u + d) := by ring
    have hdiff : 100 * u / a - 100 * d / a = 100 / a * (u - d) := by ring
    have hpos : 0 < 100 / a := div_pos (by norm_num) ha
    simp only [Number.real_mul_real, Number.real_div_real _ ha.ne', Number.real_add_real,
      Number.real_sub_real, Number.abs_real, Number.lt_real, Number.isNaN_real, hscale, hdiff, ha,
      mul_pos_iff_of_pos_left hpos, decide_true, Bool.not_false, Bool.and_self, if_true, true_and,
      decide_eq_true_eq, abs_mul, abs_of_pos hpos]
    split_ifs with hmoved
    · rw [Number.real_div_real _ (mul_pos hpos hmoved).ne', mul_left_comm, mul_div_mul_left _ _ hpos.ne']
    · rfl
  · simp [ha]

/-- The loop of the index. -/
theorem computeDx_eq (hn : p ≤ n) : computeDx (m.smoothed n p) n p = series n (m.dx p) := by
  have hblank : ∀ j < p, m.dx p j = nan := fun j hj => if_neg fun h => absurd h.1 (Nat.not_le.mpr hj)
  refine (forLoop_spec (Filled n (m.dx p) fun _ => nan) hn (filled_replicate n hblank)
    fun i dx hi hlt h => ?_).eq_series
  dsimp only [Moves.smoothed]
  rw [getD_series hlt, getD_series hlt, getD_series hlt, onward_of_le hi, onward_of_le hi, onward_of_le hi,
    dxAt_real]
  split_ifs with hmoved
  · exact h.write (if_pos ⟨hi, hmoved⟩)
  · exact h.skip (if_neg fun hdx => hmoved hdx.2)

/-- The path over arrays. -/
theorem adxNumpy_eq (hp : (p : F) ≠ 0) (hlow : low.length = h.length) (hcl : cl.length = h.length) :
    adxNumpy h low cl h.length p = if h.length ≤ p then none else
      some (smoothAdx (series h.length ((Moves.ofPrices h low cl).dx p)) h.length p) := by
  have hdown : List.zipWith (· - ·) low (low.drop 1) =
      series (h.length - 1) fun j => low.getD j 0 - low.getD (j + 1) 0 := by
    conv_lhs => rw [eq_series_getD low 0, hlow]
    rw [drop_series, zipWith_series, min_eq_right (Nat.sub_le _ _)]
    exact series_congr fun j _ => by rw [Nat.add_comm]
  rw [adxNumpy]
  dsimp only
  rw [trueRanges_eq hlow hcl, hdown, diff_eq, zipWith_series, zipWith_series, min_self]
  split_ifs with hn
  · rfl
  · rw [take_series (by omega), take_series (by omega), take_series (by omega), sum_series, sum_series,
      sum_series, computeDxNumpy, smoothAdxNumpy, ← computeDx_eq (by omega)]
    congr 3
    refine forLoop_turn (m := .ofPrices h low cl) hp (by omega) fun i s hi hlt => ?_
    rw [getD_series (by omega), getD_series (by omega), getD_series (by omega), Nat.sub_add_cancel (by omega)]
    rfl

/-- The path over lists. -/
theorem adxPure_eq (hp : (p : F) ≠ 0) (h low cl : List F) (n : ℕ) :
    adxPure h low cl n p = if n ≤ p then none else
      some (smoothAdx (series n ((Moves.ofPrices h low cl).dx p)) n p) := by
  rw [adxPure]
  dsimp only
  split_ifs with hn
  · rfl
  generalize hl : forLoop 1 n _ _ = l
  rw [hl.symm.trans (forLoop_lists (m := .ofPrices h low cl) 0 (by omega) fun i l _ _ => rfl)]
  dsimp only
  rw [sum_tail (by omega), sum_tail (by omega), sum_tail (by omega)]
  have hread {y : ℕ → F} {i : ℕ} (hi : p < i) (hlt : i < n) :
      (series n (Function.update y 0 0)).getD i 0 = y i := by
    rw [getD_series hlt, Function.update_of_ne (by omega)]
  generalize hs : forLoop (p + 1) n _ _ = s
  rw [hs.symm.trans (forLoop_turn (m := .ofPrices h low cl) hp (by omega) fun i s hi hlt => by
    rw [hread hi hlt, hread hi hlt, hread hi hlt]), computeDxPure, computeDx_eq (by omega),
    smoothAdxPure, length_series]

theorem smoothAdx_eq {dx : ℕ → Number F} {d : ℕ} (hp : 0 < p) (hbefore : ∀ j < d, dx j = nan)
    (hafter : ∀ j, d ≤ j → j < n → dx j ≠ nan) : smoothAdx (series n dx) n p =
      series n (onward (d + p - 1) (averageIndex (fun j => (dx j).value) p d)) := by
  have hperiod : (p : F) ≠ 0 := Nat.cast_ne_zero.mpr hp.ne'
  have hreal : ∀ j, d ≤ j → j < n → dx j = real (dx j).value := fun j hd hj => by
    cases hv : dx j with
    | nan => exact absurd hv (hafter j hd hj)
    | real v => rfl
  rw [smoothAdx]
  cases hfind : (series n dx).findIdx? fun v => !v.isNaN with
  | none =>
    -- no bar of the series has an index
    rw [List.findIdx?_eq_none_iff] at hfind
    have hlate : n ≤ d := by
      by_contra hd
      have hnan := hfind (dx d) (mem_series.mpr ⟨d, Nat.not_le.mp hd, rfl⟩)
      rw [hreal d le_rfl (Nat.not_le.mp hd)] at hnan
      cases hnan
    exact replicate_eq_series_of_blank fun j hj => onward_of_lt (by omega)
  | some k =>
    obtain ⟨hk, hfound, hfirst⟩ := List.findIdx?_eq_some_iff_getElem.mp hfind
    simp only [series, List.getElem_map, List.getElem_range] at hfound hfirst
    rw [length_series] at hk
    obtain rfl : k = d := by
      rcases lt_trichotomy k d with hkd | hkd | hkd
      · rw [hbefore k hkd] at hfound
        cases hfound
      · exact hkd
      · exact absurd (by rw [hreal d le_rfl (hkd.trans hk)]; rfl) (hfirst d hkd)
    dsimp only
    split_ifs with hlong
    · have hsum : Number.sum (((series n dx).drop k).take p) =
          real (∑ j ∈ Finset.range p, (dx (k + j)).value) := by
        have hvalues : ((series n dx).drop k).take p = (series p fun j => (dx (k + j)).value).map real := by
          rw [drop_series, take_series (by omega), map_series]
          exact series_congr fun j hj => hreal _ (by omega) (by omega)
        rw [hvalues, Number.sum_map_real, sum_series]
      rw [hsum, Number.real_div_real _ hperiod]
      refine forLoop_average (x := fun j => (dx j).value) hp hlong fun i result hi hlt v hv => ?_
      rw [getD_series hlt, hreal i (by omega) hlt, hv]
      exact congrArg (result.set i) (Number.real_div_real _ hperiod)
    · exact replicate_eq_series_of_blank fun j hj => onward_of_lt (by omega)

end Loops

/-! ### Ranges and movements -/

section Bounds

variable [LinearOrder F] {m : Moves F} {x : ℕ → F} {p i j : ℕ}

theorem movement_nonneg (move other : F) : 0 ≤ movement move other := by
  unfold movement
  split_ifs with h
  · exact h.2.le
  · exact le_rfl

theorem Moves.dx_ne_nan_iff : m.dx p i ≠ nan ↔
    p ≤ i ∧ 0 < smoothedSum m.tr p i ∧ 0 < smoothedSum m.plusDm p i + smoothedSum m.minusDm p i := by
  unfold dx
  split_ifs with h
  · exact iff_of_true (fun hc => nomatch hc) h
  · exact iff_of_false (not_not_intro rfl) h

/-- The index is of so many bars, its values are from 0 to 100, and it has no holes. -/
structure SoundIndex (n : ℕ) (result : List (Number F)) : Prop where
  length : result.length = n
  bounds : ∀ v, real v ∈ result → 0 ≤ v ∧ v ≤ 100
  noHoles : ∀ i j, i ≤ j → j < n → result.getD i nan ≠ nan → result.getD j nan ≠ nan

/-- A series of no values. -/
theorem sound_blank (n : ℕ) : SoundIndex n (List.replicate n (nan : Number F)) where
  length := List.length_replicate
  bounds v hv := nomatch List.eq_of_mem_replicate hv
  noHoles i j hij hj hdefined :=
    absurd (by rw [replicate_eq_series, getD_series (hij.trans_lt hj)]) hdefined

variable [IsStrictOrderedRing F]

theorem smoothedSum_next (hi : p ≤ i) :
    smoothedSum x p (i + 1) = smoothedSum x p i * (1 - 1 / p) + x (i + 1) := by
  rw [smoothedSum, recur_succ hi]
  ring

theorem smoothedSum_nonneg (hx : ∀ j, 0 ≤ x j) (hp : 0 < p) (hi : p ≤ i) : 0 ≤ smoothedSum x p i := by
  have hkept : (1 : F) / p ≤ 1 := (div_le_one (Nat.cast_pos.mpr hp)).mpr (Nat.one_le_cast.mpr hp)
  induction i, hi using Nat.le_induction with
  | base =>
    rw [smoothedSum, recur_self]
    exact Finset.sum_nonneg fun j _ => hx _
  | succ i hi ih =>
    rw [smoothedSum_next hi]
    exact add_nonneg (mul_nonneg ih (sub_nonneg.mpr hkept)) (hx _)

/-- A sum that is positive stays positive: of each bar a part remains. -/
theorem smoothedSum_pos (hx : ∀ j, 0 ≤ x j) (hp : 2 ≤ p) (hi : p ≤ i) (h : 0 < smoothedSum x p i)
    (hij : i ≤ j) : 0 < smoothedSum x p j := by
  have hkept : (1 : F) / p < 1 := (div_lt_one (by positivity)).mpr (Nat.one_lt_cast.mpr hp)
  induction j, hij using Nat.le_induction with
  | base => exact h
  | succ j hij ih =>
    rw [smoothedSum_next (hi.trans hij)]
    exact add_pos_of_pos_of_nonneg (mul_pos ih (sub_pos.mpr hkept)) (hx _)

theorem nonneg_ofPrices (h low cl : List F) : (Moves.ofPrices h low cl).Nonneg where
  tr _ := (abs_nonneg _).trans ((le_max_left _ _).trans (le_max_right _ _))
  plusDm _ := movement_nonneg _ _
  minusDm _ := movement_nonneg _ _

namespace Moves

/-- Once a bar has an index, all later ones have. -/
theorem Nonneg.dx_ne_nan (hm : m.Nonneg) (hp : 2 ≤ p) (h : m.dx p i ≠ nan) (hij : i ≤ j) :
    m.dx p j ≠ nan := by
  rw [dx_ne_nan_iff] at h ⊢
  obtain ⟨hi, htr, hmoved⟩ := h
  refine ⟨hi.trans hij, smoothedSum_pos hm.tr hp hi htr hij, ?_⟩
  have hplus := smoothedSum_nonneg hm.plusDm (by omega) (hi.trans hij)
  have hminus := smoothedSum_nonneg hm.minusDm (by omega) (hi.trans hij)
  rcases (smoothedSum_nonneg hm.plusDm (by omega) hi).lt_or_eq with hpos | hzero
  · exact add_pos_of_pos_of_nonneg (smoothedSum_pos hm.plusDm hp hi hpos hij) hminus
  · rw [← hzero, zero_add] at hmoved
    exact add_pos_of_nonneg_of_pos hplus (smoothedSum_pos hm.minusDm hp hi hmoved hij)

/-- The index is at most 100. -/
theorem Nonneg.dx_bounds (hm : m.Nonneg) (hp : 0 < p) : 0 ≤ (m.dx p i).value ∧ (m.dx p i).value ≤ 100 := by
  unfold dx
  split_ifs with h
  · have hplus := smoothedSum_nonneg hm.plusDm hp h.1
    have hminus := smoothedSum_nonneg hm.minusDm hp h.1
    have hdiff : |smoothedSum m.plusDm p i - smoothedSum m.minusDm p i| ≤
        smoothedSum m.plusDm p i + smoothedSum m.minusDm p i := abs_le.mpr ⟨by linarith, by linarith⟩
    refine ⟨div_nonneg (by positivity) h.2.2.le, (div_le_iff₀ h.2.2).mpr ?_⟩
    exact mul_le_mul_of_nonneg_left hdiff (by norm_num)
  · exact ⟨le_rfl, by norm_num [Number.value]⟩

end Moves

theorem averageIndex_bounds {dx : ℕ → F} (hdx : ∀ j, 0 ≤ dx j ∧ dx j ≤ 100) (hp : 0 < p) {d : ℕ}
    (hi : d + p - 1 ≤ i) : 0 ≤ averageIndex dx p d i ∧ averageIndex dx p d i ≤ 100 := by
  have hpos : (0 : F) < p := Nat.cast_pos.mpr hp
  have hone : (0 : F) ≤ p - 1 := sub_nonneg.mpr (Nat.one_le_cast.mpr hp)
  refine recur_invariant (fun _ a => 0 ≤ a ∧ a ≤ 100) ⟨?_, ?_⟩ (fun j a _ ha => ⟨?_, ?_⟩) hi
  · exact div_nonneg (Finset.sum_nonneg fun j _ => (hdx _).1) hpos.le
  · rw [div_le_iff₀ hpos, mul_comm, ← nsmul_eq_mul]
    exact (Finset.sum_le_card_nsmul _ _ _ fun j _ => (hdx _).2).trans_eq (by rw [Finset.card_range])
  · exact div_nonneg (add_nonneg (mul_nonneg ha.1 hone) (hdx _).1) hpos.le
  · rw [div_le_iff₀ hpos]
    linarith [mul_le_mul_of_nonneg_right ha.2 hone, (hdx (j + 1)).2]

theorem sound_onward {dx : ℕ → F} (hdx : ∀ j, 0 ≤ dx j ∧ dx j ≤ 100) (hp : 0 < p) (n d : ℕ) :
    SoundIndex n (series n (onward (d + p - 1) (averageIndex dx p d))) where
  length := length_series _ _
  bounds := by
    intro v hv
    obtain ⟨i, -, heq⟩ := mem_series.mp hv
    obtain ⟨hi, rfl⟩ := onward_eq_real_iff.mp heq
    exact averageIndex_bounds hdx hp hi
  noHoles := by
    intro i j hij hj hdefined
    rw [getD_series (hij.trans_lt hj), onward_ne_nan_iff] at hdefined
    rw [getD_series hj, onward_ne_nan_iff]
    exact hdefined.trans hij

theorem Moves.Nonneg.exists_first (hm : m.Nonneg) (hp : 2 ≤ p) (n : ℕ) :
    ∃ d, (∀ j < d, m.dx p j = nan) ∧ ∀ j, d ≤ j → j < n → m.dx p j ≠ nan := by
  by_cases hdefined : ∃ j, m.dx p j ≠ nan
  · refine ⟨Nat.find hdefined, fun j hj => not_not.mp (Nat.find_min hdefined hj), fun j hj _ => ?_⟩
    exact hm.dx_ne_nan hp (Nat.find_spec hdefined) hj
  · rw [not_exists] at hdefined
    exact ⟨n, fun j _ => not_not.mp (hdefined j), fun j hle hlt => absurd hlt (Nat.not_lt.mpr hle)⟩

theorem sound_smoothAdx (hm : m.Nonneg) (hp : 2 ≤ p) (n : ℕ) :
    SoundIndex n (smoothAdx (series n (m.dx p)) n p) := by
  obtain ⟨d, hbefore, hafter⟩ := hm.exists_first hp n
  rw [smoothAdx_eq (by omega) hbefore hafter]
  exact sound_onward (fun j => hm.dx_bounds (by omega)) (by omega) n d

/-- The movements of candles. -/
def movesOf (candles : List (Bar F)) : Moves F := .ofPrices (highs candles) (lows candles) (closes candles)

/-- What the paths return, which need a bar beyond the period. -/
theorem adx_eq (candles : List (Bar F)) (hp : 0 < p) :
    let n := candles.length
    let result := smoothAdx (series n ((movesOf candles).dx p)) n p
    (adxNumpy (highs candles) (lows candles) (closes candles) n p = if n ≤ p then none else some result) ∧
      (adxPure (highs candles) (lows candles) (closes candles) n p = if n ≤ p then none else some result) ∧
      adx adxNumpy candles p = some (if n < p * 2 + 1 then List.replicate n nan else result) ∧
      adx adxPure candles p = some (if n < p * 2 + 1 then List.replicate n nan else result) := by
  dsimp only
  have hperiod : (p : F) ≠ 0 := Nat.cast_ne_zero.mpr (by omega)
  have hhighs : (highs candles).length = candles.length := List.length_map _
  have hlows : (lows candles).length = (highs candles).length := by rw [hhighs, lows, List.length_map]
  have hcloses : (closes candles).length = (highs candles).length := by rw [hhighs, closes, List.length_map]
  have hnumpy := adxNumpy_eq hperiod hlows hcloses
  rw [hhighs] at hnumpy
  rw [adx, adx, hnumpy, adxPure_eq hperiod]
  refine ⟨rfl, rfl, ?_⟩
  by_cases hshort : candles.length < p * 2 + 1
  · rw [if_pos hshort, if_pos hshort]
    exact ⟨rfl, rfl⟩
  · rw [if_neg hshort, if_neg hshort, if_neg (by omega : ¬ candles.length ≤ p)]
    exact ⟨rfl, rfl⟩

/-- Both paths return the same index, which has no holes. -/
theorem adx_paths_agree (candles : List (Bar F)) (hp : 2 ≤ p) :
    let n := candles.length
    let numpy := adxNumpy (highs candles) (lows candles) (closes candles) n p
    let pure := adxPure (highs candles) (lows candles) (closes candles) n p
    numpy = pure ∧ (pure.isSome ↔ p < n) ∧ (∀ result ∈ pure, SoundIndex n result) ∧
      ∃ result, adx adxNumpy candles p = some result ∧ adx adxPure candles p = some result ∧
        SoundIndex n result := by
  have hsound := sound_smoothAdx (nonneg_ofPrices (highs candles) (lows candles) (closes candles)) hp
    candles.length
  obtain ⟨hnumpy, hpure, hadxNumpy, hadxPure⟩ := adx_eq candles (show 0 < p by omega)
  dsimp only
  rw [hnumpy, hpure, hadxNumpy, hadxPure]
  refine ⟨rfl, ?_, ?_, _, rfl, rfl, ?_⟩
  · split_ifs with hn
    · exact iff_of_false (fun h => nomatch h) (Nat.not_lt.mpr hn)
    · exact iff_of_true rfl (Nat.not_le.mp hn)
  · split_ifs with hn
    · exact fun result hresult => nomatch hresult
    · rintro result ⟨⟩
      exact hsound
  · split_ifs
    · exact sound_blank _
    · exact hsound

/-- Five bars of a rise, with a period of two. -/
theorem adx_paths_agree_rise : (adxPure (F := ℚ) [2, 3, 4, 5, 6] [1, 2, 3, 4, 5] [1, 3, 3, 5, 5] 5 2).isSome ∧
    (let candles : List (Bar ℚ) := [⟨2, 1, 1, 1⟩, ⟨3, 2, 3, 1⟩, ⟨4, 3, 3, 1⟩, ⟨5, 4, 5, 1⟩, ⟨6, 5, 5, 1⟩]
    ∃ result, adx adxNumpy candles 2 = some result ∧ adx adxPure candles 2 = some result ∧
      SoundIndex 5 result) := by
  have hagree := adx_paths_agree
    ([⟨2, 1, 1, 1⟩, ⟨3, 2, 3, 1⟩, ⟨4, 3, 3, 1⟩, ⟨5, 4, 5, 1⟩, ⟨6, 5, 5, 1⟩] : List (Bar ℚ)) (le_refl 2)
  exact ⟨hagree.2.1.mpr (by decide), hagree.2.2.2⟩

end Bounds

end TradingSim.Bot.TechnicalAnalysis
