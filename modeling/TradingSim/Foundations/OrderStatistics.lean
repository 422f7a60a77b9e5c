import Mathlib.Algebra.Order.Floor.Semiring
import Mathlib.Algebra.Order.Ring.Cast
import Mathlib.Data.Finset.Max
import Mathlib.Data.List.Count
import Mathlib.Data.List.GetD
import Mathlib.Data.List.Sort
import Mathlib.Data.Nat.Cast.Order.Ring
import Mathlib.Order.Bounds.Basic
import Mathlib.Tactic.Linarith
import Mathlib.Tactic.Ring
import TradingSim.Foundations.Loops

/-!
# Order statistics and quantiles

A value of a sorted list is at most a bound exactly if its index is less than the number of values that are.

The quantile for a target count is the least of the values up to which there are that many.
-/

namespace Foundations

section Statistics

section Ranks

variable {α : Type*} [LinearOrder α]

/-- In a sorted list, the values up to a bound are the first ones. -/
theorem getElem_le_iff_of_pairwise {l : List α} (h : l.Pairwise (· ≤ ·)) {k : ℕ} (hk : k < l.length)
    (bound : α) : l[k] ≤ bound ↔ k < l.countP (· ≤ bound) := by
  induction l generalizing k with
  | nil => cases hk
  | cons a rest ih =>
    rw [List.pairwise_cons] at h
    by_cases ha : a ≤ bound
    · rw [List.countP_cons_of_pos (by simpa using ha)]
      cases k with
      | zero => exact iff_of_true ha (Nat.succ_pos _)
      | succ k =>
        rw [List.getElem_cons_succ, ih h.2 (Nat.lt_of_succ_lt_succ hk), Nat.succ_lt_succ_iff]
    · have hnone : rest.countP (· ≤ bound) = 0 := by
        rw [List.countP_eq_zero]
        intro b hb
        simpa using (not_le.mp ha).trans_le (h.1 b hb)
      rw [List.countP_cons_of_neg (by simpa using ha), hnone]
      refine iff_of_false ?_ (Nat.not_lt_zero k)
      cases k with
      | zero => exact ha
      | succ k => exact not_le.mpr ((not_le.mp ha).trans_le (h.1 _ (List.getElem_mem _)))

theorem countP_le_of_isLeast {l : List α} {least : α} (h : IsLeast {x | x ∈ l} least) :
    l.countP (· ≤ least) = l.count least := by
  refine List.countP_congr fun x hx => ?_
  have hle : least ≤ x := h.2 hx
  rw [decide_eq_true_eq, beq_iff_eq]
  exact ⟨fun hx => le_antisymm hx hle, fun hx => hx.le⟩

variable [Zero α]

/-- The value with an index in the sorted list, or the last one. -/
def orderStatistic (l : List α) (k : ℕ) : α := (l.mergeSort (· ≤ ·)).getD (min k (l.length - 1)) 0

variable {l : List α} {k : ℕ}

theorem orderStatistic_eq (hne : l ≠ []) (k : ℕ) : ∃ hk : min k (l.length - 1) < (l.mergeSort (· ≤ ·)).length,
    orderStatistic l k = (l.mergeSort (· ≤ ·))[min k (l.length - 1)] := by
  have hk : min k (l.length - 1) < (l.mergeSort (· ≤ ·)).length := by
    have hpos := List.length_pos_iff.mpr hne
    rw [List.length_mergeSort]
    omega
  exact ⟨hk, List.getD_eq_getElem _ _ hk⟩

/-- An order statistic is one of the values. -/
theorem orderStatistic_mem (hne : l ≠ []) (k : ℕ) : orderStatistic l k ∈ l := by
  obtain ⟨hk, heq⟩ := orderStatistic_eq hne k
  rw [heq]
  exact List.mem_mergeSort.mp (List.getElem_mem hk)

/-- Order statistics are in order. -/
theorem orderStatistic_mono (hne : l ≠ []) : Monotone (orderStatistic l) := by
  intro j k hjk
  obtain ⟨hj, hj'⟩ := orderStatistic_eq hne j
  obtain ⟨hk, hk'⟩ := orderStatistic_eq hne k
  rw [hj', hk']
  have hsorted : (l.mergeSort (· ≤ ·)).Pairwise (· ≤ ·) := List.pairwise_mergeSort' _ l
  rcases (Nat.le_iff_lt_or_eq.mp (min_le_min_right (l.length - 1) hjk)) with hlt | heq
  · exact List.pairwise_iff_getElem.mp hsorted _ _ hj hk hlt
  · simp only [heq, le_refl]

/-- The least value is passed as soon as all its copies are. -/
theorem lt_orderStatistic_iff {least : α} (h : IsLeast {x | x ∈ l} least) (hk : k ≤ l.length - 1) :
    least < orderStatistic l k ↔ l.count least ≤ k := by
  have hne : l ≠ [] := List.ne_nil_of_mem h.1
  obtain ⟨hindex, heq⟩ := orderStatistic_eq hne k
  have hsorted : (l.mergeSort (· ≤ ·)).Pairwise (· ≤ ·) := List.pairwise_mergeSort' _ l
  rw [← not_le, heq, getElem_le_iff_of_pairwise hsorted, (List.mergeSort_perm l _).countP_eq,
    countP_le_of_isLeast h, not_lt, min_eq_left hk]

end Ranks

section Interpolation

variable {K : Type*} [Field K] [LinearOrder K] [IsStrictOrderedRing K] [FloorSemiring K]

/-- The quantile at a share of the list, between two order statistics. -/
def interpolated (l : List K) (share : K) : K :=
  let position := share * ((l.length - 1 : ℕ) : K)
  let low := orderStatistic l ⌊position⌋₊
  low + (orderStatistic l (⌊position⌋₊ + 1) - low) * (position - ⌊position⌋₊)

variable {l : List K} {least share : K}

theorem le_interpolated (h : IsLeast {x | x ∈ l} least) (hshare : 0 ≤ share) :
    least ≤ interpolated l share := by
  have hne : l ≠ [] := List.ne_nil_of_mem h.1
  have hposition : 0 ≤ share * ((l.length - 1 : ℕ) : K) := mul_nonneg hshare (Nat.cast_nonneg _)
  have hlow := h.2 (orderStatistic_mem hne ⌊share * ((l.length - 1 : ℕ) : K)⌋₊)
  have hrise := sub_nonneg.mpr (orderStatistic_mono hne (Nat.le_succ ⌊share * ((l.length - 1 : ℕ) : K)⌋₊))
  exact hlow.trans (le_add_of_nonneg_right (mul_nonneg hrise (sub_nonneg.mpr (Nat.floor_le hposition))))

/-- A quantile is greater than the least value exactly if its position is beyond the copies of that, up to
the next index. -/
theorem lt_interpolated_iff (h : IsLeast {x | x ∈ l} least) (hshare : 0 ≤ share) (hone : share ≤ 1) :
    least < interpolated l share ↔ l.count least ≤ ⌈share * ((l.length - 1 : ℕ) : K)⌉₊ := by
  have hne : l ≠ [] := List.ne_nil_of_mem h.1
  rw [interpolated]
  set position := share * ((l.length - 1 : ℕ) : K) with hdef
  have hposition : 0 ≤ position := mul_nonneg hshare (Nat.cast_nonneg _)
  have htop : position ≤ ((l.length - 1 : ℕ) : K) := mul_le_of_le_one_left (Nat.cast_nonneg _) hone
  have hfloor := Nat.floor_le hposition
  have hlow : least ≤ orderStatistic l ⌊position⌋₊ := h.2 (orderStatistic_mem hne _)
  have hrise : orderStatistic l ⌊position⌋₊ ≤ orderStatistic l (⌊position⌋₊ + 1) :=
    orderStatistic_mono hne (Nat.le_succ _)
  rcases hfloor.eq_or_lt with hwhole | hbetween
  · have hceil : ⌈position⌉₊ = ⌊position⌋₊ := by
      rw [← hwhole, Nat.ceil_natCast, Nat.floor_natCast]
    have hindex : ⌊position⌋₊ ≤ l.length - 1 := by exact_mod_cast hwhole.le.trans htop
    rw [hceil, ← lt_orderStatistic_iff h hindex, ← hwhole]
    simp
  · have hceil : ⌈position⌉₊ = ⌊position⌋₊ + 1 := by
      refine (Nat.ceil_eq_iff (Nat.succ_ne_zero _)).mpr ⟨?_, ?_⟩
      · simpa using hbetween
      · exact_mod_cast (Nat.lt_floor_add_one position).le
    have hindex : ⌊position⌋₊ + 1 ≤ l.length - 1 := by
      rw [← hceil]
      exact Nat.ceil_le.mpr htop
    rw [hceil, ← lt_orderStatistic_iff h hindex]
    have hpart : 0 < position - ⌊position⌋₊ := sub_pos.mpr hbetween
    have hrest : 0 < 1 - (position - ⌊position⌋₊) := by
      have := Nat.lt_floor_add_one position
      linarith
    constructor
    · intro hlt
      by_contra hhigh
      have hflat : orderStatistic l ⌊position⌋₊ = orderStatistic l (⌊position⌋₊ + 1) :=
        le_antisymm hrise ((not_lt.mp hhigh).trans hlow)
      rw [hflat, sub_self, zero_mul, add_zero] at hlt
      exact hhigh hlt
    · intro hhigh
      calc least = least * (1 - (position - ⌊position⌋₊)) + least * (position - ⌊position⌋₊) := by ring
        _ < orderStatistic l ⌊position⌋₊ * (1 - (position - ⌊position⌋₊)) +
              orderStatistic l (⌊position⌋₊ + 1) * (position - ⌊position⌋₊) :=
            add_lt_add_of_le_of_lt (mul_le_mul_of_nonneg_right hlow hrest.le)
              (mul_lt_mul_of_pos_right hhigh hpart)
        _ = _ := by ring

end Interpolation

end Statistics

/-! ### Quantiles of buckets -/

section Quantiles

variable {α K : Type*}

section Quantile

variable [LinearOrder α] [Semiring K] [LinearOrder K]

/-- The least of the values up to which there are as many as the target says. -/
def IsQuantile (target : K) (xs : List α) (v : α) : Prop :=
  IsLeast {w | w ∈ xs ∧ target ≤ (xs.countP (· ≤ w) : K)} v

/-- A greater target has a greater quantile. -/
theorem IsQuantile.mono {target target' : K} {xs : List α} {v w : α} (hle : target ≤ target')
    (hv : IsQuantile target xs v) (hw : IsQuantile target' xs w) : v ≤ w :=
  hv.2 ⟨hw.1.1, hle.trans hw.1.2⟩

theorem exists_isQuantile {target : K} {xs : List α} (hne : xs ≠ [])
    (hle : target ≤ (xs.length : K)) : ∃ v, IsQuantile target xs v := by
  obtain ⟨top, htop, hmax⟩ := xs.toFinset.exists_max_image id (List.toFinset_nonempty_iff xs |>.mpr hne)
  have hcount : xs.countP (· ≤ top) = xs.length := by
    rw [List.countP_eq_length]
    intro x hx
    simpa using hmax x (List.mem_toFinset.mpr hx)
  have hreach : (xs.toFinset.filter fun w => target ≤ (xs.countP (· ≤ w) : K)).Nonempty := by
    refine ⟨top, Finset.mem_filter.mpr ⟨htop, ?_⟩⟩
    rwa [hcount]
  obtain ⟨v, hv, hmin⟩ := Finset.exists_min_image _ id hreach
  simp only [Finset.mem_filter, List.mem_toFinset, id] at hv hmin
  exact ⟨v, hv, fun w hw => hmin w hw⟩

/-- A set of values closed downwards holds as many of them as the target says exactly when the quantile is
in it. -/
theorem IsQuantile.le_countP_iff [IsStrictOrderedRing K] {target : K} {xs : List α} {v : α}
    (h : IsQuantile target xs v) (hpos : 0 < target) {p : α → Bool}
    (hp : ∀ x y, x ≤ y → p y → p x) : target ≤ (xs.countP p : K) ↔ p v := by
  constructor
  · intro hreach
    have hsome : (xs.toFinset.filter fun x => p x).Nonempty := by
      have hcount : 0 < xs.countP p := by exact_mod_cast hpos.trans_le hreach
      obtain ⟨x, hx, hpx⟩ := List.countP_pos_iff.mp hcount
      exact ⟨x, Finset.mem_filter.mpr ⟨List.mem_toFinset.mpr hx, hpx⟩⟩
    -- The greatest value in the set is at least the quantile.
    obtain ⟨w, hw, hmax⟩ := Finset.exists_max_image _ id hsome
    simp only [Finset.mem_filter, List.mem_toFinset, id] at hw hmax
    have hle : xs.countP p ≤ xs.countP (· ≤ w) :=
      List.countP_mono_left fun x hx hpx => by simpa using hmax x ⟨hx, hpx⟩
    have hvw : v ≤ w := h.2 ⟨hw.1, hreach.trans (by exact_mod_cast hle)⟩
    exact hp v w hvw hw.2
  · intro hv
    have hle : xs.countP (· ≤ v) ≤ xs.countP p :=
      List.countP_mono_left fun x _ hx => hp x v (by simpa using hx) hv
    exact h.1.2.trans (by exact_mod_cast hle)

end Quantile

section Buckets

/-- How many of the values are in each of the first `n` buckets. -/
def bucketCounts (bucket : α → ℕ) (n : ℕ) (xs : List α) : List ℕ :=
  (List.range n).map fun i => xs.countP (bucket · = i)

@[simp] theorem bucketCounts_nil (bucket : α → ℕ) (n : ℕ) :
    bucketCounts bucket n [] = List.replicate n 0 := by
  simp [bucketCounts]

theorem bucketCounts_concat (bucket : α → ℕ) (n : ℕ) (xs : List α) (x : α) :
    bucketCounts bucket n (xs ++ [x]) = (bucketCounts bucket n xs).modify (bucket x) (· + 1) := by
  apply List.ext_getElem
  · simp [bucketCounts]
  · intro i _ _
    by_cases heq : bucket x = i
    · simp [bucketCounts, heq]
    · simp [bucketCounts, heq]

variable [Semiring K] [LinearOrder K]

/-- The counts so far and a mark. The mark is set at the first bucket at which the counts reach the target,
zero saying that it is not set yet. -/
def markReached (target : K) (upper : ℕ → K) (s : ℕ × K) (i count : ℕ) : ℕ × K :=
  (s.1 + count, if s.2 = 0 ∧ target ≤ ((s.1 + count : ℕ) : K) then upper i else s.2)

theorem foldIdx_markReached [LinearOrder α] [IsStrictOrderedRing K] {target : K} {xs : List α} {v : α}
    (h : IsQuantile target xs v) (hpos : 0 < target) {bucket : α → ℕ} (hmono : Monotone bucket)
    {upper : ℕ → K} (hupper : ∀ i, upper i ≠ 0) (n : ℕ) :
    foldIdx (markReached target upper) (0, 0) (bucketCounts bucket n xs) =
      (xs.countP (bucket · < n), if bucket v < n then upper (bucket v) else 0) := by
  induction n with
  | zero => simp [bucketCounts]
  | succ n ih =>
    have hcount : xs.countP (bucket · < n) + xs.countP (bucket · = n) = xs.countP (bucket · < n + 1) := by
      clear h ih
      induction xs with
      | nil => rfl
      | cons x rest ih =>
        simp only [List.countP_cons, ← ih, decide_eq_true_eq]
        split_ifs <;> omega
    have hreach : target ≤ (xs.countP (bucket · < n + 1) : K) ↔ bucket v < n + 1 := by
      rw [h.le_countP_iff hpos, decide_eq_true_eq]
      intro x y hxy hy
      rw [decide_eq_true_eq] at hy ⊢
      exact (hmono hxy).trans_lt hy
    have hlength : (bucketCounts bucket n xs).length = n := by simp [bucketCounts]
    rw [bucketCounts, List.range_succ, List.map_append, List.map_singleton, foldIdx_concat,
      ← bucketCounts, ih, hlength, markReached, hcount]
    rcases lt_trichotomy (bucket v) n with hlt | heq | hgt
    · have hnext : bucket v < n + 1 := hlt.trans (Nat.lt_succ_self n)
      simp only [if_pos hlt, if_pos hnext, hupper, false_and, if_false]
    · have hnext : bucket v < n + 1 := heq.le.trans_lt (Nat.lt_succ_self n)
      have hnot : ¬ bucket v < n := heq.not_lt
      rw [if_neg hnot, if_pos hnext, if_pos ⟨rfl, hreach.mpr hnext⟩, heq]
    · have hnot : ¬ bucket v < n := hgt.not_gt
      have hnext : ¬ bucket v < n + 1 := by omega
      simp only [if_neg hnot, if_neg hnext, mt hreach.mp hnext, and_false, if_false]

end Buckets

end Quantiles

end Foundations
