import Mathlib.Analysis.SpecialFunctions.Log.Base
import TradingSim.Foundations.FieldNumerals
import TradingSim.Foundations.OrderStatistics
import TradingSim.Foundations.Run

/-!
# The latency histogram

Latencies are counted in half-octave buckets of microseconds, the last of which takes all that is beyond
it. Percentiles are the upper bounds of buckets: at most a factor `√2` above the exact quantiles, and not
below them as long as these lie in the range of the buckets.
-/

namespace TradingSim.Bot.Latency

open Foundations

/-- The number of buckets. -/
def numBuckets : ℕ := 35

/-- The upper bound of a bucket in microseconds. -/
noncomputable def bucketUpper (i : ℕ) : ℝ := (2 : ℝ) ^ (((i : ℝ) + 1) / 2)

/-- The bucket of a latency. -/
noncomputable def bucketOf (microseconds : ℝ) : ℕ :=
  if microseconds < 1 then 0 else min ⌊Real.logb 2 microseconds * 2⌋₊ (numBuckets - 1)

/-- The counters of the recorded latencies. -/
structure LatencyHistogram where
  totalCount : ℕ
  sumUs : ℝ
  min : ℝ
  max : ℝ
  buckets : List ℕ

namespace LatencyHistogram

/-- A histogram without samples. -/
noncomputable def empty : LatencyHistogram where
  totalCount := 0
  sumUs := 0
  min := 10 ^ 18
  max := 0
  buckets := List.replicate numBuckets 0

/-- Counts a latency. -/
noncomputable def record (h : LatencyHistogram) (microseconds : ℝ) : LatencyHistogram where
  totalCount := h.totalCount + 1
  sumUs := h.sumUs + microseconds
  min := if microseconds < h.min then microseconds else h.min
  max := if h.max < microseconds then microseconds else h.max
  buckets := h.buckets.modify (bucketOf microseconds) (· + 1)

end LatencyHistogram

/-- The percentiles read from a histogram, zero until they are set. -/
@[ext] structure Stats where
  p50 : ℝ
  p95 : ℝ
  p99 : ℝ
  p999 : ℝ
  min : ℝ
  max : ℝ
  count : ℕ

/-- A percentile after a bucket: set to the upper bound of the bucket if it was not set before and the
counts have reached its target. -/
noncomputable def settle (target : ℝ) (cumulative : ℕ) (bucketUpper percentile : ℝ) : ℝ :=
  if percentile = 0 ∧ target ≤ (cumulative : ℝ) then bucketUpper else percentile

/-- The loop over the buckets, one bucket further, with the targets for a number of samples. -/
noncomputable def scanBucket (total : ℕ) (s : ℕ × Stats) (i count : ℕ) : ℕ × Stats :=
  let cumulative := s.1 + count
  let stats := s.2
  (cumulative,
    { stats with
      p50 := settle (total * 0.50) cumulative (bucketUpper i) stats.p50
      p95 := settle (total * 0.95) cumulative (bucketUpper i) stats.p95
      p99 := settle (total * 0.99) cumulative (bucketUpper i) stats.p99
      p999 := settle (total * 0.999) cumulative (bucketUpper i) stats.p999 })

/-- The percentiles of the samples so far. -/
noncomputable def LatencyHistogram.getStats (h : LatencyHistogram) : Stats :=
  let stats : Stats := ⟨0, 0, 0, 0, 0, 0, h.totalCount⟩
  if h.totalCount = 0 then stats
  else (foldIdx (scanBucket h.totalCount) (0, { stats with min := h.min, max := h.max }) h.buckets).2

section Buckets

theorem bucketUpper_pos (i : ℕ) : 0 < bucketUpper i := Real.rpow_pos_of_pos two_pos _

theorem bucketUpper_sq (i : ℕ) : bucketUpper i ^ 2 = 2 ^ (i + 1) := by
  rw [bucketUpper, ← Real.rpow_natCast, ← Real.rpow_mul zero_le_two, ← Real.rpow_natCast]
  push_cast
  rw [div_mul_cancel₀ _ two_ne_zero]

theorem bucketUpper_mono : Monotone bucketUpper := by
  intro i j hij
  apply Real.rpow_le_rpow_of_exponent_le one_le_two
  gcongr

theorem bucketOf_of_lt_one {x : ℝ} (h : x < 1) : bucketOf x = 0 := if_pos h

/-- From one microsecond on a latency is in the half octave of its square, up to the last bucket. -/
theorem bucketOf_of_one_le {x : ℝ} (h : 1 ≤ x) :
    ∃ i : ℕ, (2 : ℝ) ^ i ≤ x ^ 2 ∧ x ^ 2 < 2 ^ (i + 1) ∧ bucketOf x = min i (numBuckets - 1) := by
  have hlog : Real.logb 2 x * 2 = Real.logb 2 (x ^ 2) := by
    rw [Real.logb_pow]
    ring
  have hnonneg : 0 ≤ Real.logb 2 x * 2 := by
    have := Real.logb_nonneg one_lt_two h
    positivity
  refine ⟨⌊Real.logb 2 x * 2⌋₊, ?_, ?_, if_neg h.not_gt⟩
  · rw [← Real.rpow_natCast 2, ← Real.le_logb_iff_rpow_le one_lt_two (by positivity), ← hlog]
    exact Nat.floor_le hnonneg
  · rw [← Real.rpow_natCast 2, ← Real.logb_lt_iff_lt_rpow one_lt_two (by positivity), ← hlog]
    push_cast
    exact Nat.lt_floor_add_one _

theorem bucketOf_lt (x : ℝ) : bucketOf x < numBuckets := by
  unfold bucketOf numBuckets
  split_ifs <;> omega

theorem bucketOf_mono : Monotone bucketOf := by
  intro x y hxy
  by_cases hx : x < 1
  · rw [bucketOf_of_lt_one hx]
    exact Nat.zero_le _
  · have hy : ¬ y < 1 := fun h => hx (hxy.trans_lt h)
    have hpos : 0 < x := by linarith
    rw [bucketOf, if_neg hx, bucketOf, if_neg hy]
    gcongr
    exact one_lt_two

/-- A sample in range is at most the upper bound of its bucket. -/
theorem le_bucketUpper {x : ℝ} (h : x ≤ bucketUpper (numBuckets - 1)) : x ≤ bucketUpper (bucketOf x) := by
  by_cases hx : x < 1
  · rw [bucketOf_of_lt_one hx]
    apply hx.le.trans
    apply Real.one_le_rpow one_le_two
    norm_num
  · obtain ⟨i, -, hlt, heq⟩ := bucketOf_of_one_le (not_lt.mp hx)
    rw [heq]
    rcases min_choice i (numBuckets - 1) with hmin | hmin
    · rw [hmin]
      apply le_of_lt
      apply lt_of_pow_lt_pow_left₀ 2 (bucketUpper_pos i).le
      rwa [bucketUpper_sq]
    · rwa [hmin]

theorem bucketUpper_le (x : ℝ) : bucketUpper (bucketOf x) ≤ √2 * max 1 x := by
  by_cases hx : x < 1
  · rw [bucketOf_of_lt_one hx, max_eq_left hx.le, mul_one, Real.sqrt_eq_rpow]
    norm_num [bucketUpper]
  · have hle : 1 ≤ x := not_lt.mp hx
    obtain ⟨i, hge, -, heq⟩ := bucketOf_of_one_le hle
    rw [heq, max_eq_right hle]
    apply (bucketUpper_mono (min_le_left i _)).trans
    apply le_of_sq_le_sq ?_ (by positivity)
    rw [bucketUpper_sq, mul_pow, Real.sq_sqrt zero_le_two, pow_succ]
    linarith

end Buckets

section Percentiles

/-- The histogram after a sequence of latencies. -/
noncomputable def recorded (xs : List ℝ) : LatencyHistogram :=
  run LatencyHistogram.record LatencyHistogram.empty xs

theorem recorded_concat (xs : List ℝ) (x : ℝ) : recorded (xs ++ [x]) = (recorded xs).record x :=
  run_append _ _ _ _

theorem recorded_totalCount (xs : List ℝ) : (recorded xs).totalCount = xs.length := by
  induction xs using List.reverseRecOn with
  | nil => rfl
  | append_singleton xs x ih => simp [recorded_concat, LatencyHistogram.record, ih]

theorem recorded_buckets (xs : List ℝ) : (recorded xs).buckets = bucketCounts bucketOf numBuckets xs := by
  induction xs using List.reverseRecOn with
  | nil => simp [recorded, LatencyHistogram.empty]
  | append_singleton xs x ih => rw [recorded_concat, bucketCounts_concat, ← ih]; rfl

theorem recorded_min (xs : List ℝ) : IsLeast (insert (10 ^ 18) {x | x ∈ xs}) (recorded xs).min := by
  induction xs using List.reverseRecOn with
  | nil => simp [recorded, LatencyHistogram.empty]
  | append_singleton xs x ih =>
    have hset : insert (10 ^ 18 : ℝ) {y | y ∈ xs ++ [x]} = insert x (insert (10 ^ 18) {y | y ∈ xs}) := by
      ext y
      simp
      tauto
    have hmin : (recorded (xs ++ [x])).min = min x (recorded xs).min := by
      rw [recorded_concat, min_def_lt]
      rfl
    rw [hset, hmin]
    exact ih.insert x

theorem recorded_max (xs : List ℝ) : IsGreatest (insert 0 {x | x ∈ xs}) (recorded xs).max := by
  induction xs using List.reverseRecOn with
  | nil => simp [recorded, LatencyHistogram.empty]
  | append_singleton xs x ih =>
    have hset : insert (0 : ℝ) {y | y ∈ xs ++ [x]} = insert x (insert 0 {y | y ∈ xs}) := by
      ext y
      simp
      tauto
    have hmax : (recorded (xs ++ [x])).max = max x (recorded xs).max := by
      rw [recorded_concat, max_comm, max_def_lt]
      rfl
    rw [hset, hmax]
    exact ih.insert x

theorem scanned_percentile {xs : List ℝ} {target v : ℝ} (h : IsQuantile target xs v) (hpos : 0 < target)
    (total : ℕ) (read : Stats → ℝ)
    (hread : ∀ s i count, ((scanBucket total s i count).1, read (scanBucket total s i count).2) =
      markReached target bucketUpper (s.1, read s.2) i count) {stats : Stats} (hinit : read stats = 0) :
    read (foldIdx (scanBucket total) (0, stats) (recorded xs).buckets).2 = bucketUpper (bucketOf v) := by
  have hloop := foldIdx_read (fun s => (s.1, read s.2)) hread (0, stats) (recorded xs).buckets
  simp only [hinit, recorded_buckets, foldIdx_markReached h hpos bucketOf_mono
    (fun i => (bucketUpper_pos i).ne'), bucketOf_lt, if_true] at hloop
  rw [recorded_buckets]
  exact congrArg Prod.snd hloop

/-- What a histogram of samples reports, by their quantiles. -/
theorem getStats_recorded {xs : List ℝ} (hne : xs ≠ []) {v50 v95 v99 v999 : ℝ}
    (h50 : IsQuantile (xs.length * 0.50 : ℝ) xs v50) (h95 : IsQuantile (xs.length * 0.95 : ℝ) xs v95)
    (h99 : IsQuantile (xs.length * 0.99 : ℝ) xs v99) (h999 : IsQuantile (xs.length * 0.999 : ℝ) xs v999) :
    (recorded xs).getStats =
      { p50 := bucketUpper (bucketOf v50)
        p95 := bucketUpper (bucketOf v95)
        p99 := bucketUpper (bucketOf v99)
        p999 := bucketUpper (bucketOf v999)
        min := (recorded xs).min
        max := (recorded xs).max
        count := xs.length } := by
  have hlength : 0 < xs.length := List.length_pos_iff.mpr hne
  have hpos : (0 : ℝ) < xs.length := by exact_mod_cast hlength
  rw [LatencyHistogram.getStats, recorded_totalCount, if_neg hlength.ne']
  have hframe {R : Type} (read : ℕ × Stats → R)
      (hread : ∀ s i count, read (scanBucket xs.length s i count) = read s) (s : ℕ × Stats) :=
    foldIdx_unchanged read hread s (recorded xs).buckets
  apply Stats.ext
  · exact scanned_percentile h50 (by linarith) _ Stats.p50 (fun _ _ _ => rfl) rfl
  · exact scanned_percentile h95 (by linarith) _ Stats.p95 (fun _ _ _ => rfl) rfl
  · exact scanned_percentile h99 (by linarith) _ Stats.p99 (fun _ _ _ => rfl) rfl
  · exact scanned_percentile h999 (by linarith) _ Stats.p999 (fun _ _ _ => rfl) rfl
  · exact hframe (fun s => s.2.min) (fun _ _ _ => rfl) _
  · exact hframe (fun s => s.2.max) (fun _ _ _ => rfl) _
  · exact hframe (fun s => s.2.count) (fun _ _ _ => rfl) _

end Percentiles

section Soundness

/-- A percentile is at least the exact quantile of the samples and at most half an octave above it, where
what takes less than a microsecond counts as one. -/
def Bounds (target : ℝ) (xs : List ℝ) (percentile : ℝ) : Prop :=
  ∃ v, IsQuantile target xs v ∧ v ≤ percentile ∧ percentile ≤ √2 * max 1 v

/-- The percentiles bound the quantiles of the samples, in order; count, minimum and maximum are exact. -/
structure Stats.Sound (stats : Stats) (xs : List ℝ) : Prop where
  p50_le_p95 : stats.p50 ≤ stats.p95
  p95_le_p99 : stats.p95 ≤ stats.p99
  p99_le_p999 : stats.p99 ≤ stats.p999
  p50 : Bounds (xs.length * 0.50) xs stats.p50
  p95 : Bounds (xs.length * 0.95) xs stats.p95
  p99 : Bounds (xs.length * 0.99) xs stats.p99
  p999 : Bounds (xs.length * 0.999) xs stats.p999
  count : stats.count = xs.length
  min : IsLeast {x | x ∈ xs} stats.min
  max : IsGreatest {x | x ∈ xs} stats.max

/-- At most one sample in a thousand is beyond the last bucket. -/
def InRange (xs : List ℝ) : Prop :=
  1000 * xs.countP (bucketUpper (numBuckets - 1) < ·) ≤ xs.length

theorem inRange_iff {xs : List ℝ} {v : ℝ} (hne : xs ≠ []) (h : IsQuantile (xs.length * 0.999 : ℝ) xs v) :
    InRange xs ↔ v ≤ bucketUpper (numBuckets - 1) := by
  have hlength : (0 : ℝ) < xs.length := by exact_mod_cast List.length_pos_iff.mpr hne
  have hcount : xs.countP (· ≤ bucketUpper (numBuckets - 1)) +
      xs.countP (bucketUpper (numBuckets - 1) < ·) = xs.length := by
    rw [List.length_eq_countP_add_countP (p := (· ≤ bucketUpper (numBuckets - 1)))]
    simp
  have hreach := h.le_countP_iff (by linarith) (p := (· ≤ bucketUpper (numBuckets - 1)))
    (fun x y hxy hy => by simpa using hxy.trans (by simpa using hy))
  rw [decide_eq_true_eq] at hreach
  rw [← hreach, InRange, ← hcount]
  push_cast
  constructor
  · intro h
    have hcast : (1000 : ℝ) * xs.countP (bucketUpper (numBuckets - 1) < ·) ≤
        xs.countP (· ≤ bucketUpper (numBuckets - 1)) + xs.countP (bucketUpper (numBuckets - 1) < ·) := by
      exact_mod_cast h
    linarith
  · intro h
    have hcast : (1000 : ℝ) * xs.countP (bucketUpper (numBuckets - 1) < ·) ≤
        xs.countP (· ≤ bucketUpper (numBuckets - 1)) + xs.countP (bucketUpper (numBuckets - 1) < ·) := by
      linarith
    exact_mod_cast hcast

theorem bounds_bucketUpper_iff {target v : ℝ} {xs : List ℝ} (h : IsQuantile target xs v) :
    Bounds target xs (bucketUpper (bucketOf v)) ↔ v ≤ bucketUpper (numBuckets - 1) := by
  constructor
  · rintro ⟨w, hw, hle, -⟩
    rw [hw.unique h] at hle
    exact hle.trans (bucketUpper_mono (Nat.le_sub_one_of_lt (bucketOf_lt v)))
  · intro hrange
    exact ⟨v, h, le_bucketUpper hrange, bucketUpper_le v⟩

theorem bucketUpper_last_lt : bucketUpper (numBuckets - 1) < 10 ^ 18 := by
  apply lt_of_pow_lt_pow_left₀ 2 (by positivity)
  rw [bucketUpper_sq]
  norm_num [numBuckets]

/-- The report of non-negative latencies is sound exactly when at most one in a thousand is beyond the
last bucket. -/
theorem sound_getStats_iff {xs : List ℝ} (hne : xs ≠ []) (hnonneg : ∀ x ∈ xs, 0 ≤ x) :
    (recorded xs).getStats.Sound xs ↔ InRange xs := by
  obtain ⟨v50, h50⟩ : ∃ v, IsQuantile (xs.length * 0.50 : ℝ) xs v :=
    exists_isQuantile hne (by linarith)
  obtain ⟨v95, h95⟩ : ∃ v, IsQuantile (xs.length * 0.95 : ℝ) xs v :=
    exists_isQuantile hne (by linarith)
  obtain ⟨v99, h99⟩ : ∃ v, IsQuantile (xs.length * 0.99 : ℝ) xs v :=
    exists_isQuantile hne (by linarith)
  obtain ⟨v999, h999⟩ : ∃ v, IsQuantile (xs.length * 0.999 : ℝ) xs v :=
    exists_isQuantile hne (by linarith)
  have hle95 : v50 ≤ v95 := h50.mono (by linarith) h95
  have hle99 : v95 ≤ v99 := h95.mono (by linarith) h99
  have hle999 : v99 ≤ v999 := h99.mono (by linarith) h999
  rw [getStats_recorded hne h50 h95 h99 h999, inRange_iff hne h999]
  constructor
  · intro hsound
    exact (bounds_bucketUpper_iff h999).mp hsound.p999
  · intro hrange
    exact {
      p50_le_p95 := bucketUpper_mono (bucketOf_mono hle95)
      p95_le_p99 := bucketUpper_mono (bucketOf_mono hle99)
      p99_le_p999 := bucketUpper_mono (bucketOf_mono hle999)
      p50 := (bounds_bucketUpper_iff h50).mpr (by linarith)
      p95 := (bounds_bucketUpper_iff h95).mpr (by linarith)
      p99 := (bounds_bucketUpper_iff h99).mpr (by linarith)
      p999 := (bounds_bucketUpper_iff h999).mpr hrange
      count := rfl
      min := by
        have hmin := recorded_min xs
        refine ⟨hmin.1.resolve_left ?_, fun x hx => hmin.2 (Or.inr hx)⟩
        have := hmin.2 (Or.inr h999.1.1)
        linarith [bucketUpper_last_lt]
      max := by
        have hmax := recorded_max xs
        refine ⟨hmax.1.elim ?_ id, fun x hx => hmax.2 (Or.inr hx)⟩
        intro hzero
        have hle := hmax.2 (Or.inr h999.1.1)
        rw [hzero] at hle ⊢
        rw [← le_antisymm hle (hnonneg _ h999.1.1)]
        exact h999.1.1 }

/-- A latency of three microseconds is reported soundly. -/
theorem sound_getStats_three : (recorded [3]).getStats.Sound [3] := by
  apply (sound_getStats_iff (by simp) (by simp)).mpr
  have hle : (3 : ℝ) ≤ bucketUpper (numBuckets - 1) := by
    apply le_of_sq_le_sq ?_ (bucketUpper_pos _).le
    rw [bucketUpper_sq]
    norm_num [numBuckets]
  simp [InRange, hle.not_gt]

theorem isQuantile_singleton (x : ℝ) {target : ℝ} (hle : target ≤ 1) : IsQuantile target [x] x := by
  simp [IsQuantile, IsLeast, mem_lowerBounds, hle]

/-- A quarter of a second is beyond the last bucket, so that its percentiles are below it. -/
theorem not_sound_getStats_quarter : ¬ (recorded [250000]).getStats.Sound [250000] := by
  have hquantile (target : ℝ) (hle : target ≤ 1) := isQuantile_singleton 250000 hle
  rw [getStats_recorded (by simp) (hquantile _ (by norm_num)) (hquantile _ (by norm_num))
    (hquantile _ (by norm_num)) (hquantile _ (by norm_num))]
  intro hsound
  have hle := (bounds_bucketUpper_iff (hquantile _ (by norm_num))).mp hsound.p50
  have hsq := pow_le_pow_left₀ (by norm_num) hle 2
  rw [bucketUpper_sq] at hsq
  norm_num [numBuckets] at hsq

end Soundness

end TradingSim.Bot.Latency
