import Mathlib.Algebra.Order.Field.Basic
import Mathlib.Algebra.Order.Group.Abs
import Mathlib.Data.List.GetD
import TradingSim.Foundations.Loops

/-!
# Series with undefined entries

A program that computes a series prepares an array of undefined numbers and fills it from some index on,
each entry from what it has at hand. Such an array is followed by saying how far it is filled with which
entries; a recurrence gives the entries that are computed from the ones before.

Arithmetic with an undefined number is undefined, and comparisons with one are false.
-/

namespace Foundations

/-- A real number, or the undefined one. -/
inductive Number (F : Type*)
  | nan
  | real (x : F)
  deriving DecidableEq

namespace Number

variable {F : Type*}

/-- An operation of real numbers. -/
def map₂ (f : F → F → F) : Number F → Number F → Number F
  | real x, real y => real (f x y)
  | _, _ => nan

instance [Add F] : Add (Number F) := ⟨map₂ (· + ·)⟩

instance [Sub F] : Sub (Number F) := ⟨map₂ (· - ·)⟩

instance [Mul F] : Mul (Number F) := ⟨map₂ (· * ·)⟩

/-- A quotient by zero is no real number. -/
instance [Div F] [Zero F] [DecidableEq F] : Div (Number F) where
  div
    | real x, real y => if y = 0 then nan else real (x / y)
    | _, _ => nan

/-- The absolute value. -/
def abs [Lattice F] [AddGroup F] : Number F → Number F
  | real x => real |x|
  | nan => nan

/-- The greater of two numbers. -/
def max [Max F] : Number F → Number F → Number F := map₂ (· ⊔ ·)

/-- A number is less than another one. -/
def lt [LT F] [DecidableLT F] : Number F → Number F → Bool
  | real x, real y => decide (x < y)
  | _, _ => false

/-- A number is at most another one. -/
def le [LE F] [DecidableLE F] : Number F → Number F → Bool
  | real x, real y => decide (x ≤ y)
  | _, _ => false

/-- The number is undefined. -/
def isNaN : Number F → Bool
  | nan => true
  | real _ => false

/-- The real number, or zero. -/
def value [Zero F] : Number F → F
  | real x => x
  | nan => 0

@[simp] theorem real_add_real [Add F] (x y : F) : real x + real y = real (x + y) := rfl

@[simp] theorem real_sub_real [Sub F] (x y : F) : real x - real y = real (x - y) := rfl

@[simp] theorem real_mul_real [Mul F] (x y : F) : real x * real y = real (x * y) := rfl

theorem real_div_real [Div F] [Zero F] [DecidableEq F] (x : F) {y : F} (hy : y ≠ 0) :
    real x / real y = real (x / y) := if_neg hy

variable (x : Number F)

@[simp] theorem abs_real [Lattice F] [AddGroup F] (x : F) : abs (real x) = real |x| := rfl

@[simp] theorem lt_real [LT F] [DecidableLT F] (x y : F) : lt (real x) (real y) = decide (x < y) := rfl

@[simp] theorem le_real [LE F] [DecidableLE F] (x y : F) : le (real x) (real y) = decide (x ≤ y) := rfl

@[simp] theorem isNaN_real (x : F) : isNaN (real x) = false := rfl

@[simp] theorem isNaN_nan : isNaN (nan : Number F) = true := rfl

theorem isNaN_iff {v : Number F} : v.isNaN = true ↔ v = nan := by cases v <;> simp

def sum [Add F] [Zero F] (xs : List (Number F)) : Number F := xs.foldl (· + ·) (real 0)

theorem sum_map_real [AddCommMonoid F] (xs : List F) : sum (xs.map real) = real xs.sum := by
  have hfrom (x : F) : (xs.map real).foldl (· + ·) (real x) = real (x + xs.sum) := by
    induction xs generalizing x with
    | nil => rw [List.sum_nil, add_zero, List.map_nil, List.foldl_nil]
    | cons y rest ih => rw [List.map_cons, List.foldl_cons, real_add_real, ih, List.sum_cons, add_assoc]
  rw [sum, hfrom, zero_add]

theorem getD_map_real [Zero F] {xs : List F} {i : ℕ} (hi : i < xs.length) :
    (xs.map real).getD i nan = real (xs.getD i 0) := by
  simp [hi]

theorem forLoop_add_real [AddCommMonoid F] {start stop : ℕ} {f : ℕ → Number F} {g : ℕ → F} (m : F)
    (h : ∀ i, start ≤ i → i < stop → f i = real (g i)) (hle : start ≤ stop) :
    forLoop start stop (fun i sum => sum + f i) (real m) = real (m + ∑ i ∈ Finset.Ico start stop, g i) := by
  refine forLoop_spec (fun i sum => sum = real (m + ∑ i ∈ Finset.Ico start i, g i)) hle ?_ ?_
  · rw [Finset.Ico_self, Finset.sum_empty, add_zero]
  · rintro i _ hi hlt rfl
    rw [h i hi hlt, real_add_real, Finset.sum_Ico_succ_top hi, add_assoc]

end Number

/-! ### Arrays that are filled -/

section Arrays

variable {α : Type*} {n i j : ℕ} {f old : ℕ → α} {blank : α} {xs : List α}

/-- The list of the first values of a function. -/
def series (n : ℕ) (f : ℕ → α) : List α := (List.range n).map f

@[simp] theorem length_series (n : ℕ) (f : ℕ → α) : (series n f).length = n := by
  rw [series, List.length_map, List.length_range]

theorem getElem?_series (hj : j < n) : (series n f)[j]? = some (f j) := by
  rw [series, List.getElem?_map, List.getElem?_range hj, Option.map_some]

theorem getD_series (hj : j < n) (d : α) : (series n f).getD j d = f j := by
  rw [List.getD_eq_getElem?_getD, getElem?_series hj, Option.getD_some]

theorem series_succ (n : ℕ) (f : ℕ → α) : series (n + 1) f = f 0 :: series n fun j => f (j + 1) := by
  rw [series, List.range_succ_eq_map, List.map_cons, List.map_map]
  rfl

theorem mem_series {a : α} : a ∈ series n f ↔ ∃ j < n, f j = a := by
  simp [series]

theorem series_congr {g : ℕ → α} (h : ∀ j < n, f j = g j) : series n f = series n g :=
  List.map_congr_left fun j hj => h j (List.mem_range.mp hj)

theorem replicate_eq_series (n : ℕ) (a : α) : List.replicate n a = series n fun _ => a := by
  rw [series, List.map_const', List.length_range]

theorem eq_series_getD (xs : List α) (d : α) : xs = series xs.length fun j => xs.getD j d := by
  apply List.ext_getElem?
  intro j
  rcases lt_or_ge j xs.length with hj | hj
  · rw [getElem?_series hj, List.getD_eq_getElem _ _ hj, List.getElem?_eq_getElem hj]
  · rw [List.getElem?_eq_none hj, List.getElem?_eq_none (by rwa [length_series])]

theorem map_series {β : Type*} (g : α → β) : (series n f).map g = series n fun j => g (f j) :=
  List.map_map

theorem take_series {k : ℕ} (hk : k ≤ n) : (series n f).take k = series k f := by
  rw [series, ← List.map_take, List.take_range, min_eq_left hk, series]

theorem drop_series (k : ℕ) : (series n f).drop k = series (n - k) fun j => f (k + j) := by
  apply List.ext_getElem?
  intro j
  rw [List.getElem?_drop]
  rcases lt_or_ge j (n - k) with hj | hj
  · rw [getElem?_series hj, getElem?_series (by omega)]
  · rw [List.getElem?_eq_none (by rw [length_series]; omega), List.getElem?_eq_none (by rwa [length_series])]

theorem zipWith_series {β γ : Type*} (op : α → β → γ) (m : ℕ) (g : ℕ → β) :
    List.zipWith op (series n f) (series m g) = series (min n m) fun j => op (f j) (g j) := by
  apply List.ext_getElem?
  intro j
  rcases lt_or_ge j (min n m) with hj | hj
  · rw [List.getElem?_zipWith, getElem?_series hj, getElem?_series (lt_min_iff.mp hj).1,
      getElem?_series (lt_min_iff.mp hj).2]
  · rw [List.getElem?_eq_none (by rwa [List.length_zipWith, length_series, length_series]),
      List.getElem?_eq_none (by rwa [length_series])]

theorem sum_series [AddCommMonoid α] : (series n f).sum = ∑ j ∈ Finset.range n, f j := by
  induction n with
  | zero => rfl
  | succ n ih =>
    rw [series, List.range_succ, List.map_append, List.sum_append, ← series, ih, List.map_singleton,
      List.sum_singleton, Finset.sum_range_succ]

theorem series_set (v : α) : (series n f).set i v = series n (Function.update f i v) := by
  apply List.ext_getElem?
  intro j
  rw [List.getElem?_set, length_series]
  rcases lt_or_ge j n with hj | hj
  · rw [getElem?_series hj, getElem?_series hj]
    by_cases hij : i = j
    · rw [if_pos hij, if_pos (hij ▸ hj), hij, Function.update_self]
    · rw [if_neg hij, Function.update_of_ne (Ne.symm hij)]
  · have hnone (g : ℕ → α) : (series n g)[j]? = none := List.getElem?_eq_none (by rwa [length_series])
    rw [hnone, hnone]
    split_ifs
    · omega
    · rfl
    · rfl

/-- An array whose entries below an index have been written anew. -/
def Filled (n : ℕ) (f old : ℕ → α) (i : ℕ) (xs : List α) : Prop :=
  xs = series n fun j => if j < i then f j else old j

namespace Filled

theorem getD (h : Filled n f old i xs) (hj : j < i) (hn : j < n) (d : α) : xs.getD j d = f j := by
  rw [h, getD_series hn, if_pos hj]

/-- The next entry is written. -/
theorem set (h : Filled n f old i xs) : Filled n f old (i + 1) (xs.set i (f i)) := by
  rw [Filled, h, series_set]
  apply series_congr
  intro j _
  rcases lt_trichotomy j i with hj | rfl | hj
  · rw [Function.update_of_ne hj.ne, if_pos hj, if_pos (Nat.lt_succ_of_lt hj)]
  · rw [Function.update_self, if_pos (Nat.lt_succ_self j)]
  · rw [Function.update_of_ne hj.ne', if_neg hj.not_gt, if_neg (by omega)]

theorem write (h : Filled n f old i xs) {v : α} (hv : f i = v) : Filled n f old (i + 1) (xs.set i v) :=
  hv ▸ h.set

/-- The next entry stays as it is. -/
theorem skip (h : Filled n f old i xs) (hold : f i = old i) : Filled n f old (i + 1) xs := by
  rw [Filled, h]
  apply series_congr
  intro j _
  rcases lt_trichotomy j i with hj | rfl | hj
  · rw [if_pos hj, if_pos (Nat.lt_succ_of_lt hj)]
  · rw [if_neg (lt_irrefl j), if_pos (Nat.lt_succ_self j), hold]
  · rw [if_neg hj.not_gt, if_neg (by omega)]

/-- An array that is written to its end. -/
theorem eq_series (h : Filled n f old n xs) : xs = series n f := by
  rw [h]
  exact series_congr fun j hj => if_pos hj

end Filled

theorem filled_zero (n : ℕ) (f old : ℕ → α) : Filled n f old 0 (series n old) :=
  series_congr fun j _ => (if_neg j.not_lt_zero).symm

/-- An array of blanks is filled as far as the entries are to be blank. -/
theorem filled_replicate (n : ℕ) (h : ∀ j < i, f j = blank) :
    Filled n f (fun _ => blank) i (List.replicate n blank) := by
  rw [Filled, replicate_eq_series]
  apply series_congr
  intro j _
  split_ifs with hj
  · exact (h j hj).symm
  · rfl

theorem replicate_eq_series_of_blank (h : ∀ j < n, f j = blank) : List.replicate n blank = series n f :=
  (filled_replicate n h).eq_series

end Arrays

/-! ### Recurrences -/

section Recurrences

variable {S : Type*} {start i : ℕ} {seed : S} {next : ℕ → S → S}

/-- The values of a recurrence: the seed up to an index, each later one from the one before. -/
def recur (start : ℕ) (seed : S) (next : ℕ → S → S) : ℕ → S
  | 0 => seed
  | i + 1 => if i + 1 ≤ start then seed else next (i + 1) (recur start seed next i)

theorem recur_of_le (hi : i ≤ start) : recur start seed next i = seed := by
  cases i with
  | zero => rfl
  | succ i => exact if_pos hi

@[simp] theorem recur_self : recur start seed next start = seed := recur_of_le le_rfl

theorem recur_succ (hi : start ≤ i) :
    recur start seed next (i + 1) = next (i + 1) (recur start seed next i) :=
  if_neg (Nat.not_le_of_lt (Nat.lt_succ_of_le hi))

/-- What the seed has and every step keeps all values have. -/
theorem recur_invariant (P : ℕ → S → Prop) (hseed : P start seed)
    (hnext : ∀ i s, start ≤ i → P i s → P (i + 1) (next (i + 1) s)) (hi : start ≤ i) :
    P i (recur start seed next i) := by
  induction i, hi using Nat.le_induction with
  | base => rwa [recur_self]
  | succ i hi ih =>
    rw [recur_succ hi]
    exact hnext i _ hi ih

/-- The undefined number below an index, and a series from it on. -/
def onward {F : Type*} (start : ℕ) (x : ℕ → F) (i : ℕ) : Number F :=
  if i < start then .nan else .real (x i)

section Onward

variable {F : Type*} {x : ℕ → F} {v : F} {n : ℕ} {old : ℕ → Number F} {result : List (Number F)}

theorem onward_of_lt (hi : i < start) : onward start x i = .nan := if_pos hi

theorem onward_of_le (hi : start ≤ i) : onward start x i = .real (x i) := if_neg (Nat.not_lt.mpr hi)

theorem onward_ne_nan_iff : onward start x i ≠ .nan ↔ start ≤ i := by
  rw [onward]
  split_ifs with hi
  · exact iff_of_false (not_not_intro rfl) (Nat.not_le.mpr hi)
  · exact iff_of_true (fun h => nomatch h) (Nat.not_lt.mp hi)

theorem onward_eq_real_iff : onward start x i = .real v ↔ start ≤ i ∧ x i = v := by
  rw [onward]
  split_ifs with hi
  · exact iff_of_false (fun h => nomatch h) fun h => absurd hi (Nat.not_lt.mpr h.1)
  · rw [Number.real.injEq]
    exact (and_iff_right (Nat.not_lt.mp hi)).symm

theorem defined_onward (h : result = series n (onward start x)) :
    ∀ i < n, result.getD i .nan ≠ .nan ↔ start ≤ i := fun i hi => by
  rw [h, getD_series hi, onward_ne_nan_iff]

theorem forLoop_fill (x : ℕ → F) (hn : start ≤ n) :
    forLoop start n (fun i result => result.set i (.real (x i))) (List.replicate n .nan) =
      series n (onward start x) :=
  (forLoop_spec (Filled n (onward start x) fun _ => Number.nan) hn
    (filled_replicate n fun _ hj => onward_of_lt hj) fun _ _ hi _ h => h.write (onward_of_le hi)).eq_series

theorem filled_seed (n start : ℕ) (seed : F) (next : ℕ → F → F) :
    Filled n (onward start (recur start seed next)) (fun _ => .nan) (start + 1)
      ((List.replicate n .nan).set start (.real seed)) := by
  have hset := (filled_replicate n fun j hj => onward_of_lt hj :
    Filled n (onward start (recur start seed next)) (fun _ => .nan) start (List.replicate n .nan)).set
  rwa [onward_of_le le_rfl, recur_self] at hset

variable {seed : F} {next : ℕ → F → F}

theorem Filled.last (h : Filled n (onward start (recur start seed next)) old i result) (hi : start < i)
    (hn : i ≤ n) : result.getD (i - 1) .nan = .real (recur start seed next (i - 1)) := by
  rw [h.getD (by omega) (by omega), onward_of_le (by omega)]

/-- The next value of the recurrence is written. -/
theorem Filled.turn (h : Filled n (onward start (recur start seed next)) old i result) (hi : start < i) :
    Filled n (onward start (recur start seed next)) old (i + 1)
      (result.set i (.real (next i (recur start seed next (i - 1))))) := by
  obtain ⟨i, rfl⟩ : ∃ j, i = j + 1 := ⟨i - 1, by omega⟩
  have hnext : onward start (recur start seed next) (i + 1) = .real (next (i + 1) (recur start seed next i)) := by
    rw [onward_of_le (by omega), recur_succ (by omega)]
  rw [Nat.add_sub_cancel, ← hnext]
  exact h.set

theorem forLoop_recur {f : ℕ → List (Number F) → List (Number F)} (hstart : start < n)
    (hf : ∀ i result, start < i → i < n → ∀ v, result.getD (i - 1) .nan = .real v →
      f i result = result.set i (.real (next i v))) :
    forLoop (start + 1) n f ((List.replicate n .nan).set start (.real seed)) =
      series n (onward start (recur start seed next)) := by
  refine (forLoop_spec (Filled n _ fun _ => Number.nan) hstart (filled_seed n start seed next)
    fun i result hi hlt h => ?_).eq_series
  rw [hf i result hi hlt _ (h.last hi hlt.le)]
  exact h.turn hi

end Onward

end Recurrences

end Foundations
