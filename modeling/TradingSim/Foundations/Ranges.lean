import Mathlib.Data.List.Range
import Mathlib.Data.Nat.Init
import Mathlib.Data.Rat.Defs
import Mathlib.Algebra.Order.BigOperators.Group.List
import Mathlib.Algebra.Order.Ring.Rat
import Mathlib.Tactic.Linarith
import Mathlib.Tactic.Ring

/-!
# Filtered ranges and their sums

Selecting positions of a sequence by a condition, and weighing what was selected. Two
conditions that stand one below the other select one after the other; a selection that weighs
as much as one it is part of is the same.
-/

namespace Foundations

variable {α : Type*}

/-- Where all of one kind come before all of the other, both are taken one after the other. -/
theorem filter_range_or {p q : ℕ → Prop} [DecidablePred p] [DecidablePred q]
    (h : ∀ i j, p i → q j → i < j) (n : ℕ) : ((List.range n).filter fun i => p i ∨ q i) =
      ((List.range n).filter fun i => p i) ++ (List.range n).filter fun i => q i := by
  induction n with
  | zero => rfl
  | succ n ih =>
    simp only [List.range_succ, List.filter_append, ih, List.append_assoc]
    by_cases hp : p n
    · have hnone : ((List.range n).filter fun i => q i) = [] := by
        rw [List.filter_eq_nil_iff]
        intro j hj hq
        have := h n j hp (by simpa using hq)
        have := List.mem_range.mp hj
        omega
      have hq : ¬ q n := fun hq => absurd (h n n hp hq) (lt_irrefl n)
      simp [hnone, hp, hq]
    · simp [List.filter_cons, hp]

theorem filter_range_of_lt {p : ℕ → Prop} [DecidablePred p] {a b : ℕ} (hab : a ≤ b)
    (h : ∀ i, p i → i < a) :
    ((List.range b).filter fun i => p i) = (List.range a).filter fun i => p i := by
  induction b, hab using Nat.le_induction with
  | base => rfl
  | succ b hab ih =>
    have hb : ¬ p b := fun hb => absurd (h b hb) (not_lt.mpr hab)
    simp [List.range_succ, ih, hb]

/-- What is taken from the end of a range is taken from its last window. -/
theorem filter_range_window (p : ℕ → Prop) [DecidablePred p] (lo n : ℕ) :
    ((List.range (lo + n)).filter fun i => lo ≤ i ∧ p i) = (List.range' lo n).filter fun i => p i := by
  have hsplit : List.range (lo + n) = List.range lo ++ List.range' lo n := by
    rw [List.range_eq_range', List.range_eq_range', ← List.range'_append_1, Nat.zero_add]
  have hbelow : ((List.range lo).filter fun i => lo ≤ i ∧ p i) = [] := by
    rw [List.filter_eq_nil_iff]
    intro i hi h
    have := List.mem_range.mp hi
    have : lo ≤ i := (by simpa using h : lo ≤ i ∧ p i).1
    omega
  rw [hsplit, List.filter_append, hbelow, List.nil_append]
  apply List.filter_congr
  intro i hi
  have : lo ≤ i := (List.mem_range'_1.mp hi).1
  simp [this]

/-- The sum over two disjoint choices is the sum of both. -/
theorem sum_filter_or {p q : ℕ → Prop} [DecidablePred p] [DecidablePred q]
    (h : ∀ i, p i → ¬ q i) (v : ℕ → ℚ) (l : List ℕ) : ((l.filter fun i => p i ∨ q i).map v).sum =
      ((l.filter fun i => p i).map v).sum + ((l.filter fun i => q i).map v).sum := by
  induction l with
  | nil => simp
  | cons i rest ih =>
    by_cases hp : p i
    · have hq := h i hp
      simp only [List.filter_cons, hp, hq, or_false, decide_true, decide_false, if_true, ih,
        List.map_cons, List.sum_cons, Bool.false_eq_true, if_false]
      ring
    · by_cases hq : q i
      · simp only [List.filter_cons, hp, hq, or_true, decide_true, decide_false, if_true, ih,
          List.map_cons, List.sum_cons, Bool.false_eq_true, if_false]
        ring
      · simp only [List.filter_cons, hp, hq, or_false, decide_false, ih, Bool.false_eq_true, if_false]

/-- A part of a list that adds up to the same is all of it if every summand is positive. -/
theorem eq_of_sublist_of_sum_eq {l l' : List α} (h : l.Sublist l') {v : α → ℚ} (hv : ∀ a, 0 < v a)
    (hsum : (l.map v).sum = (l'.map v).sum) : l = l' := by
  have hle {l l' : List α} (h : l.Sublist l') : (l.map v).sum ≤ (l'.map v).sum := by
    induction h with
    | slnil => exact le_refl _
    | cons a _ ih =>
      rw [List.map_cons, List.sum_cons]
      linarith [hv a]
    | cons_cons a _ ih => simpa using ih
  induction h with
  | slnil => rfl
  | cons a hrest ih =>
    rw [List.map_cons, List.sum_cons] at hsum
    linarith [hle hrest, hv a]
  | cons_cons a hrest ih =>
    rw [List.map_cons, List.map_cons, List.sum_cons, List.sum_cons, add_right_inj] at hsum
    rw [ih hsum]

end Foundations
