import Mathlib.Algebra.BigOperators.Field
import Mathlib.Analysis.SpecialFunctions.Log.Basic
import TradingSim.Foundations.FieldNumerals

/-!
# Filters of hidden Markov models

The posterior of the hidden state after an observation is in proportion to the emission times the prior
that the transitions make of the last posterior. A program may keep the logarithms of the posterior up to
a common constant: `softmax` takes them back.
-/

namespace Foundations

open Finset

variable {S : Type*} [Fintype S]

/-- The prior of a state after a transition. -/
def predict (trans : S → S → ℝ) (post : S → ℝ) (j : S) : ℝ := ∑ i, post i * trans i j

/-- The posterior after an observation with these emissions. -/
noncomputable def filterStep (emission : S → ℝ) (trans : S → S → ℝ) (post : S → ℝ) (j : S) : ℝ :=
  emission j * predict trans post j / ∑ k, emission k * predict trans post k

/-- Exponentials in proportion to their sum. -/
noncomputable def softmax (α : S → ℝ) (s : S) : ℝ := Real.exp (α s) / ∑ i, Real.exp (α i)

/-- One step of the filter on logarithms, with a shift of the exponents for each state. -/
noncomputable def logForward (emission : S → ℝ) (trans : S → S → ℝ) (shift α : S → ℝ) (j : S) : ℝ :=
  emission j + shift j + Real.log (∑ i, Real.exp (α i + trans i j - shift j))

variable {emission : S → ℝ} {trans : S → S → ℝ} {post α : S → ℝ}

/-- Emissions may all be scaled by one number. -/
theorem filterStep_mul {c : ℝ} (hc : c ≠ 0) (emission : S → ℝ) (trans : S → S → ℝ) (post : S → ℝ) :
    filterStep (fun j => c * emission j) trans post = filterStep emission trans post := by
  funext j
  simp only [filterStep, mul_assoc, ← Finset.mul_sum]
  exact mul_div_mul_left _ _ hc

/-- Equal exponents have equal proportions. -/
theorem softmax_const (c : ℝ) (s : S) : softmax (fun _ => c) s = 1 / Fintype.card S := by
  have hexp := (Real.exp_pos c).ne'
  simp only [softmax, Finset.sum_const, Finset.card_univ, nsmul_eq_mul]
  rw [div_mul_cancel_right₀ hexp, one_div]

/-- A common shift of the exponents leaves the proportions. -/
theorem softmax_sub_const (α : S → ℝ) (c : ℝ) : softmax (fun s => α s - c) = softmax α := by
  funext s
  simp only [softmax, Real.exp_sub, ← Finset.sum_div]
  exact div_div_div_cancel_right₀ (Real.exp_pos c).ne' _ _

section Nonempty

variable [Nonempty S]

theorem sum_exp_pos (α : S → ℝ) : 0 < ∑ i, Real.exp (α i) :=
  Finset.sum_pos (fun _ _ => Real.exp_pos _) univ_nonempty

theorem softmax_pos (α : S → ℝ) (s : S) : 0 < softmax α s :=
  div_pos (Real.exp_pos _) (sum_exp_pos α)

theorem sum_softmax (α : S → ℝ) : ∑ s, softmax α s = 1 := by
  simp only [softmax, ← Finset.sum_div]
  exact div_self (sum_exp_pos α).ne'

/-- A greatest exponent has the greatest proportion. -/
theorem softmax_le_softmax {i j : S} (h : α i ≤ α j) : softmax α i ≤ softmax α j :=
  div_le_div_of_nonneg_right (Real.exp_le_exp.mpr h) (sum_exp_pos α).le

/-- The shift of the exponents cancels. -/
theorem exp_logForward (emission : S → ℝ) (trans : S → S → ℝ) (shift α : S → ℝ) (j : S) :
    Real.exp (logForward emission trans shift α j) =
      Real.exp (emission j) * ∑ i, Real.exp (α i) * Real.exp (trans i j) := by
  have hshift : ∑ i, Real.exp (α i + trans i j - shift j) =
      (∑ i, Real.exp (α i) * Real.exp (trans i j)) / Real.exp (shift j) := by
    rw [Finset.sum_div]
    exact Finset.sum_congr rfl fun i _ => by rw [Real.exp_sub, Real.exp_add]
  rw [logForward, Real.exp_add, Real.exp_add, Real.exp_log (sum_exp_pos _), hshift, mul_assoc,
    mul_div_cancel₀ _ (Real.exp_pos _).ne']

/-- **A log-space step is a step of the filter**, whatever the shifts. -/
theorem softmax_logForward (emission : S → ℝ) (trans : S → S → ℝ) (shift α : S → ℝ) :
    softmax (logForward emission trans shift α) =
      filterStep (fun j => Real.exp (emission j)) (fun i j => Real.exp (trans i j)) (softmax α) := by
  have hpredict (j : S) : ∑ i, Real.exp (α i) * Real.exp (trans i j) =
      (∑ i, Real.exp (α i)) * predict (fun i j => Real.exp (trans i j)) (softmax α) j := by
    rw [predict, Finset.mul_sum]
    refine Finset.sum_congr rfl fun i _ => ?_
    rw [softmax, ← mul_assoc, mul_div_cancel₀ _ (sum_exp_pos α).ne']
  funext j
  simp only [softmax, exp_logForward, hpredict, filterStep]
  simp only [mul_left_comm (Real.exp (emission _)) (∑ i, Real.exp (α i)), ← Finset.mul_sum]
  exact mul_div_mul_left _ _ (sum_exp_pos α).ne'

/-- What one transition into a state contributes is no more than the whole. -/
theorem le_logForward (emission : S → ℝ) (trans : S → S → ℝ) (shift α : S → ℝ) {low : ℝ} (j : S)
    (htrans : ∀ i, low ≤ trans i j) :
    emission j + low + Real.log (∑ i, Real.exp (α i)) ≤ logForward emission trans shift α j := by
  rw [← Real.exp_le_exp, exp_logForward, Real.exp_add, Real.exp_add, Real.exp_log (sum_exp_pos α),
    mul_assoc, Finset.mul_sum]
  refine mul_le_mul_of_nonneg_left (Finset.sum_le_sum fun i _ => ?_) (Real.exp_pos _).le
  rw [mul_comm]
  exact mul_le_mul_of_nonneg_left (Real.exp_le_exp.mpr (htrans i)) (Real.exp_pos _).le

end Nonempty

/-! ### Greatest elements -/

section Greatest

variable {β R : Type*} [LinearOrder R]

/-- A running maximum: no value is greater, and it is one of the values or where the loop began. -/
theorem foldl_max_spec (x : β → R) (start : R) (l : List β) :
    let m := l.foldl (fun m i => if m < x i then x i else m) start
    start ≤ m ∧ (∀ i ∈ l, x i ≤ m) ∧ (m = start ∨ ∃ i ∈ l, m = x i) := by
  induction l generalizing start with
  | nil => simp
  | cons i rest ih =>
    obtain ⟨hstart, hrest, hattained⟩ := ih (if start < x i then x i else start)
    have hnext : start ≤ (if start < x i then x i else start) ∧
        x i ≤ if start < x i then x i else start := by
      split_ifs with hlt
      · exact ⟨hlt.le, le_rfl⟩
      · exact ⟨le_rfl, not_lt.mp hlt⟩
    refine ⟨hnext.1.trans hstart, List.forall_mem_cons.mpr ⟨hnext.2.trans hstart, hrest⟩, ?_⟩
    rcases hattained with heq | ⟨k, hk, heq⟩
    · rw [List.foldl_cons, heq]
      split_ifs
      · exact .inr ⟨i, List.mem_cons_self, rfl⟩
      · exact .inl rfl
    · exact .inr ⟨k, List.mem_cons_of_mem i hk, heq⟩

/-- The place of a running maximum is a place of the greatest value. -/
theorem foldl_argmax_spec (x : β → R) (start : β) (l : List β) :
    let best := l.foldl (fun best i => if x best < x i then i else best) start
    x start ≤ x best ∧ ∀ i ∈ l, x i ≤ x best := by
  induction l generalizing start with
  | nil => simp
  | cons i rest ih =>
    obtain ⟨hstart, hrest⟩ := ih (if x start < x i then i else start)
    have hnext : x start ≤ x (if x start < x i then i else start) ∧
        x i ≤ x (if x start < x i then i else start) := by
      split_ifs with hlt
      · exact ⟨hlt.le, le_rfl⟩
      · exact ⟨le_rfl, not_lt.mp hlt⟩
    exact ⟨hnext.1.trans hstart, List.forall_mem_cons.mpr ⟨hnext.2.trans hstart, hrest⟩⟩

end Greatest

end Foundations
