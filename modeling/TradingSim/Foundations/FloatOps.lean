import Mathlib.Data.Rat.Lemmas
import Mathlib.Algebra.Order.Field.Rat

/-!
# The operations of floating-point numbers

Programs that only compute with numbers and compare them are written over any type with these
operations. No law is assumed, so what is proved of such a program holds of binary floats, whose
sums round and whose comparisons with a number that is none are false, as well as of exact
rationals.
-/

namespace Foundations

/-- Literals, arithmetic and comparisons. -/
class FloatOps (F : Type) extends Add F, Sub F, Mul F, Div F where
  lit : ℚ → F
  abs : F → F
  le : F → F → Bool
  lt : F → F → Bool

namespace FloatOps

/-- Exact arithmetic. A quotient by zero is zero. -/
instance : FloatOps ℚ where
  lit := id
  abs x := |x|
  le x y := decide (x ≤ y)
  lt x y := decide (x < y)

/-- Binary floats. -/
instance : FloatOps Float where
  lit q := Float.ofInt q.num / Float.ofNat q.den
  abs := Float.abs
  le x y := decide (x ≤ y)
  lt x y := decide (x < y)

variable {F : Type} [FloatOps F]

/-- The greater of two numbers, the first one unless the second is greater. -/
def max (x y : F) : F := if lt x y then y else x

/-- The smaller of two numbers, the first one unless the second is smaller. -/
def min (x y : F) : F := if lt y x then y else x

/-- Whether a number equals zero. -/
def isZero (x : F) : Bool := le x (lit 0) && le (lit 0) x

/-- The result of an undefined operation. -/
def nan : F := lit 0 / lit 0

section Exact

variable {x y : ℚ}

@[simp] theorem lit_rat (q : ℚ) : (lit q : ℚ) = q := rfl

@[simp] theorem abs_rat : FloatOps.abs x = |x| := rfl

@[simp] theorem lt_rat : lt x y = true ↔ x < y := decide_eq_true_iff

@[simp] theorem le_rat : le x y = true ↔ x ≤ y := decide_eq_true_iff

@[simp] theorem max_rat : FloatOps.max x y = x ⊔ y := by
  rw [FloatOps.max, sup_comm, max_def']
  by_cases hlt : x < y
  · rw [if_pos (lt_rat.mpr hlt), if_pos hlt.le]
  · rw [if_neg (mt lt_rat.mp hlt)]
    split_ifs with hle
    · exact le_antisymm hle (not_lt.mp hlt)
    · rfl

end Exact

end FloatOps

end Foundations
