import TradingSim.Exchange.Numerics
import TradingSim.Foundations.Action
import TradingSim.Foundations.Dict

/-!
# Values as they arrive

A decoded message holds values of any type, and the exchange stores some of them as they are. Only
when such a value is compared with a price, or taken as a factor, does its type show: a text, a list
or nothing at all is no number, and an integer may be too large for a float.

Of the floats only what keeps an operation from raising is assumed: comparisons with a number that is
none are false, and positive quantities stay positive. All of it holds for binary floats with their
infinities; exact rationals are the other instance.
-/

namespace TradingSim.RawOrders

open Foundations

/-- Floating-point numbers. -/
class Floats (F : Type) extends Add F, Sub F, Mul F where
  /-- A literal. -/
  lit : ℚ → F
  /-- The quotient by a number that is not zero. -/
  div : F → F → F
  le : F → F → Bool
  lt : F → F → Bool
  /-- Comparisons with an integer are exact. -/
  leInt : F → ℤ → Bool
  intLe : ℤ → F → Bool
  /-- The float of an integer, unless that is too large. -/
  ofInt : ℤ → Option F
  /-- The built-in `round(x, n)`. -/
  round : F → ℕ → F
  /-- The built-in `int(x)`, unless `x` is not finite. -/
  truncate : F → Option ℤ
  isFinite : F → Bool
  lit_pos : ∀ q : ℚ, 1 / 10 ^ 12 ≤ q → lt (lit 0) (lit q) = true
  lt_trans : ∀ a b c, lt a b = true → lt b c = true → lt a c = true
  not_le_of_lt : ∀ a b, lt a b = true → le b a = false
  lt_of_not_le : ∀ a b, le a a = true → le b b = true → le a b = false → lt b a = true
  le_self_of_lt : ∀ a b, lt a b = true → le a a = true ∧ le b b = true
  add_pos : ∀ a b, lt (lit 0) a = true → lt (lit 0) b = true → lt (lit 0) (a + b) = true
  sub_pos : ∀ a b, lt a b = true → lt (lit 0) (b - a) = true
  ofInt_pos : ∀ n x, ofInt n = some x → 0 < n → lt (lit 0) x = true
  /-- A difference with a number that is none is none. -/
  sub_nan : ∀ a b, le b b = false → lt (lit 0) (a - b) = false

/-- Integers of this magnitude are too large for a float. -/
def floatOverflow : ℕ := 2 ^ 1024 - 2 ^ 970

/-- Exact rationals in the place of floats. -/
instance : Floats ℚ where
  lit := id
  div a b := a / b
  le a b := decide (a ≤ b)
  lt a b := decide (a < b)
  leInt a n := decide (a ≤ n)
  intLe n a := decide (n ≤ a)
  ofInt n := if n.natAbs < floatOverflow then some n else none
  round := Exchange.roundHalfEven
  truncate a := some (Exchange.truncate a)
  isFinite _ := true
  lit_pos q hq := by
    have hpos : (0 : ℚ) < 1 / 10 ^ 12 := by positivity
    exact decide_eq_true (hpos.trans_le hq)
  lt_trans a b c hab hbc := by
    simp only [decide_eq_true_eq] at *
    exact hab.trans hbc
  not_le_of_lt a b h := by simpa using h
  lt_of_not_le a b _ _ h := by simpa using h
  le_self_of_lt a b _ := by simp
  add_pos a b ha hb := by
    simp only [id_eq, decide_eq_true_eq] at *
    exact add_pos ha hb
  sub_pos a b h := by simpa using h
  ofInt_pos n x h hn := by
    split at h
    · obtain rfl := Option.some.inj h
      exact decide_eq_true (Int.cast_pos.mpr hn)
    · cases h
  sub_nan a b h := by simp at h

/-- The exceptions that the handling of orders may raise. -/
inductive PyException
  | valueError
  | typeError
  | keyError
  | overflowError
  | zeroDivisionError
  | attributeError
  deriving DecidableEq

/-- A decoded value. Of a list or an object only its rendering is kept and whether it is empty. -/
inductive Value (F : Type)
  | null
  | bool (b : Bool)
  | int (n : ℤ)
  | float (x : F)
  | text (s : String)
  | container (rendering : String) (isEmpty : Bool)
  deriving DecidableEq

/-- An integer or a float. -/
inductive Number (F : Type)
  | int (n : ℤ)
  | float (x : F)

variable {F : Type} [Floats F]

namespace Floats

/-- Whether a float equals zero. -/
def isZero (x : F) : Bool := le x (lit 0) && le (lit 0) x

/-- A quotient. -/
def divide (a b : F) : Except PyException F :=
  if isZero b then .error .zeroDivisionError else .ok (div a b)

/-- The built-in `min`. -/
def min (a b : F) : F := if lt b a then b else a

def roundPrice (price : F) : F := if le (lit 1) price then round price 2 else round price 8

/-- A positive float. -/
def Positive (x : F) : Prop := lt (lit 0) x = true

instance (x : F) : Decidable (Positive x) := inferInstanceAs (Decidable (_ = true))

variable {a b : F}

/-- A positive float is not zero. -/
theorem Positive.isZero (h : Positive a) : isZero a = false := by
  rw [Floats.isZero, not_le_of_lt _ _ h, Bool.false_and]

/-- Nothing is wrong with dividing by a positive float. -/
theorem divide_of_positive (a : F) (h : Positive b) : divide a b = .ok (div a b) := by
  rw [divide, h.isZero]
  rfl

theorem Positive.le_self (h : Positive a) : le a a = true := (le_self_of_lt _ _ h).2

theorem zero_le_zero : le (lit 0 : F) (lit 0) = true :=
  (le_self_of_lt _ _ (lit_pos (F := F) 1 (by norm_num))).1

/-- What is no NaN and not below zero is positive. -/
theorem positive_of_not_le (hself : le a a = true) (h : le a (lit 0) = false) : Positive a :=
  lt_of_not_le a (lit 0) hself zero_le_zero h

theorem Positive.min (ha : Positive a) (hb : Positive b) : Positive (Floats.min a b) := by
  unfold Floats.min
  split
  · exact hb
  · exact ha

end Floats

namespace Value

/-- A value as an operand of a comparison. -/
def number : Value F → Except PyException (Number F)
  | .bool b => .ok (.int (if b then 1 else 0))
  | .int n => .ok (.int n)
  | .float x => .ok (.float x)
  | .null | .text _ | .container _ _ => .error .typeError

/-- Whether a value counts as true. -/
def truthy : Value F → Bool
  | .null => false
  | .bool b => b
  | .int n => n ≠ 0
  | .float x => !Floats.isZero x
  | .text s => s ≠ ""
  | .container _ isEmpty => !isEmpty

/-- Whether a value is `None`. -/
def isNull : Value F → Bool
  | .null => true
  | _ => false

end Value

namespace Number

open Floats

/-- A number as a factor of a float. -/
def toFloat : Number F → Except PyException F
  | .int n =>
    match ofInt n with
    | none => .error .overflowError
    | some x => .ok x
  | .float x => .ok x

/-- `x <= number`. -/
def atLeast (x : F) : Number F → Bool
  | .int n => leInt x n
  | .float y => le x y

/-- `x >= number`. -/
def atMost (x : F) : Number F → Bool
  | .int n => intLe n x
  | .float y => le y x

/-- `number <= 0`. -/
def nonPositive : Number F → Bool
  | .int n => n ≤ 0
  | .float x => le x (lit 0)

/-- `number > 0`. -/
def positive : Number F → Bool
  | .int n => 0 < n
  | .float x => lt (lit 0) x

/-- Every integer up to this bound is a float. Python computes on with greater ones as integers, and a
product of theirs may overflow where they do not. -/
def isExact : Number F → Bool
  | .int n => n.natAbs ≤ 2 ^ 53
  | .float _ => true

end Number

namespace Value

/-- A value as a factor of a float. -/
def toFloat (v : Value F) : Except PyException F := v.number >>= Number.toFloat

/-- Whether a value is a number that is a float as it stands. -/
def isFactor (v : Value F) : Bool :=
  match v.number with
  | .ok n => n.isExact && n.toFloat.toOption.isSome
  | .error _ => false

/-- The value is a number, so that comparing it does not raise. -/
def IsNumber (v : Value F) : Prop := v.number.toOption.isSome = true

/-- The value is a number that a float holds, so that no use of it raises. -/
def IsFactor (v : Value F) : Prop := v.isFactor = true

instance (v : Value F) : Decidable v.IsNumber := inferInstanceAs (Decidable (_ = true))

instance (v : Value F) : Decidable v.IsFactor := inferInstanceAs (Decidable (_ = true))

variable {v : Value F}

omit [Floats F] in
/-- A value that is a number is read as one. -/
theorem IsNumber.exists (h : v.IsNumber) : ∃ n, v.number = .ok n := by
  unfold IsNumber at h
  cases hv : v.number with
  | ok n => exact ⟨n, rfl⟩
  | error e =>
    rw [hv] at h
    cases h

/-- A factor is a number that a float can hold. -/
theorem IsFactor.exists (h : v.IsFactor) : ∃ n x, v.number = .ok n ∧ n.toFloat = .ok x := by
  unfold IsFactor isFactor at h
  cases hv : v.number with
  | ok n =>
    simp only [hv, Bool.and_eq_true] at h
    cases hn : n.toFloat with
    | ok x => exact ⟨n, x, rfl, hn⟩
    | error e =>
      rw [hn] at h
      cases h.2
  | error e =>
    rw [hv] at h
    cases h

end Value

end TradingSim.RawOrders
