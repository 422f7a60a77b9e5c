import Mathlib.Data.Rat.Floor
import Mathlib.Algebra.Order.Field.Rat

/-!
# Exact arithmetic with the source's rounding

Prices, quantities and money are exact rationals. What the source does with binary floats beyond
field arithmetic is collected in `Numerics`, and the development is parametric in it;
`Numerics.decimal` is the instance with decimal half-to-even rounding.
-/

namespace TradingSim.Exchange

/-- The number formatting and rounding that the exchange calls. -/
structure Numerics where
  /-- The built-in `round(x, n)`. -/
  round : ℚ → ℕ → ℚ
  /-- The price tick, `round_price`. -/
  roundPrice : ℚ → ℚ
  /-- The rendering of a number in a format string without a precision. -/
  str : ℚ → String
  /-- The rendering with a fixed number of decimals. -/
  fixed : ℚ → ℕ → String

/-- The price tick: two decimals for dollar-scale prices, eight below one dollar. -/
def roundPriceWith (round : ℚ → ℕ → ℚ) (price : ℚ) : ℚ :=
  if 1 ≤ price then round price 2 else round price 8

/-- The nearest integer, ties going to the even neighbour. -/
def nearestEven (x : ℚ) : ℤ :=
  let low := ⌊x⌋
  if x - low < 1 / 2 then low
  else if 1 / 2 < x - low then low + 1
  else if low % 2 = 0 then low else low + 1

/-- The built-in `round` on exact decimals. -/
def roundHalfEven (x : ℚ) (n : ℕ) : ℚ := nearestEven (x * 10 ^ n) / 10 ^ n

/-- Truncation toward zero, the built-in `int`. -/
def truncate (x : ℚ) : ℤ := if 0 ≤ x then ⌊x⌋ else ⌈x⌉

/-- A decimal rendering with a fixed number of fraction digits. -/
def fixedText (x : ℚ) (n : ℕ) : String :=
  let scaled := nearestEven (x * 10 ^ n)
  let digits := List.leftpad (n + 1) '0' (Nat.toDigits 10 scaled.natAbs)
  let sign := if scaled < 0 then "-" else ""
  let fraction := if n = 0 then "" else "." ++ String.ofList (digits.drop (digits.length - n))
  sign ++ String.ofList (digits.take (digits.length - n)) ++ fraction

/-- Decimal rounding throughout, with `round_price` as the source defines it. -/
def Numerics.decimal : Numerics where
  round := roundHalfEven
  roundPrice := roundPriceWith roundHalfEven
  str := fun x => fixedText x 1
  fixed := fixedText

example : roundHalfEven (5 / 2) 0 = 2 ∧ fixedText (-5 / 4) 1 = "-1.2" := by decide +kernel

end TradingSim.Exchange
