import Mathlib.Data.Nat.Notation
import Mathlib.Tactic.IntervalCases
import Mathlib.Data.List.Basic

/-!
# Zero-padded hexadecimal numerals

Numerals with a minimal width, filled with zeros on the left. Reading the digits back
recovers the number, so a numeral names one number only. Every character of a numeral
is a digit, so a text with any other character in it is no numeral.
-/

namespace Foundations

/-- The hexadecimal numeral of a number, padded with zeros to a minimal width. -/
def paddedHex (width n : ℕ) : String := String.ofList (List.leftpad width '0' (Nat.toDigits 16 n))

namespace Numeral

/-- The value of a hexadecimal digit. -/
def digitValue (c : Char) : ℕ := if c.toNat < 58 then c.toNat - 48 else c.toNat - 87

/-- The number that a list of hexadecimal digits denotes. -/
def value (digits : List Char) : ℕ := digits.foldl (fun acc c => 16 * acc + digitValue c) 0

theorem digitValue_digitChar {d : ℕ} (hd : d < 16) : digitValue d.digitChar = d := by
  interval_cases d <;> rfl

theorem value_append_singleton (digits : List Char) (c : Char) :
    value (digits ++ [c]) = 16 * value digits + digitValue c := by
  simp [value]

/-- Reading a numeral back gives the number. -/
theorem value_toDigits (n : ℕ) : value (Nat.toDigits 16 n) = n := by
  induction n using Nat.strong_induction_on with
  | _ n ih =>
    rw [Nat.toDigits_eq_if (by omega)]
    split
    · rename_i hlt
      simp [value, digitValue_digitChar hlt]
    · rename_i hge
      have hlt : n / 16 < n := by omega
      have hmod : n % 16 < 16 := Nat.mod_lt n (by omega)
      rw [value_append_singleton, ih _ hlt, digitValue_digitChar hmod]
      omega

/-- Leading zeros do not count. -/
theorem value_leftpad (width : ℕ) (digits : List Char) :
    value (List.leftpad width '0' digits) = value digits := by
  have hzeros : ∀ k, (List.replicate k '0').foldl (fun acc c => 16 * acc + digitValue c) 0 = 0 := by
    intro k
    induction k with
    | zero => rfl
    | succ k ih => rw [List.replicate_succ, List.foldl_cons]; exact ih
  rw [value, List.leftpad, List.foldl_append, hzeros]
  rfl

/-- Every character of a numeral is the digit of a value below sixteen. -/
theorem exists_digit_of_mem_toDigits (n : ℕ) {c : Char} (hc : c ∈ Nat.toDigits 16 n) :
    ∃ d < 16, c = d.digitChar := by
  induction n using Nat.strong_induction_on with
  | _ n ih =>
    rw [Nat.toDigits_eq_if (by omega)] at hc
    split at hc
    · rename_i hlt
      exact ⟨n, hlt, List.mem_singleton.mp hc⟩
    · rename_i hge
      have hlt : n / 16 < n := by omega
      rcases List.mem_append.mp hc with hhigh | hlow
      · exact ih _ hlt hhigh
      · exact ⟨n % 16, Nat.mod_lt n (by omega), List.mem_singleton.mp hlow⟩

end Numeral

theorem paddedHex_injective (width : ℕ) : Function.Injective (paddedHex width) := by
  intro n n' heq
  have hlists := String.ofList_injective heq
  have hvalues := congrArg Numeral.value hlists
  rwa [Numeral.value_leftpad, Numeral.value_leftpad, Numeral.value_toDigits,
    Numeral.value_toDigits] at hvalues

theorem paddedHex_ne_empty {width : ℕ} (n : ℕ) (hwidth : 0 < width) : paddedHex width n ≠ "" := by
  intro hempty
  have hlist : List.leftpad width '0' (Nat.toDigits 16 n) = [] := String.ofList_injective hempty
  have hlength := congrArg List.length hlist
  rw [List.length_leftpad, List.length_nil] at hlength
  omega

theorem underscore_not_mem_paddedHex (width n : ℕ) : '_' ∉ (paddedHex width n).toList := by
  rw [paddedHex, String.toList_ofList, List.leftpad, List.mem_append, not_or]
  refine ⟨fun hpad => absurd (List.eq_of_mem_replicate hpad) (by decide), fun hdigit => ?_⟩
  obtain ⟨d, hd, heq⟩ := Numeral.exists_digit_of_mem_toDigits n hdigit
  interval_cases d <;> exact absurd heq (by decide)

end Foundations
