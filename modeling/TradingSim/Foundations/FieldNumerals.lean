import Mathlib.Data.Nat.Cast.Defs

/-!
# Numerals of fields

A numeral of a field rests on its being at least two. Inside a definition Lean makes a lemma of such a fact,
named after the first file that states it; the general instance is applied to a number, and so is such a
fact. These have names of their own and are the same in every file.
-/

namespace Foundations

instance atLeastTwo_2 : Nat.AtLeastTwo 2 := ⟨by decide⟩

instance atLeastTwo_3 : Nat.AtLeastTwo 3 := ⟨by decide⟩

instance atLeastTwo_4 : Nat.AtLeastTwo 4 := ⟨by decide⟩

instance atLeastTwo_5 : Nat.AtLeastTwo 5 := ⟨by decide⟩

instance atLeastTwo_7 : Nat.AtLeastTwo 7 := ⟨by decide⟩

instance atLeastTwo_10 : Nat.AtLeastTwo 10 := ⟨by decide⟩

instance atLeastTwo_15 : Nat.AtLeastTwo 15 := ⟨by decide⟩

instance atLeastTwo_20 : Nat.AtLeastTwo 20 := ⟨by decide⟩

instance atLeastTwo_25 : Nat.AtLeastTwo 25 := ⟨by decide⟩

instance atLeastTwo_30 : Nat.AtLeastTwo 30 := ⟨by decide⟩

instance atLeastTwo_40 : Nat.AtLeastTwo 40 := ⟨by decide⟩

instance atLeastTwo_50 : Nat.AtLeastTwo 50 := ⟨by decide⟩

instance atLeastTwo_60 : Nat.AtLeastTwo 60 := ⟨by decide⟩

instance atLeastTwo_70 : Nat.AtLeastTwo 70 := ⟨by decide⟩

instance atLeastTwo_100 : Nat.AtLeastTwo 100 := ⟨by decide⟩

instance atLeastTwo_1000 : Nat.AtLeastTwo 1000 := ⟨by decide⟩

instance atLeastTwo_10000 : Nat.AtLeastTwo 10000 := ⟨by decide⟩

end Foundations
