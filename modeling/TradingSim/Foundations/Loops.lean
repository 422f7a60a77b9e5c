import Mathlib.Algebra.BigOperators.Intervals
import Mathlib.Algebra.Order.Floor.Ring
import Mathlib.Data.List.Basic
import Mathlib.Data.List.Enum
import Mathlib.Data.List.Induction
import Mathlib.Data.Rat.Floor
import Mathlib.Order.Nat

/-!
# Loops

Four kinds of loop: through a list with a counter; with a counter that goes up from a number and a body
that may read where there is nothing, which has a result only if every turn has one; with a counter that
starts at any number and goes up by one until it reaches a bound; and over the indices of an array between
two bounds. An array is read at any number: what is no index of it has no entry.
-/

namespace Foundations

/-! ### Loops over the entries of a list and their indices -/

section Indexed

variable {S R β : Type*}

/-- The state after a loop over a list, whose body sees the index of each entry. -/
def foldIdx (step : S → ℕ → β → S) (s : S) (l : List β) : S :=
  l.zipIdx.foldl (fun s e => step s e.2 e.1) s

@[simp] theorem foldIdx_nil (step : S → ℕ → β → S) (s : S) : foldIdx step s [] = s := rfl

@[simp] theorem foldIdx_concat (step : S → ℕ → β → S) (s : S) (l : List β) (b : β) :
    foldIdx step s (l ++ [b]) = step (foldIdx step s l) l.length b := by
  simp [foldIdx, List.zipIdx_append]

variable {step : S → ℕ → β → S}

/-- A variable whose next value depends on no other one. -/
theorem foldIdx_read (read : S → R) {body : R → ℕ → β → R}
    (hread : ∀ s i b, read (step s i b) = body (read s) i b) (s : S) (l : List β) :
    read (foldIdx step s l) = foldIdx body (read s) l := by
  induction l using List.reverseRecOn with
  | nil => rfl
  | append_singleton l b ih => rw [foldIdx_concat, foldIdx_concat, hread, ih]

/-- A variable whose next value depends on no other one and not on the index. -/
theorem foldIdx_read_foldl (read : S → R) {body : R → β → R}
    (hread : ∀ s i b, read (step s i b) = body (read s) b) (s : S) (l : List β) :
    read (foldIdx step s l) = l.foldl body (read s) := by
  induction l using List.reverseRecOn with
  | nil => rfl
  | append_singleton l b ih => rw [foldIdx_concat, List.foldl_concat, hread, ih]

/-- A variable that the body leaves alone. -/
theorem foldIdx_unchanged (read : S → R) (hread : ∀ s i b, read (step s i b) = read s) (s : S) (l : List β) :
    read (foldIdx step s l) = read s := by
  induction l using List.reverseRecOn with
  | nil => rfl
  | append_singleton l b ih => rw [foldIdx_concat, hread, ih]

/-- A variable that is set at one index only. -/
theorem foldIdx_snapshot (keep : S → R) (value : S → R) (k : ℕ)
    (hkeep : ∀ s i b, keep (step s i b) = if i = k then value (step s i b) else keep s) (s : S)
    (l : List β) : keep (foldIdx step s l) =
      if k < l.length then value (foldIdx step s (l.take (k + 1))) else keep s := by
  induction l using List.reverseRecOn with
  | nil => rfl
  | append_singleton l b ih =>
    rw [foldIdx_concat, hkeep, List.length_append, List.length_singleton]
    rcases lt_trichotomy l.length k with hlt | heq | hgt
    · rw [if_neg hlt.ne, ih, if_neg (by omega), if_neg (by omega)]
    · rw [if_pos heq, if_pos (by omega), List.take_of_length_le (by simp [heq]), foldIdx_concat]
    · rw [if_neg (by omega), ih, if_pos hgt, if_pos (by omega), List.take_append_of_le_length hgt]

end Indexed

/-! ### Loops over arrays with checked reads -/

section Checked

variable {S : Type*}

/-- The state after so many turns of a loop that counts up from a number. -/
def checkedLoop (start turns : ℕ) (body : S → ℕ → Option S) (s : S) : Option S :=
  (List.range' start turns).foldlM body s

variable {k n : ℕ} {f : S → ℕ → Option S} {s : S}

@[simp] theorem checkedLoop_zero (k : ℕ) (f : S → ℕ → Option S) (s : S) :
    checkedLoop k 0 f s = some s := rfl

/-- One more turn. -/
theorem checkedLoop_succ (k n : ℕ) (f : S → ℕ → Option S) (s : S) : checkedLoop k (n + 1) f s =
      (checkedLoop k n f s).bind fun t => f t (k + n) := by
  simp [checkedLoop, List.range'_concat]

/-- **The invariant rule.** -/
theorem checkedLoop_spec (P : ℕ → S → Prop) (hstart : P k s)
    (hbody : ∀ i t, k ≤ i → i < k + n → P i t → ∃ t', f t i = some t' ∧ P (i + 1) t') :
    ∃ t, checkedLoop k n f s = some t ∧ P (k + n) t := by
  induction n with
  | zero => exact ⟨s, rfl, hstart⟩
  | succ n ih =>
    obtain ⟨t, hrun, hinv⟩ := ih fun i t hle hlt => hbody i t hle (by omega)
    obtain ⟨t', hturn, hinv'⟩ := hbody (k + n) t (by omega) (by omega) hinv
    refine ⟨t', ?_, hinv'⟩
    rw [checkedLoop_succ, hrun, Option.bind_some, hturn]

theorem checkedLoop_isSome (hbody : ∀ i t, k ≤ i → i < k + n → (f t i).isSome) :
    (checkedLoop k n f s).isSome := by
  obtain ⟨t, hrun, -⟩ := checkedLoop_spec (fun _ _ => True) trivial fun i t hle hlt _ => by
    obtain ⟨t', hturn⟩ := Option.isSome_iff_exists.mp (hbody i t hle hlt)
    exact ⟨t', hturn, trivial⟩
  rw [hrun, Option.isSome_some]

theorem checkedLoop_eq_none {i : ℕ} (hle : k ≤ i) (hlt : i < k + n)
    (hbody : ∀ t, f t i = none) : checkedLoop k n f s = none := by
  induction n with
  | zero => omega
  | succ n ih =>
    rw [checkedLoop_succ]
    rcases Nat.lt_or_ge i (k + n) with hbefore | hlast
    · rw [ih hbefore, Option.bind_none]
    · have heq : i = k + n := by omega
      rw [← heq]
      cases checkedLoop k n f s with
      | none => rfl
      | some t => exact hbody t

end Checked

/-! ### Loops that count up -/

section Counting

variable {S R : Type*}

/-- The state after so many turns of a loop that counts up from a number. -/
def countUp (start : ℚ) (turns : ℕ) (body : ℚ → S → S) (s : S) : S :=
  (List.range turns).foldl (fun s (j : ℕ) => body (start + j) s) s

/-- How often a loop turns while its counter is below a bound. -/
def turnsBelow (start bound : ℚ) : ℕ := ⌈bound - start⌉.toNat

/-- How often a loop turns while its counter is no higher than a bound. -/
def turnsUpTo (start bound : ℚ) : ℕ := (⌊bound - start⌋ + 1).toNat

theorem lt_turnsBelow {start bound : ℚ} {j : ℕ} : j < turnsBelow start bound ↔ start + j < bound := by
  rw [turnsBelow, Int.lt_toNat, Int.lt_ceil, lt_sub_iff_add_lt, add_comm, Int.cast_natCast]

theorem lt_turnsUpTo {start bound : ℚ} {j : ℕ} : j < turnsUpTo start bound ↔ start + j ≤ bound := by
  rw [turnsUpTo, Int.lt_toNat, Int.lt_add_one_iff, Int.le_floor, le_sub_iff_add_le, add_comm,
    Int.cast_natCast]

theorem turnsBelow_mono (start : ℚ) {bound bound' : ℚ} (h : bound ≤ bound') :
    turnsBelow start bound ≤ turnsBelow start bound' :=
  Int.toNat_le_toNat (Int.ceil_mono (sub_le_sub_right h start))

/-- Further turns go on from the state and the counter that the first ones leave. -/
theorem countUp_add (start : ℚ) (first second : ℕ) (body : ℚ → S → S) (s : S) :
    countUp start (first + second) body s =
      countUp (start + first) second body (countUp start first body s) := by
  simp only [countUp, List.range_add, List.foldl_append, List.foldl_map, Nat.cast_add, add_assoc]

/-- Loops whose bodies agree on the numbers they count are the same. -/
theorem countUp_congr {start : ℚ} {turns : ℕ} {body body' : ℚ → S → S}
    (h : ∀ j < turns, ∀ s, body (start + j) s = body' (start + j) s) (s : S) :
    countUp start turns body s = countUp start turns body' s := by
  induction turns with
  | zero => rfl
  | succ turns ih =>
    rw [countUp_add, countUp_add, ih fun j hj => h j (hj.trans (Nat.lt_succ_self turns))]
    have hlast := h turns (Nat.lt_succ_self turns) (countUp start turns body' s)
    simpa [countUp] using hlast

theorem countUp_unchanged {start : ℚ} {turns : ℕ} {body : ℚ → S → S} (read : S → R)
    (h : ∀ j < turns, ∀ s, read (body (start + j) s) = read s) (s : S) :
    read (countUp start turns body s) = read s := by
  induction turns with
  | zero => rfl
  | succ turns ih =>
    have hlast := h turns (Nat.lt_succ_self turns) (countUp start turns body s)
    rw [countUp_add]
    refine Eq.trans ?_ (ih fun j hj => h j (hj.trans (Nat.lt_succ_self turns)))
    simpa [countUp] using hlast

theorem countUp_read_below {start cut bound : ℚ} {body : ℚ → S → S} (read : S → R)
    (hcut : cut ≤ bound) (h : ∀ x, cut ≤ x → ∀ s, read (body x s) = read s) (s : S) :
    read (countUp start (turnsBelow start bound) body s) =
      read (countUp start (turnsBelow start cut) body s) := by
  obtain ⟨rest, hrest⟩ := Nat.exists_eq_add_of_le (turnsBelow_mono start hcut)
  rw [hrest, countUp_add]
  apply countUp_unchanged read
  intro j _
  apply h
  -- The counter has passed the cut when the first turns are over.
  by_contra hbelow
  have hturn : turnsBelow start cut + j < turnsBelow start cut := by
    rw [lt_turnsBelow, Nat.cast_add, ← add_assoc]
    exact not_le.mp hbelow
  omega

/-- Two loops read the same if their bodies agree below a number and leave the reading alone from
that number on. -/
theorem countUp_agree {start cut bound bound' : ℚ} {body body' : ℚ → S → S} (read : S → R)
    (hcut : cut ≤ bound) (hcut' : cut ≤ bound') (hagree : ∀ x, x < cut → ∀ s, body x s = body' x s)
    (h : ∀ x, cut ≤ x → ∀ s, read (body x s) = read s)
    (h' : ∀ x, cut ≤ x → ∀ s, read (body' x s) = read s) (s : S) :
    read (countUp start (turnsBelow start bound) body s) =
      read (countUp start (turnsBelow start bound') body' s) := by
  rw [countUp_read_below read hcut h, countUp_read_below read hcut' h']
  exact congrArg read (countUp_congr (fun j hj => hagree _ (lt_turnsBelow.mp hj)) s)

/-- The entry of an array at a number, if the number is an index of it. -/
def entryAt {V : Type*} (xs : List V) (x : ℚ) : Option V :=
  if x.den = 1 ∧ 0 ≤ x then xs[x.num.toNat]? else none

theorem entryAt_congr {V : Type*} {xs ys : List V} {k : ℕ} (h : xs.take k = ys.take k) {x : ℚ}
    (hx : x < k) : entryAt xs x = entryAt ys x := by
  unfold entryAt
  split_ifs with hindex
  · obtain ⟨hwhole, hnonneg⟩ := hindex
    have hnum : x.num.toNat < k := by
      have hcast : (x.num : ℚ) = x := (Rat.den_eq_one_iff x).mp hwhole
      rw [← hcast] at hx
      have hlt : x.num < k := by exact_mod_cast hx
      have hpos : 0 ≤ x.num := Rat.num_nonneg.mpr hnonneg
      omega
    rw [← List.getElem?_take_of_lt hnum, h, List.getElem?_take_of_lt hnum]
  · rfl

end Counting

/-! ### Loops over the indices of an array -/

section Indices

variable {S : Type*} {k n : ℕ} {f : ℕ → S → S} {s : S}

/-- The state after a loop whose counter goes up from an index until it reaches another one. -/
def forLoop (start stop : ℕ) (body : ℕ → S → S) (s : S) : S :=
  (List.range' start (stop - start)).foldl (fun s i => body i s) s

@[simp] theorem forLoop_self (k : ℕ) (f : ℕ → S → S) (s : S) : forLoop k k f s = s := by
  rw [forLoop, Nat.sub_self]
  rfl

/-- One more turn. -/
theorem forLoop_succ (hle : k ≤ n) : forLoop k (n + 1) f s = f n (forLoop k n f s) := by
  rw [forLoop, Nat.succ_sub hle, List.range'_concat, List.foldl_concat, forLoop, one_mul,
    Nat.add_sub_cancel' hle]

/-- **The invariant rule.** -/
theorem forLoop_spec (P : ℕ → S → Prop) (hle : k ≤ n) (hstart : P k s)
    (hbody : ∀ i t, k ≤ i → i < n → P i t → P (i + 1) (f i t)) : P n (forLoop k n f s) := by
  induction n, hle using Nat.le_induction with
  | base => rwa [forLoop_self]
  | succ n hle ih =>
    rw [forLoop_succ hle]
    exact hbody n _ hle (Nat.lt_succ_self n)
      (ih fun i t hi hlt => hbody i t hi (Nat.lt_succ_of_lt hlt))

end Indices

end Foundations
