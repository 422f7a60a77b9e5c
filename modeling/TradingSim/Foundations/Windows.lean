import Mathlib.Algebra.Order.Group.Defs
import Mathlib.Data.List.Basic
import Mathlib.Data.List.Count
import Mathlib.Data.List.Pairwise
import Mathlib.Data.List.TakeDrop
import Mathlib.Data.Nat.ModEq
import Mathlib.Logic.Function.Basic
import Mathlib.Order.Basic
import Mathlib.Tactic.Abel

/-!
# Windows

A buffer of finitely many slots is addressed by growing positions, each reduced modulo the number of slots.
A window holds a list from a position on when the slots of the following positions contain its elements.

Counters kept modulo a bound still give the distance of the counts they stand for, as long as that distance
stays below the bound.
-/

namespace Foundations

/-! ### Cyclic windows -/

section Cyclic

variable {α : Type*}

/-- The slots from a position on hold the elements of a list. -/
def Holds (size : ℕ) (data : ℕ → α) (lo : ℕ) (items : List α) : Prop :=
  ∀ i (h : i < items.length), data ((lo + i) % size) = items[i]

@[simp] theorem holds_nil (size : ℕ) (data : ℕ → α) (lo : ℕ) : Holds size data lo [] :=
  fun _ h => absurd h (Nat.not_lt_zero _)

/-- Positions less than one round apart have different slots. -/
theorem mod_ne_mod {size lo i j : ℕ} (hij : i < j) (hj : j < size) :
    (lo + i) % size ≠ (lo + j) % size := by
  intro h
  have hdvd : size ∣ lo + j - (lo + i) := (Nat.modEq_iff_dvd' (by omega)).mp h
  have := Nat.le_of_dvd (by omega) hdvd
  omega

variable {data : ℕ → α} {items : List α} {size : ℕ} {lo : ℕ}

theorem holds_append {xs ys : List α} :
    Holds size data lo (xs ++ ys) ↔ Holds size data lo xs ∧ Holds size data (lo + xs.length) ys := by
  constructor
  · intro h
    constructor
    · intro i hi
      have := h i (by rw [List.length_append]; omega)
      rwa [List.getElem_append_left hi] at this
    · intro i hi
      have := h (xs.length + i) (by rw [List.length_append]; omega)
      rw [List.getElem_append_right (by omega)] at this
      simpa only [add_assoc, Nat.add_sub_cancel_left] using this
  · rintro ⟨hxs, hys⟩ i hi
    rw [List.length_append] at hi
    by_cases hlt : i < xs.length
    · rw [List.getElem_append_left hlt]
      exact hxs i hlt
    · rw [List.getElem_append_right (by omega), ← hys (i - xs.length) (by omega)]
      congr 2
      omega

/-- A window is left alone by a write at a position behind it, less than one round from its
start. -/
theorem Holds.update
    (h : Holds size data lo items) {n : ℕ} (hbehind : items.length ≤ n) (hround : n < size) (a : α) :
    Holds size (Function.update data ((lo + n) % size) a) lo items := by
  intro i hi
  rw [Function.update_of_ne (mod_ne_mod (by omega) hround)]
  exact h i hi

/-- A window is left alone by a write at a position in front of it, less than one round from its
end. -/
theorem Holds.update_before {lo n : ℕ}
    (h : Holds size data (lo + n) items) (hbefore : 0 < n) (hround : n + items.length ≤ size) (a : α) :
    Holds size (Function.update data (lo % size) a) (lo + n) items := by
  intro i hi
  have hne : (lo + 0) % size ≠ (lo + (n + i)) % size := mod_ne_mod (by omega) (by omega)
  rw [Nat.add_zero, ← add_assoc] at hne
  rw [Function.update_of_ne hne.symm]
  exact h i hi

/-- Writing right behind a window extends it. -/
theorem Holds.push (h : Holds size data lo items) (hround : items.length < size) (a : α) :
    Holds size (Function.update data ((lo + items.length) % size) a) lo (items ++ [a]) := by
  rw [holds_append]
  refine ⟨h.update le_rfl hround a, ?_⟩
  intro i hi
  have hzero : i = 0 := by simpa using hi
  subst hzero
  simp

theorem Holds.drop (h : Holds size data lo items) {n : ℕ} (hn : n ≤ items.length) :
    Holds size data (lo + n) (items.drop n) := by
  rw [← List.take_append_drop n items, holds_append, List.length_take, min_eq_left hn] at h
  exact h.2

/-- The contents of the slots from a position on. -/
def window (size : ℕ) (data : ℕ → α) (lo n : ℕ) : List α :=
  (List.range n).map fun i => data ((lo + i) % size)

theorem window_congr (size : ℕ) (data : ℕ → α) {lo lo' : ℕ} (hslot : lo % size = lo' % size) (n : ℕ) :
    window size data lo n = window size data lo' n := by
  refine List.map_congr_left fun i _ => ?_
  rw [Nat.add_mod, hslot, ← Nat.add_mod]

theorem window_eq (h : Holds size data lo items) : window size data lo items.length = items := by
  apply List.ext_getElem
  · simp [window]
  · intro i _ hi
    simp [window, h i hi]

theorem distance_mod {a b bound : ℕ} (hle : b ≤ a) (hlt : a - b < bound) :
    (a % bound + (bound - b % bound)) % bound = a - b := by
  have hb : b % bound < bound := Nat.mod_lt _ (by omega)
  have hrounds : a + (bound - b % bound) = a - b + bound * (b / bound + 1) := by
    have hsplit := Nat.div_add_mod b bound
    rw [mul_add, mul_one]
    omega
  rw [Nat.mod_add_mod, hrounds, Nat.add_mul_mod_self_left, Nat.mod_eq_of_lt hlt]

end Cyclic

/-! ### Fixed windows -/

section Fixed

variable {T α β : Type*}

/-- A window that an arrival has started. -/
structure Window (T α : Type*) where
  start : T
  arrivals : List α
  deriving DecidableEq

section Split

variable [Sub T] [LE T] [DecidableLE T]

/-- The arrivals of the current window and the windows that are started after it. -/
def splitWindows (time : α → T) (length : T) : T → List α → List α × List (Window T α)
  | _, [] => ([], [])
  | start, e :: rest =>
    if length ≤ time e - start then
      let later := splitWindows time length (time e) rest
      ([], ⟨time e, e :: later.1⟩ :: later.2)
    else
      let later := splitWindows time length start rest
      (e :: later.1, later.2)

/-- All windows, with the current one. -/
def windowsFrom (time : α → T) (length start : T) (arrivals : List α) : List (Window T α) :=
  ⟨start, (splitWindows time length start arrivals).1⟩ :: (splitWindows time length start arrivals).2

theorem flatMap_windowsFrom (time : α → T) (length start : T) (arrivals : List α) :
    (windowsFrom time length start arrivals).flatMap Window.arrivals = arrivals := by
  induction arrivals generalizing start with
  | nil => rfl
  | cons e rest ih =>
    rw [windowsFrom, splitWindows]
    split_ifs with hopen
    · simpa [windowsFrom] using ih (time e)
    · simpa [windowsFrom] using ih start

theorem splitWindows_map (time : α → T) (f : β → α) (length start : T) (arrivals : List β) :
    splitWindows time length start (arrivals.map f) =
      ((splitWindows (fun b => time (f b)) length start arrivals).1.map f,
        (splitWindows (fun b => time (f b)) length start arrivals).2.map fun w =>
          ⟨w.start, w.arrivals.map f⟩) := by
  induction arrivals generalizing start with
  | nil => rfl
  | cons b rest ih =>
    rw [List.map_cons, splitWindows, splitWindows]
    split_ifs with hopen
    · simp [ih]
    · simp [ih]

end Split

section Ordered

variable [AddCommGroup T] [LinearOrder T]

/-- The arrivals of a window come from its start on and before its end. -/
def Window.Proper (time : α → T) (length : T) (w : Window T α) : Prop :=
  ∀ e ∈ w.arrivals, w.start ≤ time e ∧ time e < w.start + length

theorem windowsFrom_proper [IsOrderedAddMonoid T] (time : α → T) {length : T} (hlength : 0 < length) {start : T}
    {arrivals : List α} (hsorted : (start :: arrivals.map time).Pairwise (· ≤ ·)) :
    (∀ w ∈ windowsFrom time length start arrivals, w.Proper time length) ∧
      (windowsFrom time length start arrivals).Pairwise fun w w' => w.start + length ≤ w'.start := by
  induction arrivals generalizing start with
  | nil => simp [windowsFrom, splitWindows, Window.Proper]
  | cons e rest ih =>
    rw [List.map_cons, List.pairwise_cons, List.forall_mem_cons, List.pairwise_cons] at hsorted
    obtain ⟨⟨hle, hstart⟩, hfirst, hrest⟩ := hsorted
    by_cases hopen : length ≤ time e - start
    · -- The arrival starts a window, which the later ones are after.
      obtain ⟨hproper, hspaced⟩ := ih (List.pairwise_cons.mpr ⟨hfirst, hrest⟩)
      have hend : start + length ≤ time e := by rwa [add_comm, ← le_sub_iff_add_le]
      rw [windowsFrom, List.forall_mem_cons] at hproper
      rw [windowsFrom, List.pairwise_cons] at hspaced
      simp only [windowsFrom, splitWindows, if_pos hopen, List.forall_mem_cons, List.pairwise_cons]
      refine ⟨⟨by simp [Window.Proper], ?_, hproper.2⟩, ⟨hend, ?_⟩, hspaced⟩
      · exact List.forall_mem_cons.mpr ⟨⟨le_rfl, lt_add_of_pos_right _ hlength⟩, hproper.1⟩
      · intro w hw
        exact hend.trans ((le_add_of_nonneg_right hlength.le).trans (hspaced.1 w hw))
    · obtain ⟨hproper, hspaced⟩ := @ih start (List.pairwise_cons.mpr ⟨hstart, hrest⟩)
      have hlt : time e < start + length := by rwa [add_comm, ← sub_lt_iff_lt_add, ← not_le]
      rw [windowsFrom, List.forall_mem_cons] at hproper
      rw [windowsFrom, List.pairwise_cons] at hspaced
      simp only [windowsFrom, splitWindows, if_neg hopen, List.forall_mem_cons, List.pairwise_cons]
      exact ⟨⟨List.forall_mem_cons.mpr ⟨⟨hle, hlt⟩, hproper.1⟩, hproper.2⟩, hspaced⟩

/-- Arrivals of windows that start after a moment are not before it. -/
theorem countP_eq_zero_of_after {time : α → T} {length b : T} {windows : List (Window T α)}
    (hproper : ∀ w ∈ windows, w.Proper time length) (hafter : ∀ w ∈ windows, b < w.start)
    {p : α → Bool} (hp : ∀ e, p e → time e ≤ b) : (windows.flatMap Window.arrivals).countP p = 0 := by
  rw [List.countP_eq_zero]
  intro e he hpe
  obtain ⟨w, hw, hmem⟩ := List.mem_flatMap.mp he
  exact absurd (hp e hpe) (not_le.mpr ((hafter w hw).trans_le (hproper w hw e hmem).1))

theorem countP_le_two_windows [IsOrderedAddMonoid T] {time : α → T} {length a b : T}
    (hle : b - a ≤ length) {p : α → Bool}
    (hp : ∀ e, p e → a ≤ time e ∧ time e ≤ b) {budget : ℕ} {windows : List (Window T α)}
    (hproper : ∀ w ∈ windows, w.Proper time length)
    (hspaced : windows.Pairwise fun w w' => w.start + length ≤ w'.start)
    (hbudget : ∀ w ∈ windows, w.arrivals.countP p ≤ budget) :
    (windows.flatMap Window.arrivals).countP p ≤ 2 * budget := by
  induction windows with
  | nil => simp
  | cons w rest ih =>
    rw [List.forall_mem_cons] at hproper hbudget
    rw [List.pairwise_cons] at hspaced
    rw [List.flatMap_cons, List.countP_append]
    rcases Nat.eq_zero_or_pos (w.arrivals.countP p) with hnone | hsome
    · rw [hnone, Nat.zero_add]
      exact ih hproper.2 hspaced.2 hbudget.2
    · -- The stretch begins in this window, so that it ends before the window after the next.
      obtain ⟨e, he, hpe⟩ := List.countP_pos_iff.mp hsome
      have ha : a < w.start + length := (hp e hpe).1.trans_lt (hproper.1 e he).2
      cases rest with
      | nil =>
        simp only [List.flatMap_nil, List.countP_nil]
        omega
      | cons w' later =>
        rw [List.forall_mem_cons] at hproper hbudget hspaced
        rw [List.pairwise_cons] at hspaced
        have hafter : ∀ u ∈ later, b < u.start := by
          intro u hu
          calc b ≤ length + a := sub_le_iff_le_add.mp hle
            _ < length + w'.start := by
              have := ha.trans_le hspaced.1.1
              gcongr
            _ = w'.start + length := add_comm _ _
            _ ≤ u.start := hspaced.2.1 u hu
        rw [List.flatMap_cons, List.countP_append,
          countP_eq_zero_of_after hproper.2.2 hafter fun e he => (hp e he).2]
        omega

end Ordered

end Fixed

end Foundations
