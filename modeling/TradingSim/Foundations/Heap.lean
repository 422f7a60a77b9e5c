import Mathlib.Data.List.Basic
import Mathlib.Data.List.GetD
import Mathlib.Algebra.BigOperators.Group.List.Basic
import Mathlib.Tactic.Abel

/-!
# Objects behind references

Languages with object identity let several containers hold the same mutable object.
A heap stores the objects in order of allocation and a reference is the position of its
object, so two containers share an object by holding the same reference and an update
through one is seen through the other. Objects are never freed.
-/

namespace Foundations

/-- A reference to an object of a heap. -/
abbrev Ref := ℕ

/-- The objects allocated so far, oldest first. -/
structure Heap (α : Type*) where
  cells : List α

namespace Heap

variable {α : Type*}

/-- The heap before any allocation. -/
def empty : Heap α := ⟨[]⟩

/-- A reference is live once its object has been allocated. -/
def Live (h : Heap α) (r : Ref) : Prop := r < h.cells.length

instance (h : Heap α) (r : Ref) : Decidable (h.Live r) :=
  inferInstanceAs (Decidable (r < h.cells.length))

/-- The object behind a reference. -/
def get [Inhabited α] (h : Heap α) (r : Ref) : α := h.cells.getD r default

/-- The reference that the next allocation returns. -/
def next (h : Heap α) : Ref := h.cells.length

/-- Allocate an object; its reference is `next`. -/
def alloc (h : Heap α) (a : α) : Heap α := ⟨h.cells ++ [a]⟩

/-- Update the object behind a reference. -/
def modify (h : Heap α) (r : Ref) (f : α → α) : Heap α := ⟨h.cells.modify r f⟩

variable (h : Heap α) {r : Ref} (a : α)

@[simp] theorem live_alloc (r : Ref) : (h.alloc a).Live r ↔ h.Live r ∨ r = h.next := by
  simp only [Live, alloc, next, List.length_append, List.length_singleton]
  exact Nat.lt_succ_iff_lt_or_eq

@[simp] theorem live_modify (r r' : Ref) (f : α → α) : (h.modify r f).Live r' ↔ h.Live r' := by
  simp [Live, modify]

@[simp] theorem next_modify (r : Ref) (f : α → α) : (h.modify r f).next = h.next := by
  simp [next, modify]

/-- Two updates of one object are one update. -/
theorem modify_modify (r : Ref) (f g : α → α) : (h.modify r f).modify r g = h.modify r (g ∘ f) := by
  rw [modify, modify, modify, List.modify_modify_eq]

/-- An update through a dead reference does nothing. -/
theorem modify_of_not_live (hr : ¬ h.Live r) (f : α → α) : h.modify r f = h := by
  rw [modify, List.modify_eq_self (Nat.le_of_not_lt hr)]

theorem not_live_next : ¬ h.Live h.next := Nat.lt_irrefl _

theorem Live.ne_next {h : Heap α} (hr : h.Live r) : r ≠ h.next :=
  fun heq => h.not_live_next (heq ▸ hr)

theorem modify_alloc_next (f : α → α) : (h.alloc a).modify h.next f = h.alloc (f a) := by
  rw [modify, alloc, next, List.modify_eq_take_cons_drop (by simp)]
  simp [alloc]

/-- An update of another object may as well come before the allocation. -/
theorem modify_alloc_of_live (hr : h.Live r) (f : α → α) :
    (h.alloc a).modify r f = (h.modify r f).alloc a := by
  have hlive : r < (h.cells ++ [a]).length := by
    rw [List.length_append]
    exact Nat.lt_add_right _ hr
  have hle : r + 1 ≤ h.cells.length := hr
  simp only [modify, alloc, List.modify_eq_take_cons_drop hlive, List.modify_eq_take_cons_drop hr,
    List.take_append_of_le_length (Nat.le_of_lt hr), List.drop_append_of_le_length hle,
    List.getElem_append_left hr, List.append_assoc, List.cons_append]

variable [Inhabited α]

theorem get_mem_cells (hr : h.Live r) : h.get r ∈ h.cells := by
  rw [get, List.getD_eq_getElem _ _ hr]
  exact List.getElem_mem hr

/-- Behind a dead reference there is the default object. -/
theorem get_of_not_live (hr : ¬ h.Live r) : h.get r = default :=
  List.getD_eq_default _ _ (Nat.le_of_not_lt hr)

@[simp] theorem get_alloc_next : (h.alloc a).get h.next = a := by
  simp [get, alloc, next, List.getD_eq_getElem?_getD]

theorem get_alloc_of_live (hr : h.Live r) : (h.alloc a).get r = h.get r := by
  simp only [get, alloc, List.getD_eq_getElem?_getD]
  rw [List.getElem?_append_left hr]

@[simp] theorem get_modify_self (hr : h.Live r) (f : α → α) : (h.modify r f).get r = f (h.get r) := by
  simp only [get, modify, List.getD_eq_getElem?_getD, List.getElem?_modify,
    List.getElem?_eq_getElem hr]
  simp

/-- An update reaches only the object behind its own reference. -/
theorem get_modify_of_ne {r r' : Ref} (hne : r' ≠ r) (f : α → α) : (h.modify r f).get r' = h.get r' := by
  simp only [get, modify, List.getD_eq_getElem?_getD, List.getElem?_modify]
  simp [hne.symm]

/-- The object behind any reference after an update through a live one. -/
theorem get_modify (hr : h.Live r) (r' : Ref) (f : α → α) :
    (h.modify r f).get r' = if r' = r then f (h.get r') else h.get r' := by
  by_cases hne : r' = r
  · subst hne
    simp [hr]
  · rw [if_neg hne, get_modify_of_ne h hne]

/-- Two updates that agree on the object are one update. -/
theorem modify_congr {f g : α → α} (hfg : f (h.get r) = g (h.get r)) : h.modify r f = h.modify r g := by
  simp only [get, List.getD_eq_getElem?_getD] at hfg
  rw [modify, modify, List.modify_eq_set, List.modify_eq_set, hfg]

section Total

variable {M : Type*} [AddCommGroup M]

/-- The sum of a quantity of the objects behind a list of references. -/
def total (h : Heap α) (f : α → M) (refs : List Ref) : M := (refs.map fun r => f (h.get r)).sum

variable {refs : List Ref} (h : Heap α)

theorem total_append_singleton (f : α → M) (refs : List Ref) (r : Ref) :
    h.total f (refs ++ [r]) = h.total f refs + f (h.get r) := by
  simp [total]

/-- Totals agree on heaps that agree on the listed objects. -/
theorem total_congr {h h' : Heap α} {f : α → M}
    (hagree : ∀ r ∈ refs, f (h'.get r) = f (h.get r)) : h'.total f refs = h.total f refs := by
  rw [total, total, List.map_congr_left hagree]

theorem total_alloc (a : α) (f : α → M)
    (hlive : ∀ r ∈ refs, h.Live r) : (h.alloc a).total f refs = h.total f refs :=
  total_congr fun r hr => by rw [get_alloc_of_live h a (hlive r hr)]

/-- An update of one listed object changes the total by the change of that object. -/
theorem total_modify (g : α → α) (f : α → M) {r : Ref}
    (hlive : h.Live r) (hmem : r ∈ refs) (hnodup : refs.Nodup) :
    (h.modify r g).total f refs = h.total f refs + (f (g (h.get r)) - f (h.get r)) := by
  induction refs with
  | nil => exact absurd hmem List.not_mem_nil
  | cons a rest ih =>
    obtain ⟨habsent, hrest⟩ := List.nodup_cons.mp hnodup
    have hcons : ∀ h' : Heap α, h'.total f (a :: rest) = f (h'.get a) + h'.total f rest :=
      fun h' => by simp [total]
    rw [hcons, hcons]
    by_cases heq : a = r
    · subst heq
      have hsame : (h.modify a g).total f rest = h.total f rest :=
        total_congr fun r' hr' => by
          have hne : r' ≠ a := fun heq => habsent (heq ▸ hr')
          rw [get_modify_of_ne h hne]
      rw [hsame, get_modify_self h hlive]
      abel
    · have hmem' : r ∈ rest := (List.mem_cons.mp hmem).resolve_left fun hr => heq hr.symm
      rw [ih hmem' hrest, get_modify_of_ne h heq]
      abel

/-- Taking a reference off the list takes its object out of the total. -/
theorem total_erase (f : α → M) {r : Ref} (hmem : r ∈ refs) :
    h.total f (refs.erase r) = h.total f refs - f (h.get r) := by
  induction refs with
  | nil => exact absurd hmem List.not_mem_nil
  | cons a rest ih =>
    have hcons : ∀ refs' : List Ref, h.total f (a :: refs') = f (h.get a) + h.total f refs' :=
      fun refs' => by simp [total]
    by_cases heq : a = r
    · subst heq
      rw [List.erase_cons_head, hcons]
      abel
    · have hmem' : r ∈ rest := (List.mem_cons.mp hmem).resolve_left fun hr => heq hr.symm
      rw [List.erase_cons_tail (by simpa using heq), hcons, hcons, ih hmem']
      abel

end Total

end Heap

end Foundations
