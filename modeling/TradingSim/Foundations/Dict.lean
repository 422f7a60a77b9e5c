import Mathlib.Data.List.Basic
import Mathlib.Data.List.Nodup

/-!
# Insertion-ordered dictionaries

A finite map stored as its list of entries in insertion order. Assigning to a key that is present
rewrites its entry in place, assigning to a new key appends, and deleting leaves the order of the
other entries alone. That the keys are pairwise distinct is a field of the structure.
-/

namespace Foundations

/-- A finite map that remembers the order in which its keys were first assigned. -/
structure Dict (κ : Type*) (α : Type*) where
  entries : List (κ × α)
  nodup : (entries.map Prod.fst).Nodup

namespace Dict

variable {κ α : Type*}

/-- The dictionary without entries. -/
def empty : Dict κ α := ⟨[], List.nodup_nil⟩

/-- The keys in insertion order. -/
def keys (d : Dict κ α) : List κ := d.entries.map Prod.fst

/-- The values in insertion order. -/
def values (d : Dict κ α) : List α := d.entries.map Prod.snd

@[simp] theorem entries_empty : (empty : Dict κ α).entries = [] := rfl

variable [DecidableEq κ]

/-- The value assigned to a key, if there is one. -/
def find? (d : Dict κ α) (k : κ) : Option α :=
  (d.entries.find? fun e => e.1 = k).map Prod.snd

/-- Rewrite the entry of a key that is present. -/
def overwrite (k : κ) (v : α) (entries : List (κ × α)) : List (κ × α) :=
  entries.map fun e => if e.1 = k then (k, v) else e

variable (d : Dict κ α) (k : κ)

/-- Rewriting a value leaves the list of keys alone. -/
theorem overwrite_keys (v : α) (entries : List (κ × α)) :
    (overwrite k v entries).map Prod.fst = entries.map Prod.fst := by
  rw [overwrite, List.map_map]
  apply List.map_congr_left
  intro e _
  by_cases h : e.1 = k
  · simp [h]
  · simp [h]

/-- Assign a value: in place if the key is present, at the end otherwise. -/
def insert (d : Dict κ α) (k : κ) (v : α) : Dict κ α :=
  if h : k ∈ d.entries.map Prod.fst then
    ⟨overwrite k v d.entries, by rw [overwrite_keys]; exact d.nodup⟩
  else
    ⟨d.entries ++ [(k, v)], by
      rw [List.map_append, List.map_singleton]
      exact List.nodup_append.mpr ⟨d.nodup, List.nodup_singleton k, by
        intro a ha b hb
        rw [List.mem_singleton.mp hb]
        rintro rfl
        exact h ha⟩⟩

/-- Delete a key; nothing happens if it is absent. -/
def erase (d : Dict κ α) (k : κ) : Dict κ α :=
  ⟨d.entries.filter fun e => e.1 ≠ k, d.nodup.sublist (List.filter_sublist.map _)⟩

/-- Change every value, leaving the keys and their order alone. -/
def mapValues {β : Type*} (f : κ → α → β) (d : Dict κ α) : Dict κ β :=
  ⟨d.entries.map fun e => (e.1, f e.1 e.2), by simpa [Function.comp_def] using d.nodup⟩

/-- Delete each of a list of keys in turn. -/
def eraseAll (d : Dict κ α) (ks : List κ) : Dict κ α := ks.foldl erase d

/-- An entry is listed exactly when its key looks up to its value. -/
theorem mem_entries_iff (v : α) : (k, v) ∈ d.entries ↔ d.find? k = some v := by
  obtain ⟨entries, hnodup⟩ := d
  unfold find?
  induction entries with
  | nil => simp
  | cons e rest ih =>
    rw [List.map_cons, List.nodup_cons] at hnodup
    by_cases hk : e.1 = k
    · have habsent : (k, v) ∉ rest := fun hmem =>
        hnodup.1 (hk ▸ List.mem_map.mpr ⟨(k, v), hmem, rfl⟩)
      have hhead : (k, v) = e ↔ e.2 = v := by
        constructor
        · rintro rfl
          rfl
        · rintro rfl
          rw [← hk]
      simp only [List.mem_cons, habsent, or_false, List.find?_cons, hk, decide_true,
        Option.map_some, Option.some.injEq]
      exact hhead
    · have hhead : (k, v) ≠ e := fun h => hk (h ▸ rfl)
      simp only [List.mem_cons, hhead, false_or, List.find?_cons, hk, decide_false]
      exact ih hnodup.2

theorem mem_keys_iff : k ∈ d.keys ↔ ∃ v, d.find? k = some v := by
  rw [keys, List.mem_map]
  constructor
  · rintro ⟨⟨k', v⟩, hmem, rfl⟩
    exact ⟨v, (d.mem_entries_iff _ v).mp hmem⟩
  · rintro ⟨v, hfind⟩
    exact ⟨(k, v), (d.mem_entries_iff k v).mpr hfind, rfl⟩

/-- A lookup fails exactly on the keys that are not listed. -/
theorem find?_eq_none_iff : d.find? k = none ↔ k ∉ d.keys := by
  rw [mem_keys_iff, not_exists, Option.eq_none_iff_forall_ne_some]

theorem find?_mapValues {β : Type*} (f : κ → α → β) (d : Dict κ α) (k : κ) :
    (d.mapValues f).find? k = (d.find? k).map (f k) := by
  unfold find? mapValues
  rw [List.find?_map, Option.map_map, Option.map_map]
  apply Option.map_congr
  intro e he
  have hkey : e.1 = k := by simpa using List.find?_some he
  rw [Function.comp_apply, Function.comp_apply, hkey]

@[simp] theorem find?_empty : (empty : Dict κ α).find? k = none := rfl

/-- An entry of the assigned dictionary is the new one or an old one under another key. -/
theorem mem_insert_entries (k k' : κ) (v v' : α) : (k', v') ∈ (d.insert k v).entries ↔
      (k' = k ∧ v' = v) ∨ (k' ≠ k ∧ (k', v') ∈ d.entries) := by
  unfold insert
  split
  · rename_i hmem
    obtain ⟨⟨k₀, v₀⟩, hold, rfl⟩ := List.mem_map.mp hmem
    simp only [overwrite, List.mem_map]
    constructor
    · rintro ⟨e, he, heq⟩
      by_cases hk : e.1 = k₀
      · rw [if_pos hk] at heq
        simp only [Prod.mk.injEq] at heq
        exact Or.inl ⟨heq.1.symm, heq.2.symm⟩
      · rw [if_neg hk] at heq
        subst heq
        exact Or.inr ⟨hk, he⟩
    · rintro (⟨rfl, rfl⟩ | ⟨hk, hmem'⟩)
      · exact ⟨(k', v₀), hold, by simp⟩
      · exact ⟨(k', v'), hmem', by simp [hk]⟩
  · rename_i habsent
    simp only [List.mem_append, List.mem_singleton, Prod.mk.injEq]
    constructor
    · rintro (hmem | hnew)
      · have hk : k' ≠ k := by
          rintro rfl
          exact habsent (List.mem_map.mpr ⟨_, hmem, rfl⟩)
        exact Or.inr ⟨hk, hmem⟩
      · exact Or.inl hnew
    · rintro (hnew | ⟨_, hmem⟩)
      · exact Or.inr hnew
      · exact Or.inl hmem

/-- Lookups after an assignment. -/
theorem find?_insert (k k' : κ) (v : α) :
    (d.insert k v).find? k' = if k' = k then some v else d.find? k' := by
  apply Option.ext
  intro v'
  rw [← mem_entries_iff, mem_insert_entries]
  by_cases hk : k' = k
  · simp [hk, eq_comm]
  · simp [hk, mem_entries_iff]

@[simp] theorem find?_insert_self (v : α) : (d.insert k v).find? k = some v := by
  rw [find?_insert, if_pos rfl]

theorem find?_insert_of_ne {k k' : κ} (h : k' ≠ k) (v : α) : (d.insert k v).find? k' = d.find? k' := by
  rw [find?_insert, if_neg h]

theorem mem_erase_entries (k k' : κ) (v : α) :
    (k', v) ∈ (d.erase k).entries ↔ k' ≠ k ∧ (k', v) ∈ d.entries := by
  simp [erase, and_comm]

/-- Lookups after a deletion. -/
theorem find?_erase (k k' : κ) : (d.erase k).find? k' = if k' = k then none else d.find? k' := by
  apply Option.ext
  intro v
  rw [← mem_entries_iff, mem_erase_entries]
  by_cases hk : k' = k
  · simp [hk]
  · simp [hk, mem_entries_iff]

@[simp] theorem find?_erase_self : (d.erase k).find? k = none := by
  rw [find?_erase, if_pos rfl]

theorem find?_erase_of_ne {k k' : κ} (h : k' ≠ k) : (d.erase k).find? k' = d.find? k' := by
  rw [find?_erase, if_neg h]

theorem filter_entries : (d.entries.filter fun e => e.1 = k) = ((d.find? k).map fun v => (k, v)).toList := by
  obtain ⟨entries, hnodup⟩ := d
  unfold find?
  induction entries with
  | nil => rfl
  | cons e rest ih =>
    rw [List.map_cons, List.nodup_cons] at hnodup
    by_cases hk : e.1 = k
    · subst hk
      have habsent : (rest.filter fun e' => decide (e'.1 = e.1)) = [] := by
        rw [List.filter_eq_nil_iff]
        intro e' he' hk'
        exact hnodup.1 (List.mem_map.mpr ⟨e', he', by simpa using hk'⟩)
      simp only [List.filter_cons, decide_true, if_true, habsent, List.find?_cons,
        Option.map_some, Option.toList_some]
    · simp only [List.filter_cons, hk, decide_false, List.find?_cons]
      exact ih hnodup.2

theorem foldl_entries_at {S R : Type*} {step : S → κ × α → S} {read : S → R} {k : κ}
    (hother : ∀ s e, e.1 ≠ k → read (step s e) = read s)
    (hread : ∀ s s' v, read s = read s' → read (step s (k, v)) = read (step s' (k, v)))
    (d : Dict κ α) (s : S) : read (d.entries.foldl step s) =
      (d.find? k).elim (read s) fun v => read (step s (k, v)) := by
  obtain ⟨entries, hnodup⟩ := d
  unfold find?
  induction entries generalizing s with
  | nil => rfl
  | cons e rest ih =>
    rw [List.map_cons, List.nodup_cons] at hnodup
    rw [List.foldl_cons, ih (step s e) hnodup.2]
    by_cases hk : e.1 = k
    · have habsent : rest.find? (fun e' => decide (e'.1 = k)) = none := by
        rw [List.find?_eq_none]
        intro e' he' hk'
        exact hnodup.1 (List.mem_map.mpr ⟨e', he', (of_decide_eq_true hk').trans hk.symm⟩)
      subst hk
      simp only [habsent, Option.map_none, Option.elim_none, List.find?_cons, decide_true,
        Option.map_some, Option.elim_some]
    · simp only [List.find?_cons, hk, decide_false]
      cases (rest.find? fun e' => decide (e'.1 = k)).map Prod.snd with
      | none => exact hother s e hk
      | some v => exact hread _ _ v (hother s e hk)

/-- The entries that survive deleting a list of keys are those under other keys. -/
theorem mem_eraseAll_entries (ks : List κ) (k : κ) (v : α) :
    (k, v) ∈ (d.eraseAll ks).entries ↔ k ∉ ks ∧ (k, v) ∈ d.entries := by
  induction ks generalizing d with
  | nil => simp [eraseAll]
  | cons k₀ ks ih =>
    rw [eraseAll, List.foldl_cons, ← eraseAll, ih, mem_erase_entries]
    simp only [List.mem_cons, not_or]
    tauto

theorem find?_eraseAll_of_mem {ks : List κ} {k : κ} (h : k ∈ ks) : (d.eraseAll ks).find? k = none := by
  rw [Option.eq_none_iff_forall_not_mem]
  intro v hv
  rw [Option.mem_def, ← mem_entries_iff, mem_eraseAll_entries] at hv
  exact hv.1 h

/-- Deleting other keys keeps what a key looks up to. -/
theorem find?_eraseAll_of_not_mem {ks : List κ} {k : κ} (h : k ∉ ks) :
    (d.eraseAll ks).find? k = d.find? k := by
  apply Option.ext
  intro v
  rw [← mem_entries_iff, mem_eraseAll_entries, and_iff_right h, mem_entries_iff]

end Dict

/-! ### Memoised values -/

section Memos

variable {κ α : Type*} [DecidableEq κ]

/-- A table of values built for some keys. -/
structure Memo (build : κ → α) where
  table : Dict κ α
  sound : ∀ k v, table.find? k = some v → v = build k

namespace Memo

variable {build : κ → α}

/-- The empty table. -/
def empty (build : κ → α) : Memo build where
  table := Dict.empty
  sound := by
    intro k v h
    cases h

/-- Build a value and keep it. -/
def add (memo : Memo build) (k : κ) : Memo build where
  table := memo.table.insert k (build k)
  sound := by
    intro k' v h
    rw [Dict.find?_insert] at h
    split_ifs at h with hkey
    · rw [hkey]
      exact (Option.some.inj h).symm
    · exact memo.sound k' v h

/-- Ask for a value: the one in the table, or a new one that is kept. -/
def get (memo : Memo build) (k : κ) : α × Memo build :=
  match memo.table.find? k with
  | some v => (v, memo)
  | none => (build k, memo.add k)

theorem get_fst (memo : Memo build) (k : κ) : (memo.get k).1 = build k := by
  unfold get
  split
  · rename_i v hfind
    exact memo.sound k v hfind
  · rfl

/-- Ask for several values in turn. -/
def getAll (memo : Memo build) : List κ → List α
  | [] => []
  | k :: rest => (memo.get k).1 :: (memo.get k).2.getAll rest

/-- The table changes nothing about the values. -/
theorem getAll_eq_map (memo : Memo build) (ks : List κ) : memo.getAll ks = ks.map build := by
  induction ks generalizing memo with
  | nil => rfl
  | cons k rest ih => rw [getAll, get_fst, ih, List.map_cons]

end Memo

end Memos

end Foundations
