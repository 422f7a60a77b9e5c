import Mathlib.Data.List.Induction
import TradingSim.Foundations.Dict
import TradingSim.Foundations.KeyedList

/-!
# Differences of dictionaries

A dictionary read off a list keeps the last value of each key. The difference of two
dictionaries lists the keys whose value is new or no longer the same, and then the keys
that are gone with a marker in place of a value. Each key is listed at most once, and
`find?_changes` says with which value.
-/

namespace Foundations

namespace Dict

variable {κ α β : Type*} [DecidableEq κ]

/-- The entries that meet a condition. -/
def filter (keep : κ → α → Bool) (d : Dict κ α) : Dict κ α :=
  ⟨d.entries.filter fun e => keep e.1 e.2, d.nodup.sublist (List.filter_sublist.map _)⟩

/-- Lookups among the kept entries. -/
theorem find?_filter (keep : κ → α → Bool) (d : Dict κ α) (k : κ) :
    (d.filter keep).find? k = (d.find? k).filter (keep k) := by
  apply Option.ext
  intro v
  rw [← mem_entries_iff, Option.filter_eq_some_iff, ← mem_entries_iff]
  simp [filter]

/-- Keeping what every entry meets keeps everything. -/
theorem filter_eq_self {keep : κ → α → Bool} {d : Dict κ α}
    (h : ∀ k v, d.find? k = some v → keep k v = true) : d.filter keep = d := by
  have hentries : (d.filter keep).entries = d.entries :=
    List.filter_eq_self.mpr fun e he => h e.1 e.2 ((d.mem_entries_iff e.1 e.2).mp he)
  unfold filter at hentries ⊢
  congr

theorem mapValues_eq_self {f : κ → α → α} {d : Dict κ α}
    (h : ∀ k v, d.find? k = some v → f k v = v) : d.mapValues f = d := by
  have hentries : (d.mapValues f).entries = d.entries := by
    conv_rhs => rw [← List.map_id d.entries]
    apply List.map_congr_left
    intro e he
    rw [h e.1 e.2 ((d.mem_entries_iff e.1 e.2).mp he)]
    rfl
  unfold mapValues at hentries ⊢
  congr

/-- Assign the values of a list in turn, so that later ones win. -/
def ofList (key : β → κ) (value : β → α) (l : List β) : Dict κ α :=
  l.foldl (fun d b => d.insert (key b) (value b)) empty

variable (key : β → κ) (value : β → α)

theorem ofList_append_singleton (l : List β) (b : β) :
    ofList key value (l ++ [b]) = (ofList key value l).insert (key b) (value b) := by
  simp [ofList]

theorem entries_ofList {l : List β} (hnodup : (l.map key).Nodup) :
    (ofList key value l).entries = l.map fun b => (key b, value b) := by
  induction l using List.reverseRecOn with
  | nil => rfl
  | append_singleton l b ih =>
    rw [List.map_append, List.nodup_append] at hnodup
    obtain ⟨hleft, _, hdisjoint⟩ := hnodup
    have hlisted := ih hleft
    have habsent : key b ∉ (ofList key value l).entries.map Prod.fst := by
      rw [hlisted, List.map_map]
      exact fun hmem => hdisjoint _ hmem _ (List.mem_singleton.mpr rfl) rfl
    rw [ofList_append_singleton, insert, dif_neg habsent]
    simp [hlisted]

/-- A key looks up to the last value listed under it. -/
theorem find?_ofList (l : List β) (k : κ) :
    (ofList key value l).find? k = (KeyedList.under key k l).getLast?.map value := by
  induction l using List.reverseRecOn with
  | nil => rfl
  | append_singleton l b ih =>
    rw [ofList_append_singleton, find?_insert, KeyedList.under_append]
    by_cases hk : key b = k
    · subst hk
      rw [if_pos rfl, KeyedList.under_cons_self, KeyedList.under_nil, List.getLast?_concat,
        Option.map_some]
    · rw [if_neg (Ne.symm hk), KeyedList.under_cons_of_ne hk, KeyedList.under_nil,
        List.append_nil, ih]

/-- Under distinct keys a key looks up to the element listed under it. -/
theorem find?_ofList_of_nodup {l : List β} (hnodup : (l.map key).Nodup) (k : κ) :
    (ofList key value l).find? k = (l.find? fun b => key b = k).map value := by
  rw [find?, entries_ofList key value hnodup, List.find?_map, Option.map_map]
  rfl

/-- A value is reported when its key is new or the value is no longer the same. -/
def fresh (same : α → α → Bool) (last : Dict κ α) (k : κ) (v : α) : Bool :=
  match last.find? k with
  | none => true
  | some old => !same old v

/-- What changed from one dictionary to another. -/
def changes (same : α → α → Bool) (gone : α) (last current : Dict κ α) : List (κ × α) :=
  (current.entries.filter fun e => fresh same last e.1 e.2) ++
    (last.entries.filter fun e => decide (e.1 ∉ current.keys)).map fun e => (e.1, gone)

theorem mem_changes {same : α → α → Bool} {gone : α} {last current : Dict κ α} {k : κ} {v : α} :
    (k, v) ∈ changes same gone last current ↔ (current.find? k = some v ∧ fresh same last k v = true) ∨
        (current.find? k = none ∧ (last.find? k).isSome ∧ v = gone) := by
  rw [changes, List.mem_append, List.mem_filter, mem_entries_iff, List.mem_map]
  refine or_congr Iff.rfl ⟨?_, ?_⟩
  · rintro ⟨⟨k', old⟩, hmem, heq⟩
    obtain ⟨rfl, rfl⟩ := heq
    rw [List.mem_filter, mem_entries_iff, decide_eq_true_eq] at hmem
    exact ⟨(find?_eq_none_iff current k').mpr hmem.2, by rw [hmem.1]; rfl, rfl⟩
  · rintro ⟨hcurrent, hlast, rfl⟩
    obtain ⟨old, hold⟩ := Option.isSome_iff_exists.mp hlast
    refine ⟨(k, old), List.mem_filter.mpr ⟨(mem_entries_iff _ _ _).mpr hold, ?_⟩, rfl⟩
    exact decide_eq_true ((find?_eq_none_iff current k).mp hcurrent)

/-- Each key is reported at most once. -/
theorem changes_nodup (same : α → α → Bool) (gone : α) (last current : Dict κ α) :
    ((changes same gone last current).map Prod.fst).Nodup := by
  rw [changes, List.map_append, List.nodup_append]
  refine ⟨current.nodup.sublist (List.filter_sublist.map _), ?_, ?_⟩
  · rw [List.map_map]
    exact last.nodup.sublist (List.filter_sublist.map _)
  · intro k hk k' hk' heq
    subst heq
    obtain ⟨e, he, rfl⟩ := List.mem_map.mp hk
    obtain ⟨e', he', heq⟩ := List.mem_map.mp hk'
    obtain ⟨old, hold, rfl⟩ := List.mem_map.mp he'
    have habsent : old.1 ∉ current.keys := by simpa using (List.mem_filter.mp hold).2
    have hpresent : e.1 ∈ current.keys := List.mem_map.mpr ⟨e, (List.mem_filter.mp he).1, rfl⟩
    exact habsent (heq ▸ hpresent)

/-- The change reported for a key, if there is one. -/
def changeAt (same : α → α → Bool) (gone : α) (last current : Dict κ α) (k : κ) : Option α :=
  match current.find? k with
  | some v => if fresh same last k v then some v else none
  | none => if (last.find? k).isSome then some gone else none

theorem find?_changes (same : α → α → Bool) (gone : α) (last current : Dict κ α) (k : κ) :
    (changes same gone last current).find? (fun e => e.1 = k) =
      (changeAt same gone last current k).map fun v => (k, v) := by
  have hmem (v : α) : changeAt same gone last current k = some v ↔
      (k, v) ∈ changes same gone last current := by
    rw [mem_changes, changeAt]
    cases current.find? k with
    | none =>
      by_cases hlast : (last.find? k).isSome
      · simp only [hlast, if_true, Option.some.injEq, reduceCtorEq, false_and, true_and, false_or]
        exact eq_comm
      · simp [hlast]
    | some w =>
      by_cases hfresh : fresh same last k w = true
      · simp only [hfresh, if_true, Option.some.injEq, reduceCtorEq, false_and, or_false]
        constructor
        · rintro rfl
          exact ⟨rfl, hfresh⟩
        · exact And.left
      · simp only [hfresh, Option.some.injEq, reduceCtorEq, false_and, or_false]
        constructor
        · simp
        · rintro ⟨rfl, h⟩
          exact absurd h hfresh
  cases hfind : (changes same gone last current).find? (fun e => e.1 = k) with
  | some e =>
    have hkey : e.1 = k := by simpa using List.find?_some hfind
    have hchange := (hmem e.2).mpr (hkey ▸ List.mem_of_find?_eq_some hfind)
    rw [hchange, Option.map_some, ← hkey]
  | none =>
    rw [List.find?_eq_none] at hfind
    have hnone : changeAt same gone last current k = none := by
      rw [Option.eq_none_iff_forall_ne_some]
      intro v hv
      exact hfind (k, v) ((hmem v).mp hv) (decide_eq_true rfl)
    rw [hnone, Option.map_none]

end Dict

end Foundations
