import Mathlib.Algebra.BigOperators.Group.List.Basic
import Mathlib.Algebra.BigOperators.Group.Multiset.Basic
import Mathlib.Data.List.Basic
import Mathlib.Data.List.Nodup
import Mathlib.Data.List.Perm.Basic

/-!
# Lists of keyed entries

A list may hold several entries under one key. An edit by key acts on the first of them only: `put`
replaces it or adds a new entry, `remove` deletes it. What an edit does is read off the sublist
`under` each key. Where a new entry goes is left to the caller: `Joins` says of an insertion that it
keeps the others in order.
-/

namespace Foundations

section Edits

namespace KeyedList

variable {κ β : Type*} [DecidableEq κ] (key : β → κ)

/-- The entries under a key, in list order. -/
def under (k : κ) (l : List β) : List β := l.filter fun b => key b = k

variable {key}

@[simp] theorem under_nil (k : κ) : under key k [] = [] := rfl

theorem under_cons_self (b : β) (l : List β) : under key (key b) (b :: l) = b :: under key (key b) l := by
  simp [under]

variable {l : List β} {add : List β → β → List β} {k : κ}

theorem under_cons_of_ne {b : β} (h : key b ≠ k) (l : List β) : under key k (b :: l) = under key k l := by
  simp [under, h]

theorem under_append (k : κ) (l l' : List β) :
    under key k (l ++ l') = under key k l ++ under key k l' := by
  simp [under]

theorem mem_under {b : β} : b ∈ under key k l ↔ b ∈ l ∧ key b = k := by
  simp [under]

/-- Editing entries without changing their keys edits the entries under each key. -/
theorem under_map {f : β → β} (hf : ∀ b, key (f b) = key b) (k : κ) (l : List β) :
    under key k (l.map f) = (under key k l).map f := by
  induction l with
  | nil => rfl
  | cons b rest ih =>
    rw [List.map_cons]
    by_cases hk : key b = k
    · subst hk
      rw [under_cons_self, List.map_cons, ← ih, ← hf b, under_cons_self, hf b]
    · rw [under_cons_of_ne hk, under_cons_of_ne ((hf b).trans_ne hk), ih]

theorem under_eq_nil_iff : under key k l = [] ↔ ∀ b ∈ l, key b ≠ k := by
  simp [under]

theorem nodup_keys_iff : (l.map key).Nodup ↔ ∀ k, (under key k l).length ≤ 1 := by
  rw [List.nodup_iff_count]
  apply forall_congr'
  intro k
  rw [List.count, List.countP_map, List.countP_eq_length_filter]
  rfl

/-- Two lists hold the same entries exactly when they do so under every key. -/
theorem perm_iff_under [DecidableEq β] (key : β → κ) {l l' : List β} :
    l.Perm l' ↔ ∀ k, (under key k l).Perm (under key k l') := by
  constructor
  · intro h k
    exact h.filter _
  · intro h
    rw [List.perm_iff_count]
    intro b
    have hb := (List.perm_iff_count.mp (h (key b))) b
    have hcount (m : List β) : (under key (key b) m).count b = m.count b :=
      List.count_filter (by simp)
    rw [hcount, hcount] at hb
    exact hb

/-- The position of the first entry under a key. -/
def firstUnder (key : β → κ) (k : κ) (l : List β) : Option ℕ := l.findIdx? fun b => key b = k

/-- Replace the first entry under the key of a new one, or let `add` insert it. -/
def put (key : β → κ) (add : List β → β → List β) (l : List β) (b : β) : List β :=
  match firstUnder key (key b) l with
  | some i => l.set i b
  | none => add l b

/-- Delete the first entry under a key. -/
def remove (key : β → κ) (l : List β) (k : κ) : List β :=
  match firstUnder key k l with
  | some i => l.eraseIdx i
  | none => l

theorem firstUnder_eq_some {i : ℕ} (h : firstUnder key k l = some i) :
    ∃ front b back, l = front ++ b :: back ∧ front.length = i ∧ key b = k ∧ under key k front = [] := by
  obtain ⟨hlt, hkey, hbefore⟩ := List.findIdx?_eq_some_iff_getElem.mp h
  refine ⟨l.take i, l[i], l.drop (i + 1), ?_, List.length_take_of_le (Nat.le_of_lt hlt), by simpa using hkey, ?_⟩
  · rw [List.getElem_cons_drop, List.take_append_drop]
  · rw [under_eq_nil_iff]
    intro b hb
    obtain ⟨j, hj, rfl⟩ := List.mem_iff_getElem.mp hb
    rw [List.length_take] at hj
    simpa using hbefore j (by omega)

theorem firstUnder_eq_none (h : firstUnder key k l = none) : under key k l = [] := by
  rw [under_eq_nil_iff]
  intro b hb
  simpa using List.findIdx?_eq_none_iff.mp h b hb

/-- An insertion that adds one entry and keeps the others in order. -/
def Joins (key : β → κ) (add : List β → β → List β) : Prop :=
  ∀ l b k, under key k (add l b) = if key b = k then under key k l ++ [b] else under key k l

/-- Appending adds one entry behind the others. -/
theorem joins_push : Joins key fun l b => l ++ [b] := by
  intro l b k
  by_cases hk : key b = k
  · subst hk
    rw [if_pos rfl, under_append, under_cons_self, under_nil]
  · rw [if_neg hk, under_append, under_cons_of_ne hk, under_nil, List.append_nil]

/-- Putting an entry replaces the head of the entries under its key. -/
theorem under_put (hadd : Joins key add) (l : List β) (b : β) (k : κ) : under key k (put key add l b) =
      if key b = k then b :: (under key k l).tail else under key k l := by
  unfold put
  cases hfirst : firstUnder key (key b) l with
  | none =>
    have hnil := firstUnder_eq_none hfirst
    by_cases hk : key b = k
    · subst hk
      simp only [hadd l b, if_true, hnil, List.nil_append, List.tail_nil]
    · simp only [hadd l b, hk, if_false]
  | some i =>
    obtain ⟨front, c, back, rfl, rfl, hc, hfront⟩ := firstUnder_eq_some hfirst
    have hset : (front ++ c :: back).set front.length b = front ++ b :: back := by
      rw [List.set_append_right _ _ (Nat.le_refl _), Nat.sub_self, List.set_cons_zero]
    simp only [hset, under_append]
    by_cases hk : key b = k
    · subst hk
      rw [if_pos rfl, hfront, under_cons_self, ← hc, under_cons_self, List.nil_append,
        List.nil_append, List.tail_cons]
    · rw [if_neg hk, under_cons_of_ne hk, under_cons_of_ne (hc ▸ hk)]

/-- Deleting by key drops the head of the entries under it. -/
theorem under_remove (l : List β) (k₀ k : κ) :
    under key k (remove key l k₀) = if k₀ = k then (under key k l).tail else under key k l := by
  unfold remove
  cases hfirst : firstUnder key k₀ l with
  | none =>
    have hnil := firstUnder_eq_none hfirst
    by_cases hk : k₀ = k
    · subst hk
      simp only [if_true, hnil, List.tail_nil]
    · simp only [hk, if_false]
  | some i =>
    obtain ⟨front, c, back, rfl, rfl, hc, hfront⟩ := firstUnder_eq_some hfirst
    have herase : (front ++ c :: back).eraseIdx front.length = front ++ back := by
      rw [List.eraseIdx_append_of_length_le (Nat.le_refl _), Nat.sub_self, List.eraseIdx_cons_zero]
    simp only [herase, under_append]
    by_cases hk : k₀ = k
    · subst hk
      subst hc
      rw [if_pos rfl, hfront, under_cons_self, List.nil_append, List.nil_append, List.tail_cons]
    · subst hc
      rw [if_neg hk, under_cons_of_ne hk]

theorem mem_put_push {b c : β} (h : c ∈ put key (fun l b => l ++ [b]) l b) : c = b ∨ c ∈ l := by
  unfold put at h
  split at h
  · exact (List.mem_or_eq_of_mem_set h).symm
  · simpa [or_comm] using h

/-- Deleting by key adds no entry. -/
theorem mem_of_mem_remove {c : β} (h : c ∈ remove key l k) : c ∈ l := by
  unfold remove at h
  split at h
  · exact List.mem_of_mem_eraseIdx h
  · exact h

/-- A list whose first entry under a key is known splits there. -/
theorem split_of_head? {b : β} (h : (under key k l).head? = some b) :
    ∃ front back, l = front ++ b :: back ∧ firstUnder key k l = some front.length ∧ key b = k := by
  cases hfirst : firstUnder key k l with
  | none =>
    rw [firstUnder_eq_none hfirst] at h
    contradiction
  | some i =>
    obtain ⟨front, c, back, rfl, rfl, hc, hfront⟩ := firstUnder_eq_some hfirst
    subst hc
    rw [under_append, hfront, under_cons_self, List.nil_append, List.head?_cons,
      Option.some_inj] at h
    subst h
    exact ⟨front, back, rfl, rfl, rfl⟩

/-- Deleting by key takes the first entry under it out of the list. -/
theorem perm_cons_remove {b : β} (h : (under key k l).head? = some b) : l.Perm (b :: remove key l k) := by
  obtain ⟨front, back, rfl, hfirst, _⟩ := split_of_head? h
  have hremove : remove key (front ++ b :: back) k = front ++ back := by
    simp only [remove, hfirst]
    rw [List.eraseIdx_append_of_length_le (Nat.le_refl _), Nat.sub_self, List.eraseIdx_cons_zero]
  rw [hremove]
  exact List.perm_middle

/-- Putting an entry under a key that is there takes the first entry out and the new one in. -/
theorem put_perm_cons_remove {b c : β} (h : (under key (key b) l).head? = some c) :
    (put key add l b).Perm (b :: remove key l (key b)) := by
  obtain ⟨front, back, rfl, hfirst, _⟩ := split_of_head? h
  have hput : put key add (front ++ c :: back) b = front ++ b :: back := by
    simp only [put, hfirst]
    rw [List.set_append_right _ _ (Nat.le_refl _), Nat.sub_self, List.set_cons_zero]
  have hremove : remove key (front ++ c :: back) (key b) = front ++ back := by
    simp only [remove, hfirst]
    rw [List.eraseIdx_append_of_length_le (Nat.le_refl _), Nat.sub_self, List.eraseIdx_cons_zero]
  rw [hput, hremove]
  exact List.perm_middle

theorem put_eq_map {b c : β} (h : under key (key b) l = [c]) :
    put key add l b = l.map fun d => if key d = key b then b else d := by
  have hhead : (under key (key b) l).head? = some c := by rw [h, List.head?_cons]
  obtain ⟨front, back, rfl, hfirst, hc⟩ := split_of_head? hhead
  rw [under_append, ← hc, under_cons_self] at h
  have hempty : under key (key c) front = [] ∧ under key (key c) back = [] := by
    cases hfront : under key (key c) front with
    | nil =>
      rw [hfront] at h
      exact ⟨rfl, List.tail_eq_of_cons_eq h⟩
    | cons d rest =>
      rw [hfront] at h
      simp at h
  have hkeep : ∀ l' : List β, under key (key c) l' = [] →
      l'.map (fun d => if key d = key b then b else d) = l' := by
    intro l' hl'
    rw [List.map_congr_left (g := id), List.map_id]
    intro d hd
    exact if_neg (hc ▸ under_eq_nil_iff.mp hl' d hd)
  have hset : (front ++ c :: back).set front.length b = front ++ b :: back := by
    rw [List.set_append_right _ _ (Nat.le_refl _), Nat.sub_self, List.set_cons_zero]
  simp only [put, hfirst, hset, List.map_append, List.map_cons, hc, if_true, hkeep _ hempty.1,
    hkeep _ hempty.2]

theorem sum_map_sub {α M : Type*} [AddCommGroup M] (l : List α) (f g : α → M) :
    (l.map fun a => f a - g a).sum = (l.map f).sum - (l.map g).sum := by
  have hsub := Multiset.sum_map_sub (m := (l : Multiset α)) (f := f) (g := g)
  simpa only [Multiset.map_coe, Multiset.sum_coe] using hsub

theorem sum_under {M : Type*} [AddCommMonoid M] {keys : List κ} (hkeys : keys.Nodup) (f : β → M)
    (l : List β) : (keys.map fun k => ((under key k l).map f).sum).sum =
      ((l.filter fun b => key b ∈ keys).map f).sum := by
  induction keys with
  | nil => simp
  | cons k rest ih =>
    rw [List.nodup_cons] at hkeys
    rw [List.map_cons, List.sum_cons, ih hkeys.2]
    clear ih
    induction l with
    | nil => simp
    | cons b l ih =>
      by_cases hb : key b = k
      · have hrest : key b ∉ rest := hb ▸ hkeys.1
        subst hb
        simp [under_cons_self, hrest, add_assoc, ih]
      · by_cases hmem : key b ∈ rest
        · simp only [under_cons_of_ne hb, List.filter_cons, hmem, List.mem_cons, or_true,
            decide_true, if_true, List.map_cons, List.sum_cons]
          simp only [List.mem_cons] at ih
          rw [← ih, add_left_comm]
        · simpa [under_cons_of_ne hb, hmem, hb] using ih
theorem view_foldl {S V γ : Type*} (view : κ → S → V) {edit : S → γ → S} {target : γ → κ} {act : γ → V → V}
    (hedit : ∀ s c k, view k (edit s c) = if target c = k then act c (view k s) else view k s)
    (edits : List γ) (hdistinct : (edits.map target).Nodup) (s : S) (k : κ) : view k (edits.foldl edit s) =
      (edits.find? fun c => target c = k).elim (view k s) fun c => act c (view k s) := by
  induction edits generalizing s with
  | nil => rfl
  | cons c rest ih =>
    rw [List.map_cons, List.nodup_cons] at hdistinct
    rw [List.foldl_cons, ih hdistinct.2, hedit]
    by_cases hk : target c = k
    · have habsent : (rest.find? fun d => target d = k) = none := by
        rw [List.find?_eq_none]
        intro d hd hdk
        exact hdistinct.1 (List.mem_map.mpr ⟨d, hd, by rw [hk]; simpa using hdk⟩)
      simp only [habsent, List.find?_cons, hk, decide_true, if_true, Option.elim_none,
        Option.elim_some]
    · simp only [List.find?_cons, hk, decide_false, if_false]

end KeyedList

end Edits

/-! ### First occurrences -/

section FirstOccurrences

variable {α κ : Type*} [DecidableEq κ] (key : α → κ)

/-- The first element of each key. -/
def firstsBy : List α → List α
  | [] => []
  | a :: rest => a :: (firstsBy rest).filter fun b => key b ≠ key a

theorem firstsBy_sublist (l : List α) : (firstsBy key l).Sublist l := by
  induction l with
  | nil => exact List.Sublist.refl _
  | cons a rest ih => exact List.Sublist.cons_cons a (List.filter_sublist.trans ih)

/-- No key occurs twice among the first elements. -/
theorem nodup_firstsBy (l : List α) : ((firstsBy key l).map key).Nodup := by
  induction l with
  | nil => exact List.nodup_nil
  | cons a rest ih =>
    rw [firstsBy, List.map_cons, List.nodup_cons]
    constructor
    · intro hmem
      obtain ⟨b, hb, hkey⟩ := List.mem_map.mp hmem
      exact of_decide_eq_true (List.mem_filter.mp hb).2 hkey
    · exact ih.sublist (List.filter_sublist.map key)

/-- A list is its own first elements exactly if no key occurs twice. -/
theorem firstsBy_eq_self_iff (l : List α) : firstsBy key l = l ↔ (l.map key).Nodup := by
  constructor
  · intro h
    rw [← h]
    exact nodup_firstsBy key l
  · intro h
    induction l with
    | nil => rfl
    | cons a rest ih =>
      obtain ⟨hnot, hrest⟩ := List.nodup_cons.mp h
      rw [firstsBy, ih hrest, List.filter_eq_self.mpr]
      intro b hb
      exact decide_eq_true fun hkey => hnot (hkey ▸ List.mem_map_of_mem hb)

end FirstOccurrences

end Foundations
