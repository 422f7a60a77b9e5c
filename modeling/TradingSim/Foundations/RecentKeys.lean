import Mathlib.Data.Finset.Card
import Mathlib.Data.List.Nodup
import Mathlib.Data.List.Range
import Mathlib.Data.List.TakeDrop

/-!
# Recent keys and windows of a log

A memory of bounded size keeps the last keys of a growing list and lets a key be added only while it
is not remembered.

A reader comes back to a growing log from time to time. It sees how long the log is and the last
entries of it, at most as many as the window holds, and takes from these what is new to it.
-/

namespace Foundations

section Keys

variable {α κ : Type*}

/-- The last elements of a list, at most a given number of them. -/
def recent (w : ℕ) (l : List α) : List α := l.drop (l.length - w)

theorem recent_nil (w : ℕ) : recent w ([] : List α) = [] := List.drop_nil

theorem length_recent (w : ℕ) (l : List α) : (recent w l).length = min w l.length := by
  rw [recent, List.length_drop]
  omega

theorem map_recent (f : α → κ) (w : ℕ) (l : List α) : (recent w l).map f = recent w (l.map f) := by
  rw [recent, recent, List.map_drop, List.length_map]

theorem recent_append {w : ℕ} (earlier : List α) {later : List α} (hlength : later.length ≤ w) :
    later <:+ recent w (earlier ++ later) := by
  have hskipped : (earlier ++ later).length - w ≤ earlier.length := by
    rw [List.length_append]
    omega
  rw [recent, List.drop_append_of_le_length hskipped]
  exact List.suffix_append _ _

/-- Appending to the recent elements and dropping the oldest one above the bound keeps them. -/
theorem recent_concat (w : ℕ) (l : List α) (a : α) : recent w (l ++ [a]) =
      if w < (recent w l ++ [a]).length then (recent w l ++ [a]).tail else recent w l ++ [a] := by
  rcases lt_or_ge l.length w with hshort | hlong
  · have hwhole : recent w l = l := by
      rw [recent, Nat.sub_eq_zero_of_le hshort.le, List.drop_zero]
    have hfits : ¬ w < (l ++ [a]).length := by simp; omega
    rw [hwhole, if_neg hfits, recent, Nat.sub_eq_zero_of_le (by omega), List.drop_zero]
  · have hfull : w < (recent w l ++ [a]).length := by
      rw [List.length_append, length_recent, List.length_singleton]
      omega
    have hdropped : (l ++ [a]).length - w = l.length - w + 1 := by simp; omega
    rw [if_pos hfull, recent, hdropped, ← List.tail_drop, List.drop_append_of_le_length (by omega)]
    rfl

/-- Every key differs from the `w` keys in front of it. -/
def Spaced (w : ℕ) (keys : List κ) : Prop :=
  ∀ earlier k later, keys = earlier ++ k :: later → k ∉ recent w earlier

theorem Spaced.nil (w : ℕ) : Spaced w ([] : List κ) :=
  fun _ _ _ h => absurd h.symm (by simp)

theorem Spaced.of_append {w : ℕ} {first second : List κ} (h : Spaced w (first ++ second)) :
    Spaced w first := by
  intro earlier k later hsplit
  apply h earlier k (later ++ second)
  rw [hsplit, List.append_assoc, List.cons_append]

/-- A key that is not among the recent ones may be added. -/
theorem Spaced.concat {w : ℕ} {keys : List κ} (h : Spaced w keys) {k : κ}
    (hk : k ∉ recent w keys) : Spaced w (keys ++ [k]) := by
  intro earlier k' later hsplit
  rcases List.eq_nil_or_concat later with rfl | ⟨later, last, rfl⟩
  · obtain ⟨hearlier, hlast⟩ := List.append_inj' hsplit rfl
    rw [← hearlier, ← List.cons.inj hlast |>.1]
    exact hk
  · rw [List.concat_eq_append, ← List.cons_append, ← List.append_assoc] at hsplit
    obtain ⟨hkeys, -⟩ := List.append_inj' hsplit rfl
    exact h earlier k' later hkeys

/-- A key and the keys behind it, as many as are remembered, are pairwise distinct. -/
theorem Spaced.nodup_window {w : ℕ} {earlier later : List κ} {k : κ}
    (h : Spaced w (earlier ++ k :: later)) (hlength : later.length ≤ w) : (k :: later).Nodup := by
  induction later using List.reverseRecOn with
  | nil => exact List.nodup_singleton k
  | append_singleton later last ih =>
    rw [List.length_append, List.length_singleton] at hlength
    rw [← List.cons_append, ← List.append_assoc] at h
    have hwindow := ih h.of_append (by omega)
    have hnew := h (earlier ++ k :: later) last [] rfl
    have hremembered : k :: later <:+ recent w (earlier ++ k :: later) :=
      recent_append earlier (by simpa using hlength)
    rw [← List.cons_append, List.nodup_append]
    refine ⟨hwindow, List.nodup_singleton last, fun a ha b hb hab => ?_⟩
    rw [List.mem_singleton.mp hb] at hab
    exact hnew (hremembered.subset (hab ▸ ha))

/-- The remembered keys are pairwise distinct. -/
theorem Spaced.nodup_recent {w : ℕ} {keys : List κ} (h : Spaced w keys) : (recent w keys).Nodup := by
  have hsplit : keys.take (keys.length - w) ++ recent w keys = keys := List.take_append_drop _ _
  cases hrecent : recent w keys with
  | nil => exact List.nodup_nil
  | cons k later =>
    have hlength := length_recent w keys
    rw [hrecent, List.length_cons] at hlength
    rw [hrecent] at hsplit
    rw [← hsplit] at h
    exact h.nodup_window (by omega)

theorem Spaced.remembered [DecidableEq κ] {w : ℕ} {earlier later : List κ} {k : κ}
    (h : Spaced w (earlier ++ k :: later)) (hfew : (later.toFinset.erase k).card < w) :
    k ∉ later ∧ later.length < w := by
  have hshort : later.length < w := by
    by_contra hlong
    have hparts : earlier ++ k :: later = (earlier ++ k :: later.take w) ++ later.drop w := by
      rw [List.append_assoc, List.cons_append, List.take_append_drop]
    rw [hparts] at h
    have hwindow := h.of_append.nodup_window (List.length_take_le w later)
    obtain ⟨hnotmem, hnodup⟩ := List.nodup_cons.mp hwindow
    have hsubset : (later.take w).toFinset ⊆ later.toFinset.erase k := by
      intro a ha
      rw [List.mem_toFinset] at ha
      rw [Finset.mem_erase, List.mem_toFinset]
      exact ⟨fun heq => hnotmem (heq ▸ ha), List.mem_of_mem_take ha⟩
    have hcard := Finset.card_le_card hsubset
    rw [List.toFinset_card_of_nodup hnodup, List.length_take] at hcard
    omega
  exact ⟨(List.nodup_cons.mp (h.nodup_window hshort.le)).1, hshort⟩

end Keys

/-! ### Windows of a log -/

section LogWindow

variable {α : Type*}

/-- The positions that a reader takes whose visits found the log at these lengths. -/
def takenPositions (w : ℕ) : List ℕ → List ℕ
  | before :: now :: later =>
    List.range' (max before (now - w)) (now - max before (now - w)) ++ takenPositions w (now :: later)
  | _ => []

/-- Two visits in a row between which a position became new, with the position still in the window
at the second one. -/
def TakenBetween (w : ℕ) (visits : List ℕ) (p : ℕ) : Prop :=
  ∃ earlier before now later,
    visits = earlier ++ before :: now :: later ∧ before ≤ p ∧ p < now ∧ now ≤ p + w

theorem mem_range'_window {w before now p : ℕ} :
    p ∈ List.range' (max before (now - w)) (now - max before (now - w)) ↔
      before ≤ p ∧ p < now ∧ now ≤ p + w := by
  rw [List.mem_range'_1]
  omega

theorem mem_takenPositions (w : ℕ) (visits : List ℕ) (p : ℕ) :
    p ∈ takenPositions w visits ↔ TakenBetween w visits p := by
  induction visits with
  | nil =>
    apply iff_of_false List.not_mem_nil
    rintro ⟨earlier, before, now, later, hsplit, -⟩
    exact absurd hsplit.symm (by simp)
  | cons before rest ih =>
    cases rest with
    | nil =>
      apply iff_of_false List.not_mem_nil
      rintro ⟨earlier, before', now, later, hsplit, -⟩
      have hlength := congrArg List.length hsplit
      simp at hlength
      omega
    | cons now later =>
      rw [takenPositions, List.mem_append, ih, mem_range'_window]
      constructor
      · rintro (hfirst | ⟨earlier, before', now', later', hsplit, hp⟩)
        · exact ⟨[], before, now, later, rfl, hfirst⟩
        · exact ⟨before :: earlier, before', now', later', by rw [hsplit, List.cons_append], hp⟩
      · rintro ⟨earlier, before', now', later', hsplit, hp⟩
        cases earlier with
        | nil =>
          obtain ⟨rfl, hrest⟩ := List.cons.inj hsplit
          obtain ⟨rfl, -⟩ := List.cons.inj hrest
          exact Or.inl hp
        | cons _ earlier =>
          exact Or.inr ⟨earlier, before', now', later', (List.cons.inj hsplit).2, hp⟩

theorem le_of_mem_takenPositions {w first : ℕ} {visits : List ℕ}
    (hvisits : (first :: visits).Pairwise (· ≤ ·)) {p : ℕ}
    (hp : p ∈ takenPositions w (first :: visits)) : first ≤ p := by
  obtain ⟨earlier, before, now, later, hsplit, hbefore, -⟩ := (mem_takenPositions _ _ _).mp hp
  have hmem : before ∈ first :: visits := by
    rw [hsplit]
    exact List.mem_append_right _ List.mem_cons_self
  rcases List.mem_cons.mp hmem with rfl | hlater
  · exact hbefore
  · exact ((List.pairwise_cons.mp hvisits).1 before hlater).trans hbefore

theorem lt_of_mem_takenPositions {w n : ℕ} {visits : List ℕ} (hvisits : ∀ visit ∈ visits, visit ≤ n)
    {p : ℕ} (hp : p ∈ takenPositions w visits) : p < n := by
  obtain ⟨earlier, before, now, later, hsplit, -, hnow, -⟩ := (mem_takenPositions _ _ _).mp hp
  apply hnow.trans_le (hvisits now _)
  rw [hsplit]
  exact List.mem_append_right _ (List.mem_cons_of_mem _ List.mem_cons_self)

theorem pairwise_takenPositions (w : ℕ) {visits : List ℕ} (hvisits : visits.Pairwise (· ≤ ·)) :
    (takenPositions w visits).Pairwise (· < ·) := by
  induction visits with
  | nil => exact List.Pairwise.nil
  | cons before rest ih =>
    cases rest with
    | nil => exact List.Pairwise.nil
    | cons now later =>
      have hrest := (List.pairwise_cons.mp hvisits).2
      apply List.pairwise_append.mpr ⟨List.pairwise_lt_range', ih hrest, ?_⟩
      intro p hp q hq
      exact (mem_range'_window.mp hp).2.1.trans_le (le_of_mem_takenPositions hrest hq)

/-- Reading a length again keeps the order. -/
theorem pairwise_le_repeat {l r : List ℕ} {n : ℕ} (h : (l ++ n :: r).Pairwise (· ≤ ·)) :
    (l ++ [n] ++ n :: r).Pairwise (· ≤ ·) := by
  obtain ⟨hleft, hright, hcross⟩ := List.pairwise_append.mp h
  rw [List.append_assoc, List.singleton_append]
  apply List.pairwise_append.mpr ⟨hleft, List.pairwise_cons.mpr ⟨?_, hright⟩, ?_⟩
  · intro m hm
    rcases List.mem_cons.mp hm with rfl | hlater
    · exact le_rfl
    · exact (List.pairwise_cons.mp hright).1 m hlater
  · intro m hm k hk
    rcases List.mem_cons.mp hk with rfl | hlater
    · exact hcross m hm k List.mem_cons_self
    · exact hcross m hm k hlater

theorem takenPositions_concat (w : ℕ) (earlier : List ℕ) (before now : ℕ) :
    takenPositions w (earlier ++ [before] ++ [now]) = takenPositions w (earlier ++ [before]) ++
        List.range' (max before (now - w)) (now - max before (now - w)) := by
  induction earlier with
  | nil => simp [takenPositions]
  | cons first earlier ih =>
    cases earlier with
    | nil => simp [takenPositions]
    | cons second earlier =>
      simp only [List.cons_append, takenPositions] at ih ⊢
      rw [ih, List.append_assoc]

/-- A run of positions picks out a part of the log. -/
theorem filterMap_range' (l : List α) (m k : ℕ) :
    ((List.range' m k).filterMap fun p => l[p]?) = (l.drop m).take k := by
  induction k generalizing m with
  | zero => simp
  | succ k ih =>
    rw [List.range'_succ, List.filterMap_cons, ih]
    rcases lt_or_ge m l.length with hm | hm
    · rw [List.getElem?_eq_getElem hm, List.drop_eq_getElem_cons hm, List.take_succ_cons]
    · rw [List.getElem?_eq_none hm, List.drop_eq_nil_of_le hm, List.drop_eq_nil_of_le (by omega)]
      simp

/-- The last new entries of the window are those at the positions that are taken. -/
theorem recent_recent_take (l : List α) {w before now : ℕ} (hbefore : before ≤ now)
    (hnow : now ≤ l.length) : recent (now - before) (recent w (l.take now)) =
      (List.range' (max before (now - w)) (now - max before (now - w))).filterMap fun p => l[p]? := by
  have hlength : (l.take now).length = now := List.length_take_of_le hnow
  have hskipped : now - w + (now - (now - w) - (now - before)) = max before (now - w) := by omega
  rw [filterMap_range', recent, recent, List.length_drop, hlength, List.drop_drop, hskipped,
    List.drop_take]

end LogWindow

end Foundations
