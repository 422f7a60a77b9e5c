import Mathlib.Data.List.Basic

/-!
# Sets mirrored by messages

The owner of a set tells others of it: once by the whole set, and then by messages, each of which
says of some elements whether they belong to the set. A mirror holds what it was told, and may have
messages still due.

A mirror follows the set if, of every element, the last word that is due is true and, where no word
is due, the mirror is right.
-/

namespace Foundations

variable {κ M : Type*} [DecidableEq κ]

/-- What a list of changes says last of an element. -/
def lastWord : List (κ × Bool) → κ → Option Bool
  | [], _ => none
  | (k', b) :: rest, k => (lastWord rest k).or (if k' = k then some b else none)

theorem lastWord_append (xs ys : List (κ × Bool)) (k : κ) :
    lastWord (xs ++ ys) k = (lastWord ys k).or (lastWord xs k) := by
  induction xs with
  | nil => simp [lastWord]
  | cons x xs ih => rw [List.cons_append, lastWord, lastWord, ih, Option.or_assoc]

theorem mem_of_lastWord {changes : List (κ × Bool)} {k : κ} {b : Bool}
    (h : lastWord changes k = some b) : (k, b) ∈ changes := by
  induction changes with
  | nil => cases h
  | cons c rest ih =>
    rw [lastWord] at h
    cases hrest : lastWord rest k with
    | some b' =>
      rw [hrest, Option.some_or] at h
      cases h
      exact List.mem_cons_of_mem c (ih hrest)
    | none =>
      rw [hrest, Option.none_or] at h
      split at h
      · rename_i heq
        cases h
        rw [← heq]
        exact List.mem_cons_self
      · cases h

/-- Nothing is said of an element that no change names. -/
theorem lastWord_eq_none_iff (changes : List (κ × Bool)) (k : κ) :
    lastWord changes k = none ↔ ∀ c ∈ changes, c.1 ≠ k := by
  induction changes with
  | nil => simp [lastWord]
  | cons c rest ih =>
    rw [lastWord, Option.or_eq_none_iff, ih, List.forall_mem_cons, and_comm]
    apply and_congr_left
    split
    · rename_i heq
      simp [heq]
    · rename_i hne
      simp [hne]

/-- Whether an element is held after a list of changes. -/
def heldAfter (changes : List (κ × Bool)) (held : List κ) (k : κ) : Prop :=
  match lastWord changes k with
  | some b => b = true
  | none => k ∈ held

/-- A list of changes after another one. -/
theorem heldAfter_append (first second : List (κ × Bool)) {held held' : List κ} {k : κ}
    (h : k ∈ held' ↔ heldAfter first held k) :
    heldAfter second held' k ↔ heldAfter (first ++ second) held k := by
  unfold heldAfter at h ⊢
  rw [lastWord_append]
  cases lastWord second k with
  | some b => rfl
  | none => exact h

/-- If handling an element of a list is making its changes, handling the list is making all. -/
theorem mem_foldl_iff_heldAfter {α : Type*} {handle : List κ → α → List κ} {changes : α → List (κ × Bool)}
    (hhandle : ∀ held a k, k ∈ handle held a ↔ heldAfter (changes a) held k) (as : List α)
    (held : List κ) (k : κ) : k ∈ as.foldl handle held ↔ heldAfter (as.flatMap changes) held k := by
  induction as generalizing held with
  | nil => rfl
  | cons a rest ih =>
    rw [List.foldl_cons, List.flatMap_cons, ih]
    exact heldAfter_append _ _ (hhandle held a k)

/-- What was held of a set, and the messages that are still due. -/
structure Mirror (κ M : Type*) where
  held : List κ := []
  /-- The whole set has been told once. -/
  synced : Bool := false
  due : List M := []

namespace Mirror

/-- The messages are true of a set after a change, and they name every element that was taken in or
out of it. -/
def Covers (changes : M → List (κ × Bool)) (before after : κ → Prop) (messages : List M) : Prop :=
  ∀ k, (∀ b, lastWord (messages.flatMap changes) k = some b → (b = true ↔ after k)) ∧
    (lastWord (messages.flatMap changes) k = none → (after k ↔ before k))

/-- Send messages to a mirror. -/
def post (v : Mirror κ M) (messages : List M) : Mirror κ M := { v with due := v.due ++ messages }

/-- Tell a mirror the whole set. -/
def sync (v : Mirror κ M) (contents : List κ) : Mirror κ M :=
  { v with held := contents, synced := true }

/-- Have a mirror handle the due message at a place. -/
def take (handle : List κ → M → List κ) (v : Mirror κ M) (i : ℕ) : Mirror κ M :=
  match v.due[i]? with
  | none => v
  | some message => { v with held := handle v.held message, due := v.due.eraseIdx i }

/-- The message at a place may be taken: the earlier ones that are due say nothing else last of an
element that it names. -/
def InTurn (changes : M → List (κ × Bool)) (v : Mirror κ M) (i : ℕ) : Prop :=
  ∀ message ∈ v.due[i]?, ∀ c ∈ changes message,
    lastWord ((v.due.take i).flatMap changes) c.1 = none ∨
      lastWord ((v.due.take i).flatMap changes) c.1 = lastWord (changes message) c.1

instance (changes : M → List (κ × Bool)) (v : Mirror κ M) (i : ℕ) : Decidable (v.InTurn changes i) :=
  inferInstanceAs (Decidable (∀ message ∈ v.due[i]?, ∀ c ∈ changes message, _ ∨ _))

/-- The due messages have the last word on what they name, and it is true. What they do not name, a
mirror that was told the whole set holds rightly. -/
structure Follows (changes : M → List (κ × Bool)) (S : κ → Prop) (v : Mirror κ M) : Prop where
  due : ∀ k b, lastWord (v.due.flatMap changes) k = some b → (b = true ↔ S k)
  held : v.synced = true → ∀ k, lastWord (v.due.flatMap changes) k = none → (k ∈ v.held ↔ S k)

variable {changes : M → List (κ × Bool)} {S S' : κ → Prop} {v : Mirror κ M}

theorem covers_of_true {messages : List M} (htrue : ∀ c ∈ messages.flatMap changes, c.2 = true ↔ S' c.1)
    (hrest : ∀ k, (∀ c ∈ messages.flatMap changes, c.1 ≠ k) → (S' k ↔ S k)) :
    Covers changes S S' messages := by
  intro k
  exact ⟨fun b hword => htrue (k, b) (mem_of_lastWord hword),
    fun hnone => hrest k ((lastWord_eq_none_iff _ _).mp hnone)⟩

theorem Follows.new : ({} : Mirror κ M).Follows changes S :=
  ⟨fun _ _ h => (by cases h), fun h => (by cases h)⟩

/-- A mirror to which nothing is due holds the set. -/
theorem Follows.mem_iff (h : v.Follows changes S) (hsynced : v.synced = true) (hdue : v.due = [])
    (k : κ) : k ∈ v.held ↔ S k :=
  h.held hsynced k (by rw [hdue]; rfl)

/-- Telling the whole set. -/
theorem Follows.sync (h : v.Follows changes S) {contents : List κ}
    (hcontents : ∀ k, k ∈ contents ↔ S k) : (v.sync contents).Follows changes S :=
  ⟨h.due, fun _ k _ => hcontents k⟩

/-- Sending messages about a change of the set. -/
theorem Follows.post (h : v.Follows changes S) {messages : List M}
    (hcovers : Covers changes S S' messages) : (v.post messages).Follows changes S' := by
  have hsplit : ∀ k, lastWord ((v.due ++ messages).flatMap changes) k =
      (lastWord (messages.flatMap changes) k).or (lastWord (v.due.flatMap changes) k) := by
    intro k
    rw [List.flatMap_append, lastWord_append]
  constructor
  · intro k b hword
    change lastWord ((v.due ++ messages).flatMap changes) k = some b at hword
    rw [hsplit] at hword
    cases hnew : lastWord (messages.flatMap changes) k with
    | some b' =>
      rw [hnew, Option.some_or] at hword
      obtain rfl := Option.some.inj hword
      exact (hcovers k).1 b' hnew
    | none =>
      rw [hnew, Option.none_or] at hword
      exact (h.due k b hword).trans ((hcovers k).2 hnew).symm
  · intro hsynced k hword
    change lastWord ((v.due ++ messages).flatMap changes) k = none at hword
    rw [hsplit, Option.or_eq_none_iff] at hword
    exact (h.held hsynced k hword.2).trans ((hcovers k).2 hword.1).symm

/-- Handling a due message in its turn. -/
theorem Follows.take {handle : List κ → M → List κ} (h : v.Follows changes S)
    (hhandle : ∀ held message k, k ∈ handle held message ↔ heldAfter (changes message) held k)
    {i : ℕ} (hturn : v.InTurn changes i) : (v.take handle i).Follows changes S := by
  unfold Mirror.take
  cases hget : v.due[i]? with
  | none => exact h
  | some message =>
    have hturn' := hturn message hget
    have hi : i < v.due.length := (List.getElem?_eq_some_iff.mp hget).1
    have hmessage : v.due[i] = message := (List.getElem?_eq_some_iff.mp hget).2
    have hdue : ∀ k, lastWord (v.due.flatMap changes) k =
        (lastWord ((v.due.drop (i + 1)).flatMap changes) k).or
          ((lastWord (changes message) k).or (lastWord ((v.due.take i).flatMap changes) k)) := by
      intro k
      have hcut : v.due = v.due.take i ++ message :: v.due.drop (i + 1) := by
        rw [← hmessage, ← List.drop_eq_getElem_cons hi, List.take_append_drop]
      conv_lhs => rw [hcut, List.flatMap_append, List.flatMap_cons, lastWord_append,
        lastWord_append, Option.or_assoc]
    have hrest : ∀ k, lastWord ((v.due.eraseIdx i).flatMap changes) k =
        (lastWord ((v.due.drop (i + 1)).flatMap changes) k).or
          (lastWord ((v.due.take i).flatMap changes) k) := by
      intro k
      rw [List.eraseIdx_eq_take_drop_succ, List.flatMap_append, lastWord_append]
    -- What the message says, the earlier ones do not contradict.
    have hearlier : ∀ k b, lastWord (changes message) k = some b →
        lastWord ((v.due.take i).flatMap changes) k = none ∨
          lastWord ((v.due.take i).flatMap changes) k = some b := by
      intro k b hword
      rw [← hword]
      exact hturn' (k, b) (mem_of_lastWord hword)
    constructor
    · intro k b hword
      apply h.due k b
      rw [hrest] at hword
      rw [hdue]
      cases hlater : lastWord ((v.due.drop (i + 1)).flatMap changes) k with
      | some b' => rw [hlater] at hword; exact hword
      | none =>
        rw [hlater, Option.none_or] at hword
        cases hsays : lastWord (changes message) k with
        | none => exact hword
        | some b' =>
          rcases hearlier k b' hsays with hnone | hsame
          · rw [hnone] at hword
            cases hword
          · rw [hsame] at hword
            exact hword
    · intro hsynced k hword
      rw [hrest, Option.or_eq_none_iff] at hword
      rw [hhandle, heldAfter]
      cases hsays : lastWord (changes message) k with
      | some b =>
        refine h.due k b ?_
        rw [hdue, hword.1, Option.none_or, hsays, hword.2, Option.or_none]
      | none =>
        refine h.held hsynced k ?_
        rw [hdue, hword.1, hword.2, hsays]
        rfl

end Mirror

end Foundations
