import TradingSim.Feed.BookDeltas

/-!
# Books as ladders

A side of a book is a ladder: its levels stand strictly in order and have positive quantities. A ladder
is the same as the map from its prices to their quantities. A change sets or deletes the quantity of
one price, and both decoders do this on a ladder, whatever changes come one after the other.
-/

namespace TradingSim.Feed

open Foundations Foundations.KeyedList
open Exchange (OrderBookLevel)

/-- A side of a book: levels strictly in the order of the side, with positive quantities. -/
structure Ladder (side : BookSide) where
  levels : List OrderBookLevel
  sorted : levels.Pairwise fun a b => side.before a b
  positive : ∀ level ∈ levels, 0 < level.quantity

/-- The quantity at a price. -/
def quantityAt (levels : List OrderBookLevel) (p : ℚ) : Option ℚ :=
  (atPrice p levels).head?.map OrderBookLevel.quantity

/-- Set the quantity at the price of a change, or delete it if the change has none. -/
def setOrDelete (quantities : ℚ → Option ℚ) (change : LevelChange) : ℚ → Option ℚ :=
  Function.update quantities change.p (if 0 < change.q then some change.q else none)

variable {side : BookSide} {a b c level : OrderBookLevel} {levels : List OrderBookLevel}

/-! ### The order of a side -/

theorem before_trans (hab : side.before a b) (hbc : side.before b c) : side.before a c := by
  cases side with
  | bids =>
    simp only [BookSide.before, decide_eq_true_eq] at hab hbc ⊢
    exact hbc.trans hab
  | asks =>
    simp only [BookSide.before, decide_eq_true_eq] at hab hbc ⊢
    exact hab.trans hbc

theorem price_ne_of_before (h : side.before a b) : a.price ≠ b.price := by
  cases side with
  | bids => exact (of_decide_eq_true h).ne'
  | asks => exact (of_decide_eq_true h).ne

theorem before_of_not_before (h : ¬ side.before a b) (hne : a.price ≠ b.price) : side.before b a := by
  cases side with
  | bids =>
    simp only [BookSide.before, decide_eq_true_eq, not_lt] at h ⊢
    exact lt_of_le_of_ne h hne
  | asks =>
    simp only [BookSide.before, decide_eq_true_eq, not_lt] at h ⊢
    exact lt_of_le_of_ne h hne.symm

/-- The order of a side looks at prices only. -/
theorem before_congr_left (h : a.price = b.price) : side.before a c = side.before b c := by
  cases side <;> simp [BookSide.before, h]

theorem before_congr_right (h : a.price = b.price) : side.before c a = side.before c b := by
  cases side <;> simp [BookSide.before, h]

/-! ### The bot's insertion -/

theorem bubbleUp_perm (side : BookSide) (level : OrderBookLevel) (levels : List OrderBookLevel) :
    (bubbleUp side level levels).Perm (level :: levels) := by
  induction levels with
  | nil => exact .refl _
  | cons last rest ih =>
    by_cases hbefore : side.before level last = true
    · rw [bubbleUp, if_pos hbefore]
      exact (ih.cons last).trans (.swap level last rest)
    · rw [bubbleUp, if_neg hbefore]

theorem pushBubbled_perm (side : BookSide) (levels : List OrderBookLevel) (level : OrderBookLevel) :
    (pushBubbled side levels level).Perm (level :: levels) :=
  (List.reverse_perm _).trans <|
    (bubbleUp_perm side level levels.reverse).trans ((List.reverse_perm levels).cons level)

/-- A level of a new price comes to stand between the levels before it and behind it. -/
theorem bubbleUp_sorted (hsorted : levels.Pairwise fun a b => side.before b a)
    (hnew : ∀ other ∈ levels, other.price ≠ level.price) :
    (bubbleUp side level levels).Pairwise fun a b => side.before b a := by
  induction levels with
  | nil => exact List.pairwise_singleton _ _
  | cons last rest ih =>
    obtain ⟨hlast, hrest⟩ := List.pairwise_cons.mp hsorted
    have hnewRest : ∀ other ∈ rest, other.price ≠ level.price :=
      fun other hother => hnew other (List.mem_cons_of_mem last hother)
    by_cases hbefore : side.before level last = true
    · rw [bubbleUp, if_pos hbefore]
      refine (ih hrest hnewRest).cons fun other hother => ?_
      rcases List.mem_cons.mp ((bubbleUp_perm side level rest).subset hother) with rfl | hother
      · exact hbefore
      · exact hlast other hother
    · rw [bubbleUp, if_neg hbefore]
      have hbehind := before_of_not_before hbefore (hnew last List.mem_cons_self).symm
      refine hsorted.cons fun other hother => ?_
      rcases List.mem_cons.mp hother with rfl | hother
      · exact hbehind
      · exact before_trans (hlast other hother) hbehind

theorem pushBubbled_sorted (hsorted : levels.Pairwise fun a b => side.before a b)
    (hnew : ∀ other ∈ levels, other.price ≠ level.price) :
    (pushBubbled side levels level).Pairwise fun a b => side.before a b := by
  have hreverse : levels.reverse.Pairwise fun a b => side.before b a :=
    List.pairwise_reverse.mpr hsorted
  rw [pushBubbled, List.pairwise_reverse]
  exact bubbleUp_sorted hreverse fun other hother => hnew other (List.mem_reverse.mp hother)

/-! ### One change -/

/-- Setting a level keeps the order: at a price that is there nothing moves. -/
theorem put_sorted (hsorted : levels.Pairwise fun a b => side.before a b) (level : OrderBookLevel) :
    (put OrderBookLevel.price (pushBubbled side) levels level).Pairwise fun a b => side.before a b := by
  unfold put
  cases hfirst : firstUnder OrderBookLevel.price level.price levels with
  | none =>
    exact pushBubbled_sorted hsorted (under_eq_nil_iff.mp (firstUnder_eq_none hfirst))
  | some i =>
    obtain ⟨front, old, back, rfl, rfl, hprice, -⟩ := firstUnder_eq_some hfirst
    have hset : (front ++ old :: back).set front.length level = front ++ level :: back := by simp
    rw [List.pairwise_append, List.pairwise_cons] at hsorted
    simp only [hset]
    rw [List.pairwise_append, List.pairwise_cons]
    obtain ⟨hfront, ⟨hold, hback⟩, hcross⟩ := hsorted
    refine ⟨hfront, ⟨fun other hother => ?_, hback⟩, fun first hmem other hother => ?_⟩
    · rw [← before_congr_left hprice]
      exact hold other hother
    · rcases List.mem_cons.mp hother with rfl | hother
      · rw [← before_congr_right hprice]
        exact hcross first hmem old List.mem_cons_self
      · exact hcross first hmem other (List.mem_cons_of_mem old hother)

theorem remove_sublist (levels : List OrderBookLevel) (p : ℚ) :
    (remove OrderBookLevel.price levels p).Sublist levels := by
  unfold remove
  cases firstUnder OrderBookLevel.price p levels with
  | none => exact .refl _
  | some i => exact List.eraseIdx_sublist levels i

theorem mem_put {other : OrderBookLevel}
    (h : other ∈ put OrderBookLevel.price (pushBubbled side) levels level) :
    other = level ∨ other ∈ levels := by
  unfold put at h
  cases hfirst : firstUnder OrderBookLevel.price level.price levels with
  | none =>
    rw [hfirst] at h
    exact List.mem_cons.mp ((pushBubbled_perm side levels level).subset h)
  | some i =>
    rw [hfirst] at h
    exact (List.mem_or_eq_of_mem_set h).symm

namespace Ladder

/-- The bot applies a change to a ladder. -/
def apply (L : Ladder side) (change : LevelChange) : Ladder side where
  levels := applyChange (pushBubbled side) L.levels change
  sorted := by
    unfold applyChange
    split
    · exact put_sorted L.sorted _
    · exact L.sorted.sublist (remove_sublist L.levels change.p)
  positive := by
    intro other hother
    unfold applyChange at hother
    split at hother
    · rename_i hq
      rcases mem_put hother with rfl | hother
      · exact hq
      · exact L.positive other hother
    · exact L.positive other ((remove_sublist L.levels change.p).subset hother)

/-- The quantities of a ladder by price. -/
def quantities (L : Ladder side) : ℚ → Option ℚ := quantityAt L.levels

theorem tail_atPrice (L : Ladder side) (p : ℚ) : (atPrice p L.levels).tail = [] := by
  have hnodup : (L.levels.map OrderBookLevel.price).Nodup :=
    List.pairwise_map.mpr (L.sorted.imp price_ne_of_before)
  have hlength := nodup_keys_iff.mp hnodup p
  refine List.eq_nil_of_length_eq_zero ?_
  rw [List.length_tail, atPrice]
  omega

/-- A change of a ladder sets or deletes the quantity at its price. -/
theorem quantities_apply (L : Ladder side) (change : LevelChange) :
    (L.apply change).quantities = setOrDelete L.quantities change := by
  funext p
  have hat : atPrice p (L.apply change).levels =
      if change.p = p then spend change (atPrice p L.levels) else atPrice p L.levels :=
    atPrice_applyChange (joins_pushBubbled side) L.levels change p
  rw [quantities, quantityAt, hat]
  by_cases hp : change.p = p
  · subst hp
    rw [if_pos rfl, setOrDelete, Function.update_self, spend, L.tail_atPrice]
    by_cases hq : 0 < change.q
    · simp [hq]
    · simp [hq]
  · rw [if_neg hp, setOrDelete, Function.update_of_ne (Ne.symm hp)]
    rfl

theorem atPrice_levels (L : Ladder side) (p : ℚ) :
    atPrice p L.levels = ((L.quantities p).map fun q => (⟨p, q⟩ : OrderBookLevel)).toList := by
  have htail := L.tail_atPrice p
  have hprices : ∀ level ∈ atPrice p L.levels, level.price = p := fun _ h => (mem_under.mp h).2
  rw [quantities, quantityAt]
  cases hat : atPrice p L.levels with
  | nil => rfl
  | cons level rest =>
    rw [hat] at htail hprices
    have hlevel : level = ⟨p, level.quantity⟩ := by
      rw [← hprices level List.mem_cons_self]
    rw [List.tail_cons] at htail
    rw [htail]
    exact congrArg (fun l => [l]) hlevel

theorem sort_eq_of_perm (L : Ladder side) (hperm : levels.Perm L.levels) :
    side.sort levels = L.levels := by
  have hsorted : (side.sort levels).Pairwise fun a b => ¬ side.before b a := by
    cases side with
    | bids =>
      have hle := List.pairwise_insertionSort (fun a b : OrderBookLevel => b.price ≤ a.price) levels
      exact hle.imp fun h => by simpa [BookSide.before] using h
    | asks =>
      have hle := List.pairwise_insertionSort (fun a b : OrderBookLevel => a.price ≤ b.price) levels
      exact hle.imp fun h => by simpa [BookSide.before] using h
  have hladder : L.levels.Pairwise fun a b => ¬ side.before b a :=
    L.sorted.imp fun hab hba => price_ne_of_before (before_trans hab hba) rfl
  refine List.Perm.eq_of_pairwise (fun a b ha hb hab hba => ?_) hsorted hladder
    ((sort_perm side levels).trans hperm)
  have hprice : a.price = b.price := by
    by_contra hne
    exact hba (before_of_not_before hab (Ne.symm hne))
  have hmem : a ∈ L.levels := hperm.subset ((sort_perm side levels).subset ha)
  have hat : ∀ level ∈ L.levels, level.price = b.price → some level.quantity = L.quantities b.price := by
    intro level hlevel heq
    have hin : level ∈ atPrice b.price L.levels := mem_under.mpr ⟨hlevel, heq⟩
    rw [L.atPrice_levels] at hin
    cases hq : L.quantities b.price with
    | none => simp [hq] at hin
    | some q =>
      rw [hq] at hin
      rw [List.mem_singleton.mp hin]
  have hquantity := Option.some.inj ((hat a hmem hprice).trans (hat b hb rfl).symm)
  cases a
  cases b
  simp_all

/-! ### Any changes -/

/-- The ladder after changes one after the other. -/
def applyAll (L : Ladder side) (changes : List LevelChange) : Ladder side := changes.foldl apply L

theorem levels_applyAll (L : Ladder side) (changes : List LevelChange) :
    (L.applyAll changes).levels = applyLevelDeltas side L.levels changes := by
  induction changes generalizing L with
  | nil => rfl
  | cons change rest ih => exact ih (L.apply change)

theorem quantities_applyAll (L : Ladder side) (changes : List LevelChange) :
    (L.applyAll changes).quantities = changes.foldl setOrDelete L.quantities := by
  induction changes generalizing L with
  | nil => rfl
  | cons change rest ih =>
    rw [List.foldl_cons, ← L.quantities_apply]
    exact ih (L.apply change)

end Ladder

theorem atPrice_push_eq (side : BookSide) (changes : List LevelChange) {pushed : List OrderBookLevel}
    (h : ∀ p, atPrice p pushed = atPrice p levels) (p : ℚ) :
    atPrice p (changes.foldl (applyChange fun levels level => levels ++ [level]) pushed) =
      atPrice p (changes.foldl (applyChange (pushBubbled side)) levels) := by
  induction changes generalizing pushed levels with
  | nil => exact h p
  | cons change rest ih =>
    refine ih fun p => ?_
    rw [atPrice_applyChange joins_push, atPrice_applyChange (joins_pushBubbled side), h p]

/-- The dashboard's changes leave the same ladder as the bot's. -/
theorem Ladder.applyDeltas_eq (L : Ladder side) (changes : List LevelChange) :
    applyDeltas side L.levels changes = (L.applyAll changes).levels := by
  refine (L.applyAll changes).sort_eq_of_perm ?_
  rw [perm_iff_under OrderBookLevel.price, L.levels_applyAll]
  intro p
  exact .of_eq (atPrice_push_eq side changes (fun _ => rfl) p)

/-- On a side that is strictly sorted, with positive quantities, any changes leave both decoders with the
same levels, strictly sorted and with positive quantities: those of the map that each change in turn
has set or deleted a price of. -/
theorem applyDeltas_agree (side : BookSide) (levels : List OrderBookLevel) (changes : List LevelChange)
    (hsorted : levels.Pairwise fun a b => side.before a b)
    (hpositive : ∀ level ∈ levels, 0 < level.quantity) :
    applyLevelDeltas side levels changes = applyDeltas side levels changes ∧
      (applyDeltas side levels changes).Pairwise (fun a b => side.before a b) ∧
      (∀ level ∈ applyDeltas side levels changes, 0 < level.quantity) ∧
      ∀ p, atPrice p (applyDeltas side levels changes) =
        ((changes.foldl setOrDelete (quantityAt levels) p).map
          fun q => (⟨p, q⟩ : OrderBookLevel)).toList := by
  let L : Ladder side := ⟨levels, hsorted, hpositive⟩
  have hdeltas : applyDeltas side levels changes = (L.applyAll changes).levels := L.applyDeltas_eq changes
  rw [hdeltas]
  refine ⟨(L.levels_applyAll changes).symm, (L.applyAll changes).sorted, (L.applyAll changes).positive,
    fun p => ?_⟩
  rw [(L.applyAll changes).atPrice_levels, L.quantities_applyAll]
  rfl

/-- A price that is deleted and set again, a new best price, and a price that was not there. -/
theorem applyDeltas_agree_repeated :
    let levels : List OrderBookLevel := [⟨101, 1⟩, ⟨100, 2⟩]
    let changes : List LevelChange := [⟨100, 0⟩, ⟨100, 3⟩, ⟨102, 1⟩, ⟨99, 0⟩, ⟨102, 4⟩]
    applyLevelDeltas .bids levels changes = [⟨102, 4⟩, ⟨101, 1⟩, ⟨100, 3⟩] ∧
      applyDeltas .bids levels changes = [⟨102, 4⟩, ⟨101, 1⟩, ⟨100, 3⟩] := by
  intro levels changes
  have hagree := applyDeltas_agree .bids levels changes (by decide +kernel) (by decide +kernel)
  have hbot : applyLevelDeltas .bids levels changes = [⟨102, 4⟩, ⟨101, 1⟩, ⟨100, 3⟩] := by
    decide +kernel
  exact ⟨hbot, hagree.1.symm.trans hbot⟩

end TradingSim.Feed
