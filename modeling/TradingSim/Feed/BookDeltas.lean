import TradingSim.Feed.Client

/-!
# One side of a book through encoder and decoder

The encoder compares quantities price by price, so a side is followed price by price. At a price
whose quantity it finds unchanged it sends nothing; at any other price it sends the last level the
book has there, or a removal, and the decoder spends it on the first level that the client has
there.
-/

namespace TradingSim.Feed

open Foundations Foundations.KeyedList
open Exchange (OrderBookLevel)
open Market

/-- The levels of a side at a price. -/
def atPrice (p : ℚ) (levels : List OrderBookLevel) : List OrderBookLevel :=
  under OrderBookLevel.price p levels

/-- The encoder finds nothing to send at a price: both books lack it, or have quantities that
count as the same. -/
def Unchanged (last : Dict ℚ ℚ) (held : List OrderBookLevel) (p : ℚ) : Prop :=
  match last.find? p, (levelMap held).find? p with
  | none, none => True
  | some old, some qty => sameQuantity old qty = true
  | _, _ => False

/-- The levels at one price that a change of that price does not carry: all but the last, and
the last too unless its quantity is positive. -/
def unsent (levels : List OrderBookLevel) : List OrderBookLevel :=
  match levels.getLast? with
  | some level => if 0 < level.quantity then levels.dropLast else levels
  | none => []

/-- The quantity a change reports for the levels at its price. -/
def lastQuantity (levels : List OrderBookLevel) : ℚ :=
  (levels.getLast?.map OrderBookLevel.quantity).getD 0

/-- The condition on the last broadcast side, the client's and the book's under which the
changes carry the client to the book. -/
def Reconciles (last : Dict ℚ ℚ) (client held : List OrderBookLevel) : Prop :=
  ∀ p, (Unchanged last held p → (atPrice p client).Perm (atPrice p held)) ∧
    (¬ Unchanged last held p → (atPrice p client).tail.Perm (unsent (atPrice p held)))

/-- Moving a new level up leaves it at the head of the levels of its price. -/
theorem under_bubbleUp (side : BookSide) (level : OrderBookLevel) (levels : List OrderBookLevel) (p : ℚ) :
    atPrice p (bubbleUp side level levels) =
      if level.price = p then level :: atPrice p levels else atPrice p levels := by
  induction levels with
  | nil =>
    by_cases hp : level.price = p
    · simp [atPrice, under, bubbleUp, hp]
    · simp [atPrice, under, bubbleUp, hp]
  | cons last rest ih =>
    by_cases hbefore : side.before level last = true
    · have hne : last.price ≠ level.price := by
        intro heq
        cases side <;> simp [BookSide.before, heq] at hbefore
      rw [bubbleUp, if_pos hbefore]
      by_cases hlast : last.price = p
      · have hlevel : level.price ≠ p := fun h => hne (hlast.trans h.symm)
        rw [if_neg hlevel] at ih ⊢
        subst hlast
        rw [atPrice, under_cons_self, ← atPrice, ih, atPrice, atPrice, under_cons_self]
      · rw [atPrice, under_cons_of_ne hlast, ← atPrice, ih, atPrice, atPrice,
          under_cons_of_ne hlast]
    · rw [bubbleUp, if_neg hbefore]
      by_cases hp : level.price = p
      · subst hp
        rw [if_pos rfl, atPrice, under_cons_self]
        rfl
      · rw [if_neg hp, atPrice, under_cons_of_ne hp]
        rfl

/-- The bot's way of adding a level keeps the levels of each price in order. -/
theorem joins_pushBubbled (side : BookSide) : Joins OrderBookLevel.price (pushBubbled side) := by
  intro levels level p
  have hreverse (l : List OrderBookLevel) :
      under OrderBookLevel.price p l.reverse = (atPrice p l).reverse := List.filter_reverse
  rw [pushBubbled, hreverse, under_bubbleUp, atPrice, hreverse, atPrice]
  by_cases hp : level.price = p
  · rw [if_pos hp, if_pos hp, List.reverse_cons, List.reverse_reverse]
  · rw [if_neg hp, if_neg hp, List.reverse_reverse]

/-- What a change does to the levels of its price. -/
def spend (change : LevelChange) (levels : List OrderBookLevel) : List OrderBookLevel :=
  if 0 < change.q then ⟨change.p, change.q⟩ :: levels.tail else levels.tail

theorem atPrice_applyChange {add : List OrderBookLevel → OrderBookLevel → List OrderBookLevel}
    (hadd : Joins OrderBookLevel.price add) (levels : List OrderBookLevel) (change : LevelChange) (p : ℚ) :
    atPrice p (applyChange add levels change) =
      if change.p = p then spend change (atPrice p levels) else atPrice p levels := by
  unfold applyChange spend atPrice
  by_cases hq : 0 < change.q
  · simp only [hq, if_true, under_put hadd]
  · simp only [hq, if_false, under_remove]

theorem atPrice_foldl_applyChange {add : List OrderBookLevel → OrderBookLevel → List OrderBookLevel}
    (hadd : Joins OrderBookLevel.price add) (changes : List LevelChange)
    (hdistinct : (changes.map LevelChange.p).Nodup) (levels : List OrderBookLevel) (p : ℚ) :
    atPrice p (changes.foldl (applyChange add) levels) =
      (changes.find? fun change => change.p = p).elim (atPrice p levels) fun change =>
        spend change (atPrice p levels) :=
  view_foldl atPrice (atPrice_applyChange hadd) changes hdistinct levels p

theorem sort_perm (side : BookSide) (levels : List OrderBookLevel) : (side.sort levels).Perm levels := by
  cases side with
  | bids => exact List.perm_insertionSort _ _
  | asks => exact List.perm_insertionSort _ _

theorem atPrice_applySide (d : Decoder) (side : BookSide) (changes : List LevelChange)
    (hdistinct : (changes.map LevelChange.p).Nodup) (levels : List OrderBookLevel) (p : ℚ) :
    (atPrice p (d.applySide side levels changes)).Perm
      ((changes.find? fun change => change.p = p).elim (atPrice p levels) fun change =>
        spend change (atPrice p levels)) := by
  cases d with
  | dashboard =>
    rw [← atPrice_foldl_applyChange joins_push changes hdistinct levels p]
    exact (sort_perm side _).filter _
  | bot =>
    rw [← atPrice_foldl_applyChange (joins_pushBubbled side) changes hdistinct levels p]
    exact List.Perm.refl _

theorem sideChanges_nodup (last current : Dict ℚ ℚ) :
    ((sideChanges last current).map LevelChange.p).Nodup := by
  rw [sideChanges, List.map_map]
  exact Dict.changes_nodup sameQuantity 0 last current

theorem find?_sideChanges (last current : Dict ℚ ℚ) (p : ℚ) :
    (sideChanges last current).find? (fun change => change.p = p) =
      (Dict.changeAt sameQuantity 0 last current p).map fun q => ⟨p, q⟩ := by
  rw [sideChanges, List.find?_map]
  have hchange := Dict.find?_changes sameQuantity 0 last current p
  simp only [Function.comp_def] at hchange ⊢
  rw [hchange, Option.map_map]
  rfl

/-- Nothing is sent for a price exactly when it is unchanged. -/
theorem changeAt_eq_none_iff (last : Dict ℚ ℚ) (held : List OrderBookLevel) (p : ℚ) :
    Dict.changeAt sameQuantity 0 last (levelMap held) p = none ↔ Unchanged last held p := by
  unfold Dict.changeAt Unchanged Dict.fresh
  cases last.find? p with
  | none => cases (levelMap held).find? p <;> simp
  | some old => cases (levelMap held).find? p <;> simp

/-- What is sent for a changed price is the last level of the book there, or a removal. -/
theorem changeAt_eq_some (last : Dict ℚ ℚ) (held : List OrderBookLevel) (p q : ℚ)
    (h : Dict.changeAt sameQuantity 0 last (levelMap held) p = some q) :
    q = lastQuantity (atPrice p held) := by
  unfold Dict.changeAt at h
  rw [levelMap, Dict.find?_ofList, ← atPrice] at h
  unfold lastQuantity
  cases hlast : (atPrice p held).getLast? with
  | some level =>
    rw [hlast, Option.map_some] at h
    simp only at h
    split at h
    · exact (Option.some.inj h).symm
    · cases h
  | none =>
    rw [hlast, Option.map_none] at h
    simp only at h
    split at h
    · exact (Option.some.inj h).symm
    · cases h

theorem spend_perm_iff (held client : List OrderBookLevel) (p : ℚ) (q : ℚ)
    (hq : q = lastQuantity (atPrice p held)) :
    (spend ⟨p, q⟩ client).Perm (atPrice p held) ↔ client.tail.Perm (unsent (atPrice p held)) := by
  unfold lastQuantity at hq
  unfold spend unsent
  rcases List.eq_nil_or_concat (atPrice p held) with hnil | ⟨front, level, hconcat⟩
  · rw [hnil] at hq ⊢
    simp [hq]
  · have hprice : level.price = p := by
      have hmem : level ∈ atPrice p held := by
        rw [hconcat, List.concat_eq_append]
        exact List.mem_append_right front (List.mem_singleton_self level)
      exact (mem_under.mp hmem).2
    rw [hconcat, List.concat_eq_append, List.getLast?_concat, Option.map_some,
      Option.getD_some] at hq
    rw [hconcat, List.concat_eq_append, List.getLast?_concat, List.dropLast_concat]
    subst hq
    subst hprice
    simp only
    by_cases hpos : 0 < level.quantity
    · rw [if_pos hpos, if_pos hpos]
      constructor
      · intro h
        exact (List.perm_cons level).mp (h.trans (List.perm_append_singleton level front))
      · intro h
        exact ((List.perm_cons level).mpr h).trans (List.perm_append_singleton level front).symm
    · rw [if_neg hpos, if_neg hpos]

theorem applySide_perm_iff (d : Decoder) (side : BookSide) (last : Dict ℚ ℚ)
    (client held : List OrderBookLevel) :
    (d.applySide side client (sideChanges last (levelMap held))).Perm held ↔
      Reconciles last client held := by
  rw [perm_iff_under OrderBookLevel.price]
  refine forall_congr' fun p => ?_
  change (atPrice p _).Perm (atPrice p held) ↔ _
  have happlied := atPrice_applySide d side _ (sideChanges_nodup last (levelMap held)) client p
  rw [find?_sideChanges] at happlied
  rw [happlied.congr_left]
  cases hchange : Dict.changeAt sameQuantity 0 last (levelMap held) p with
  | none =>
    have hunchanged := (changeAt_eq_none_iff last held p).mp hchange
    simp only [Option.map_none, Option.elim_none, hunchanged, true_implies, not_true_eq_false, false_implies,
      and_true]
  | some q =>
    have hchanged : ¬ Unchanged last held p := by
      rw [← changeAt_eq_none_iff, hchange]
      exact Option.some_ne_none q
    simp only [Option.map_some, Option.elim_some, hchanged, false_implies, true_and, not_false_eq_true, true_implies]
    exact spend_perm_iff held _ p q (changeAt_eq_some last held p q hchange)

end TradingSim.Feed
