import Mathlib.Data.Finset.Card
import TradingSim.Exchange.OrderFrames

/-!
# The counters of the order history

The history counts an order when it is recorded, with the status that it has, and again when its status
changes. So each order is counted once as submitted and once under its final status, unless it is
recorded twice: `_check_margin` records a resting order once more when it refuses it.
-/

namespace TradingSim.Exchange

open Foundations

namespace OrderHistory

/-- The counter of a final status. -/
def counter (history : OrderHistory) : OrderStatus → ℕ
  | .pending => 0
  | .filled => history.filled
  | .rejected => history.rejected
  | .cancelled => history.cancelled

variable (history : OrderHistory)

theorem submitted_countStatus (status : OrderStatus) :
    (history.countStatus status).submitted = history.submitted := by
  cases status with
  | pending => rfl
  | filled => rfl
  | rejected => rfl
  | cancelled => rfl

theorem counter_countStatus (status : OrderStatus) {status' : OrderStatus}
    (hfinal : status' ≠ .pending) : (history.countStatus status).counter status' =
      history.counter status' + if status = status' then 1 else 0 := by
  cases status <;> cases status' <;> first | exact absurd rfl hfinal | rfl

theorem counter_window (entries : List Ref) (status : OrderStatus) :
    ({ history with entries := entries } : OrderHistory).counter status = history.counter status := by
  cases status with
  | pending => rfl
  | filled => rfl
  | rejected => rfl
  | cancelled => rfl

end OrderHistory

namespace OrderTable

theorem submitted_record (t : OrderTable) (r : Ref) :
    (t.record r).history.submitted = t.history.submitted + 1 := by
  have hwindow : ∀ (history : OrderHistory) (entries : List Ref),
      ({ history with entries := entries } : OrderHistory).submitted = history.submitted :=
    fun _ _ => rfl
  exact (hwindow _ _).trans (OrderHistory.submitted_countStatus _ _)

variable {status : OrderStatus}

theorem counter_record (t : OrderTable) (r : Ref) (hfinal : status ≠ .pending) :
    (t.record r).history.counter status =
      t.history.counter status + if (t.get r).status = status then 1 else 0 := by
  unfold record
  rw [OrderHistory.counter_window, OrderHistory.counter_countStatus _ _ hfinal]
  cases status with
  | pending => exact absurd rfl hfinal
  | filled => rfl
  | rejected => rfl
  | cancelled => rfl

/-- The orders that the history has ever recorded. -/
def recorded (t : OrderTable) : Finset Ref := t.listened.toFinset

/-- How many of them have a status. -/
def withStatus (t : OrderTable) (status : OrderStatus) : ℕ :=
  (t.recorded.filter fun r => (t.get r).status = status).card

/-- Each recorded order is counted once, but for a number of them that are counted twice, as submitted
and as rejected. -/
structure Counted (twice : ℕ) (t : OrderTable) : Prop where
  live : ∀ r ∈ t.listened, t.objects.Live r
  booked : ∀ book k r, (t.pending book).find? k = some r → r ∈ t.listened
  submitted : t.history.submitted = t.recorded.card + twice
  final : ∀ status, status ≠ .pending → t.history.counter status =
    t.withStatus status + if status = .rejected then twice else 0

variable {twice : ℕ} {t t' t'' : OrderTable} {r : Ref}

/-- Tables whose recorded orders have the same status. -/
theorem Counted.congr (h : t.Counted twice) (hlistened : t'.listened = t.listened)
    (hhistory : t'.history = t.history)
    (hget : ∀ r ∈ t.listened, t'.objects.Live r ∧ (t'.get r).status = (t.get r).status)
    (hpending : ∀ book k r, (t'.pending book).find? k = some r → (t.pending book).find? k = some r) :
    t'.Counted twice := by
  have hrecorded : t'.recorded = t.recorded := congrArg List.toFinset hlistened
  refine ⟨?_, ?_, ?_, ?_⟩
  · intro r hr
    rw [hlistened] at hr
    exact (hget r hr).1
  · intro book k r hfind
    rw [hlistened]
    exact h.booked book k r (hpending book k r hfind)
  · rw [hhistory, hrecorded, h.submitted]
  · intro status hfinal
    have hcount : t'.withStatus status = t.withStatus status := by
      unfold withStatus
      rw [hrecorded]
      refine congrArg Finset.card (Finset.filter_congr ?_)
      intro r hr
      rw [(hget r (List.mem_toFinset.mp hr)).2]
    rw [hhistory, hcount, h.final status hfinal]

/-- Nothing but groups and entries that were deleted. -/
theorem Counted.of_objects (h : t.Counted twice) (hlistened : t'.listened = t.listened)
    (hhistory : t'.history = t.history) (hobjects : t'.objects = t.objects)
    (hpending : ∀ book k r, (t'.pending book).find? k = some r → (t.pending book).find? k = some r) :
    t'.Counted twice := by
  refine h.congr hlistened hhistory ?_ hpending
  intro r hr
  rw [get, get, hobjects]
  exact ⟨h.live r hr, rfl⟩

variable {f : Order → Order}

theorem Counted.update (h : t.Counted twice)
    (hf : ∀ o, (f o).status = o.status) : (t.update r f).Counted twice := by
  refine h.congr rfl rfl ?_ fun _ _ _ hfind => hfind
  intro r' hr'
  refine ⟨(Heap.live_modify _ _ _ _).mpr (h.live r' hr'), ?_⟩
  change ((t.objects.modify r f).get r').status = (t.objects.get r').status
  by_cases heq : r' = r
  · subst heq
    rw [Heap.get_modify_self _ (h.live r' hr'), hf]
  · rw [Heap.get_modify_of_ne _ heq]

/-- A new order is not recorded. -/
theorem Counted.create (h : t.Counted twice) (o : Order) : (t.create o).Counted twice := by
  refine h.congr rfl rfl ?_ fun _ _ _ hfind => hfind
  intro r hr
  refine ⟨(Heap.live_alloc _ _ _).mpr (Or.inl (h.live r hr)), ?_⟩
  change ((t.objects.alloc o).get r).status = (t.objects.get r).status
  rw [Heap.get_alloc_of_live _ _ (h.live r hr)]

theorem status_setStatus (t : OrderTable) (r : Ref) (status : OrderStatus) (r' : Ref) :
    ((t.setStatus r status).get r').status =
      if r' = r ∧ t.objects.Live r then status else (t.get r').status := by
  by_cases hlive : t.objects.Live r
  · rw [get_setStatus hlive]
    by_cases heq : r' = r
    · rw [if_pos heq, if_pos ⟨heq, hlive⟩]
    · rw [if_neg heq, if_neg fun hc : _ ∧ _ => heq hc.1]
  · rw [if_neg fun hc : _ ∧ _ => hlive hc.2, get, setStatus, Heap.modify_of_not_live _ hlive]
    rfl

theorem Counted.keepStatus (h : t.Counted twice)
    (hsame : (t.get r).status = status) : (t.setStatus r status).Counted twice := by
  refine h.congr rfl ?_ ?_ fun _ _ _ hfind => hfind
  · exact if_neg fun hc : _ ∧ (t.get r).status ≠ status => hc.2 hsame
  · intro r' hr'
    refine ⟨(Heap.live_modify _ _ _ _).mpr (h.live r' hr'), ?_⟩
    rw [status_setStatus]
    split
    · rename_i heq
      rw [heq.1, hsame]
    · rfl

theorem Counted.setStatusNew (h : t.Counted twice) (hnew : r ∉ t.listened) (status : OrderStatus) :
    (t.setStatus r status).Counted twice := by
  refine h.congr rfl ?_ ?_ fun _ _ _ hfind => hfind
  · exact if_neg fun hc : _ ∧ _ => hnew hc.1
  · intro r' hr'
    have hne : r' ≠ r := by
      rintro rfl
      exact hnew hr'
    refine ⟨(Heap.live_modify _ _ _ _).mpr (h.live r' hr'), ?_⟩
    rw [status_setStatus, if_neg fun hc : _ ∧ _ => hne hc.1]

/-- The orders with a status, after a recorded pending order got a final one. -/
theorem withStatus_setStatus (hlive : t.objects.Live r) (hr : r ∈ t.listened)
    (hpending : (t.get r).status = .pending) (status : OrderStatus) {status' : OrderStatus}
    (hfinal : status' ≠ .pending) : (t.setStatus r status).withStatus status' =
      t.withStatus status' + if status = status' then 1 else 0 := by
  have hstatus : ∀ r', ((t.setStatus r status).get r').status = status' ↔
      (r' = r ∧ status = status') ∨ (t.get r').status = status' := by
    intro r'
    rw [status_setStatus]
    by_cases heq : r' = r
    · subst heq
      rw [if_pos ⟨rfl, hlive⟩, hpending]
      simp [hfinal.symm]
    · simp [heq]
  unfold withStatus
  simp only [hstatus]
  change (t.recorded.filter _).card = _
  by_cases hsame : status = status'
  · have hinsert : (t.recorded.filter fun r' => (r' = r ∧ status = status') ∨
        (t.get r').status = status') =
        insert r (t.recorded.filter fun r' => (t.get r').status = status') := by
      ext r'
      simp only [Finset.mem_filter, Finset.mem_insert, hsame, and_true]
      constructor
      · rintro ⟨hr', heq | hold⟩
        · exact Or.inl heq
        · exact Or.inr ⟨hr', hold⟩
      · rintro (rfl | ⟨hr', hold⟩)
        · exact ⟨List.mem_toFinset.mpr hr, Or.inl rfl⟩
        · exact ⟨hr', Or.inr hold⟩
    rw [hinsert, Finset.card_insert_of_notMem, if_pos hsame]
    rw [Finset.mem_filter, hpending]
    exact fun hc => hfinal hc.2.symm
  · simp [hsame]

theorem Counted.setStatus (h : t.Counted twice) (hpending : (t.get r).status = .pending)
    (hstatus : status ≠ .pending) : (t.setStatus r status).Counted twice := by
  by_cases hr : r ∈ t.listened
  · have hchanged : (t.get r).status ≠ status := by
      rw [hpending]
      exact hstatus.symm
    have hhistory : (t.setStatus r status).history = t.history.countStatus status :=
      if_pos ⟨hr, hchanged⟩
    refine ⟨fun r' hr' => (Heap.live_modify _ _ _ _).mpr (h.live r' hr'), h.booked, ?_, ?_⟩
    · rw [hhistory, OrderHistory.submitted_countStatus]
      exact h.submitted
    · intro status' hfinal
      rw [hhistory, OrderHistory.counter_countStatus _ _ hfinal, h.final status' hfinal,
        withStatus_setStatus (h.live r hr) hr hpending status hfinal]
      omega
  · exact h.setStatusNew hr status

theorem Counted.record (h : t.Counted twice) (hlive : t.objects.Live r) (hnew : r ∉ t.listened) :
    (t.record r).Counted twice := by
  have hnew' : r ∉ t.recorded := fun hr => hnew (List.mem_toFinset.mp hr)
  have hrecorded : (t.record r).recorded = insert r t.recorded := List.toFinset_cons
  refine ⟨?_, ?_, ?_, ?_⟩
  · intro r' hr'
    rcases List.mem_cons.mp hr' with rfl | hold
    · exact hlive
    · exact h.live r' hold
  · exact fun book k r' hfind => List.mem_cons_of_mem _ (h.booked book k r' hfind)
  · rw [hrecorded, Finset.card_insert_of_notMem hnew']
    rw [submitted_record, h.submitted]
    omega
  · intro status hfinal
    have hcount : (t.record r).withStatus status =
        t.withStatus status + if (t.get r).status = status then 1 else 0 := by
      unfold withStatus
      rw [hrecorded, Finset.filter_insert]
      change (if (t.get r).status = status then _ else _ : Finset Ref).card = _
      split
      · rw [Finset.card_insert_of_notMem fun hr => hnew' (Finset.mem_filter.mp hr).1]
        rfl
      · rfl
    rw [hcount, counter_record _ _ hfinal, h.final status hfinal]
    omega

theorem Counted.recordAgain (h : t.Counted twice) (hold : r ∈ t.listened)
    (hrejected : (t.get r).status = .rejected) : (t.record r).Counted (twice + 1) := by
  have hrecorded : (t.record r).recorded = t.recorded := by
    refine (List.toFinset_cons).trans ?_
    exact Finset.insert_eq_self.mpr (List.mem_toFinset.mpr hold)
  refine ⟨?_, ?_, ?_, ?_⟩
  · intro r' hr'
    rcases List.mem_cons.mp hr' with rfl | hr'
    · exact h.live r' hold
    · exact h.live r' hr'
  · exact fun book k r' hfind => List.mem_cons_of_mem _ (h.booked book k r' hfind)
  · rw [hrecorded]
    rw [submitted_record, h.submitted]
    omega
  · intro status hfinal
    have hcount : (t.record r).withStatus status = t.withStatus status := by
      unfold withStatus
      rw [hrecorded]
      rfl
    rw [hcount, counter_record _ _ hfinal, hrejected, h.final status hfinal]
    by_cases hsame : status = .rejected
    · simp only [hsame, if_true]
      omega
    · have hne : ¬ OrderStatus.rejected = status := fun hc => hsame hc.symm
      simp only [hsame, hne, if_false]

/-! ### From one table to a later one -/

/-- The orders recorded on the way are counted once. -/
def CountsOnce (t t' : OrderTable) : Prop :=
  ∀ twice, t.Counted twice → t.listened ⊆ t'.listened ∧ t'.Counted twice

/-- They are counted once exactly under a condition, and some twice otherwise. -/
def CountsOnceIff (once : Prop) (t t' : OrderTable) : Prop :=
  ∀ twice, t.Counted twice → t.listened ⊆ t'.listened ∧
    ∃ again, (again = 0 ↔ once) ∧ t'.Counted (twice + again)

theorem CountsOnce.refl (t : OrderTable) : CountsOnce t t :=
  fun _ h => ⟨List.Subset.refl _, h⟩

theorem CountsOnce.trans (h : CountsOnce t t') (h' : CountsOnce t' t'') : CountsOnce t t'' := by
  intro twice hcounted
  obtain ⟨hsubset, hcounted'⟩ := h twice hcounted
  obtain ⟨hsubset', hcounted''⟩ := h' twice hcounted'
  exact ⟨List.Subset.trans hsubset hsubset', hcounted''⟩

/-- Nothing is recorded. -/
theorem CountsOnce.of_listened (hlistened : t'.listened = t.listened)
    (h : ∀ twice, t.Counted twice → t'.Counted twice) : CountsOnce t t' :=
  fun twice hcounted => ⟨hlistened ▸ List.Subset.refl _, h twice hcounted⟩

theorem CountsOnce.iff (h : CountsOnce t t') {once : Prop} (honce : once) : CountsOnceIff once t t' := by
  intro twice hcounted
  obtain ⟨hsubset, hcounted'⟩ := h twice hcounted
  exact ⟨hsubset, 0, ⟨fun _ => honce, fun _ => rfl⟩, hcounted'⟩

theorem CountsOnceIff.trans {once once' : Prop} (h : CountsOnceIff once t t')
    (h' : CountsOnceIff once' t' t'') : CountsOnceIff (once ∧ once') t t'' := by
  intro twice hcounted
  obtain ⟨hsubset, again, hagain, hcounted'⟩ := h twice hcounted
  obtain ⟨hsubset', again', hagain', hcounted''⟩ := h' _ hcounted'
  refine ⟨List.Subset.trans hsubset hsubset', again + again', ?_, Nat.add_assoc _ _ _ ▸ hcounted''⟩
  rw [Nat.add_eq_zero_iff, hagain, hagain']

theorem CountsOnceIff.congr {once once' : Prop} (h : CountsOnceIff once t t')
    (hiff : once ↔ once') : CountsOnceIff once' t t' := by
  intro twice hcounted
  obtain ⟨hsubset, again, hagain, hcounted'⟩ := h twice hcounted
  exact ⟨hsubset, again, hagain.trans hiff, hcounted'⟩

theorem CountsOnce.foldl {σ α : Type*} (table : σ → OrderTable) {step : σ → α → σ}
    (hstep : ∀ s a, CountsOnce (table s) (table (step s a))) (as : List α) (s : σ) :
    CountsOnce (table s) (table (as.foldl step s)) := by
  induction as generalizing s with
  | nil => exact .refl _
  | cons a rest ih => exact (hstep s a).trans (ih (step s a))

theorem countsOnce_update (t : OrderTable) (r : Ref)
    (hf : ∀ o, (f o).status = o.status) : CountsOnce t (t.update r f) :=
  .of_listened rfl fun _ h => h.update hf

theorem countsOnce_create (t : OrderTable) (o : Order) : CountsOnce t (t.create o) :=
  .of_listened rfl fun _ h => h.create o

theorem countsOnce_popPending (t : OrderTable) (book : PendingBook) (key : String) :
    CountsOnce t (t.popPending book key) := by
  refine .of_listened rfl fun _ h => h.of_objects rfl rfl rfl ?_
  intro book' k r hfind
  by_cases heq : book' = book
  · subst heq
    simp only [popPending, Function.update_self, Dict.find?_erase] at hfind
    split at hfind
    · cases hfind
    · exact hfind
  · simpa only [popPending, Function.update_of_ne heq] using hfind

theorem countsOnce_setStatus (hpending : (t.get r).status = .pending)
    (hstatus : status ≠ .pending) : CountsOnce t (t.setStatus r status) :=
  .of_listened rfl fun _ h => h.setStatus hpending hstatus

theorem countsOnce_cancel (hstatus : (t.get r).status = .pending ∨ (t.get r).status = .cancelled) :
    CountsOnce t (t.setStatus r .cancelled) := by
  rcases hstatus with hpending | hcancelled
  · exact countsOnce_setStatus hpending fun hc => nomatch hc
  · exact .of_listened rfl fun _ h => h.keepStatus hcancelled

/-- Resolving the group of an order cancels pending orders. -/
theorem countsOnce_resolveOco (t : OrderTable) (r : Ref) : CountsOnce t (t.resolveOco r) := by
  have hsibling : ∀ (acc : OrderTable × List Ref) (a : Ref),
      CountsOnce acc.1 (cancelSibling (t.get r).id acc a).1 := by
    intro acc a
    unfold cancelSibling
    split
    · rename_i hsibling
      exact countsOnce_setStatus hsibling.2 fun hc => nomatch hc
    · exact .refl _
  unfold resolveOco
  split
  · exact .refl _
  · split
    · exact .refl _
    · split
      · exact .refl _
      · rename_i group _ _
        apply (CountsOnce.foldl Prod.fst hsibling group.orders (t, [])).trans
        rw [foldl_popEverywhere]
        refine .of_listened rfl fun _ h => h.of_objects rfl rfl rfl ?_
        intro book k r' hfind
        rw [← Dict.mem_entries_iff, Dict.mem_eraseAll_entries, Dict.mem_entries_iff] at hfind
        exact hfind.2

/-- A new order is recorded with the final status that it gets. -/
theorem countsOnce_conclude (hlive : t.objects.Live r) (hnew : r ∉ t.listened) (status : OrderStatus)
    (reason : String) : CountsOnce t (t.conclude r status reason) := by
  intro twice h
  refine ⟨fun _ hr => List.mem_cons_of_mem _ hr, ?_⟩
  have hnoted := (h.setStatusNew hnew status).update (r := r)
    (f := fun o => { o with rejectionReason := some reason }) fun _ => rfl
  exact hnoted.record ((Heap.live_modify _ _ _ _).mpr ((Heap.live_modify _ _ _ _).mpr hlive)) hnew

theorem countsOnceIff_refuse (hr : r ∈ t.listened) (hpending : (t.get r).status = .pending)
    (reason : String) {once : Prop} (honce : ¬ once) :
    CountsOnceIff once t (t.conclude r .rejected reason) := by
  intro twice h
  refine ⟨fun _ hr => List.mem_cons_of_mem _ hr, 1, ?_, ?_⟩
  · exact iff_of_false Nat.one_ne_zero honce
  · have hset : (t.setStatus r .rejected).Counted twice :=
      h.setStatus hpending fun hc => nomatch hc
    have hnoted := hset.update (r := r) (f := fun o => { o with rejectionReason := some reason })
      fun _ => rfl
    exact hnoted.recordAgain hr (status_conclude (h.live r hr) .rejected reason)

/-- A new order is recorded as it enters a book. -/
theorem countsOnce_rest (hlive : t.objects.Live r) (hnew : r ∉ t.listened)
    (hpending : (t.get r).status = .pending) (book : PendingBook) : CountsOnce t (t.rest r book) := by
  intro twice h
  refine ⟨fun _ hr => List.mem_cons_of_mem _ hr, ?_⟩
  obtain ⟨hlive', hbooked, hsubmitted, hfinal⟩ := (h.keepStatus hpending).record
    ((Heap.live_modify _ _ _ _).mpr hlive) hnew
  refine ⟨hlive', ?_, hsubmitted, hfinal⟩
  intro book' k r' hfind
  change (Function.update t.pending book ((t.pending book).insert (t.get r).id r) book').find? k =
    some r' at hfind
  by_cases heq : book' = book
  · subst heq
    rw [Function.update_self, Dict.find?_insert] at hfind
    split at hfind
    · cases hfind
      exact List.mem_cons_self
    · exact hbooked book' k r' hfind
  · rw [Function.update_of_ne heq] at hfind
    exact hbooked book' k r' hfind

theorem countsOnce_fillNew (hlive : t.objects.Live r) (hnew : r ∉ t.listened)
    (hf : ∀ o, (f o).status = o.status) :
    CountsOnce t (((t.setStatus r .filled).update r f).record r) := by
  intro twice h
  refine ⟨fun _ hr => List.mem_cons_of_mem _ hr, ?_⟩
  exact ((h.setStatusNew hnew .filled).update hf).record
    ((Heap.live_modify _ _ _ _).mpr ((Heap.live_modify _ _ _ _).mpr hlive)) hnew

end OrderTable

end TradingSim.Exchange
