import TradingSim.Exchange.CallProgress
import TradingSim.Foundations.Run

/-!
# The calls on an exchange

The operations that the server's message loop and its ticks perform on an exchange, as one
step function. `SimulatedExchange.Sound` is the invariant of its runs: consistent orders, a
ledger that balances, and the evolution of every order since an earlier state.
-/

namespace TradingSim.Exchange

open Foundations

/-- A call on the exchange. -/
inductive Operation
  | submitOrder (req : OrderRequest)
  | checkAdvancedOrders
  | checkStopLossTakeProfit
  | cancelOrder (id : String)
  | cancelAllOrders (symbol : Option String)
  | chargeFunding (rate : ℚ)
  deriving DecidableEq

namespace SimulatedExchange

/-- The exchange after a call that sees a given market. -/
def step (N : Numerics) (x : SimulatedExchange) (call : MarketView × Operation) : SimulatedExchange :=
  match call.2 with
  | .submitOrder req => (x.submitOrder N call.1 req).1
  | .checkAdvancedOrders => (x.checkAdvancedOrders N call.1).1
  | .checkStopLossTakeProfit => (x.checkStopLossTakeProfit N call.1).1
  | .cancelOrder id => (x.cancelOrder id).1
  | .cancelAllOrders symbol => (x.cancelAllOrders symbol).1
  | .chargeFunding rate => x.chargeFunding call.1 rate

variable {N : Numerics} {m : MarketView} {strict : Prop} {start x : SimulatedExchange} {r : Ref}

/-! ### Cancels -/

theorem Progress.cancelEntry (h : Progress N strict False start noneStale x) {book : PendingBook}
    {k : String} (hfind : (x.orders.pending book).find? k = some r) :
    Progress N strict False start noneStale
      (x.withOrders ((x.orders.popPending book k).setStatus r .cancelled)) := by
  obtain ⟨hissued, hid, hrests, hstatus⟩ := h.orders.booked book k r hfind
  have hr : x.Resting book r := ⟨hissued, hstatus.mpr not_false, hrests⟩
  have hfrom : Progress N strict False start (staleIn book []) x :=
    h.stale_congr fun _ _ _ _ => by simp [staleIn]
  obtain ⟨hc, hvalid, -⟩ := hfrom.finishEntry hr (x.orders.setStatus r .cancelled)
    (f := fun o => { o with status := .cancelled }) rfl
    (OrderTable.evolves_of_pending hr.pending ⟨rfl, rfl, rfl, rfl, rfl, rfl, rfl⟩ (.refl _))
    (fun hc => by cases hc) rfl rfl rfl rfl
  rw [List.nil_append, hid] at hvalid
  obtain ⟨hc', hvalid'⟩ := hvalid.deleteIds
  exact h.carry hvalid' (hc.trans hc')

theorem Progress.cancelOrder (h : Progress N strict False start noneStale x) (id : String) :
    Progress N strict False start noneStale (x.cancelOrder id).1 := by
  obtain hnone | ⟨book, r, hfind, hcancel⟩ := x.cancelOrder_cases id
  · rw [hnone]
    exact h
  · rw [hcancel]
    exact h.cancelEntry hfind

theorem Progress.cancelEntries (book : PendingBook) (entries : List (String × Ref))
    (hnodup : (entries.map Prod.fst).Nodup) {t : OrderTable} {cancelled : List Ref}
    (h : Progress N strict False start noneStale (x.withOrders t))
    (hentries : ∀ e ∈ entries, (t.pending book).find? e.1 = some e.2) :
    Progress N strict False start noneStale (x.withOrders (entries.foldl (fun acc e =>
      ((acc.1.popPending book e.1).setStatus e.2 .cancelled, acc.2 ++ [e.2])) (t, cancelled)).1) := by
  induction entries generalizing t cancelled with
  | nil => exact h
  | cons e rest ih =>
    obtain ⟨habsent, hrest⟩ := List.nodup_cons.mp hnodup
    have hfind := hentries e List.mem_cons_self
    refine ih hrest (h.cancelEntry (x := x.withOrders t) hfind) ?_
    intro e' he'
    have hne : e'.1 ≠ e.1 := fun heq => habsent (heq ▸ List.mem_map_of_mem he')
    change (Function.update t.pending book ((t.pending book).erase e.1) book).find? e'.1 = some e'.2
    rw [Function.update_self, Dict.find?_erase_of_ne _ hne]
    exact hentries e' (List.mem_cons_of_mem e he')

theorem Progress.cancelAllOrders (h : Progress N strict False start noneStale x) (symbol : Option String) :
    Progress N strict False start noneStale (x.cancelAllOrders symbol).1 := by
  have hbook : ∀ (book : PendingBook) (acc : OrderTable × List Ref),
      Progress N strict False start noneStale (x.withOrders acc.1) →
      Progress N strict False start noneStale (x.withOrders (cancelBook symbol acc book).1) := by
    intro book acc hacc
    refine hacc.cancelEntries book _ ?_ ?_
    · exact (acc.1.pending book).nodup.sublist ((List.filter_sublist).map _)
    · intro e he
      exact (Dict.mem_entries_iff _ _ _).mp (List.mem_of_mem_filter he)
  have hfold : ∀ (books : List PendingBook) (acc : OrderTable × List Ref),
      Progress N strict False start noneStale (x.withOrders acc.1) →
      Progress N strict False start noneStale
        (x.withOrders (books.foldl (cancelBook symbol) acc).1) := by
    intro books
    induction books with
    | nil => exact fun _ hacc => hacc
    | cons book rest ih => exact fun acc hacc => ih _ (hbook book acc hacc)
  exact hfold PendingBook.all (x.orders, []) h

/-! ### Forced closes and funding -/

theorem Progress.foldl_markAndCheck {admits : Prop}
    (positions : List Ref) (acc : SimulatedExchange × List (Ref × CloseTrigger × ℚ))
    (h : Progress N strict admits start noneStale acc.1) : Progress N strict admits start noneStale
      (positions.foldl (SimulatedExchange.markAndCheck N m) acc).1 := by
  induction positions generalizing acc with
  | nil => exact h
  | cons r rest ih =>
    apply ih
    unfold SimulatedExchange.markAndCheck
    simp only
    split <;> exact h.move (.mark _ _ _) rfl

theorem Progress.labelClose (h : Progress N strict True start noneStale x)
    (hr : x.orders.Issued r) (reason : String) :
    Progress N strict True start noneStale (x.labelClose r reason) := by
  obtain ⟨hn, hvalid⟩ := h.orders.touch (f := fun o => { o with closeReason := reason }) hr.1
    ⟨rfl, rfl, rfl, rfl, rfl, rfl, rfl, .refl _, fun _ => ⟨rfl, rfl⟩⟩ rfl
  exact (h.carry hvalid (hn.carries rfl)).move
    (.relabel _ (x.orders.get r).id reason) rfl

theorem Progress.foldl_closeTriggeredPosition
    (triggers : List (Ref × CloseTrigger × ℚ)) (acc : SimulatedExchange × List Ref)
    (h : Progress N strict True start noneStale acc.1) : Progress N strict True start noneStale
      (triggers.foldl (SimulatedExchange.closeTriggeredPosition N m) acc).1 := by
  induction triggers generalizing acc with
  | nil => exact h
  | cons entry rest ih =>
    apply ih
    unfold SimulatedExchange.closeTriggeredPosition
    simp only
    generalize hreq : (OrderRequest.mk _ _ _ _ _ _ _ _ _ _ _ _ _ _ _ _ _ : OrderRequest) = req
    obtain ⟨hsubmitted, hreturned⟩ := h.submitOrder (m := m) req
    generalize acc.1.submitOrder N m req = submitted at hsubmitted hreturned ⊢
    have hcovered : Progress N strict True start noneStale
        (if entry.2.1 = .liquidation then
          { submitted.1 with ledger := submitted.1.ledger.handleInsuranceFundDeficit }
        else submitted.1) := by
      split
      · refine hsubmitted.move (.cover _) ?_
        unfold Ledger.handleInsuranceFundDeficit
        split <;> rfl
      · exact hsubmitted
    have horders : (if entry.2.1 = .liquidation then
          { submitted.1 with ledger := submitted.1.ledger.handleInsuranceFundDeficit }
        else submitted.1).orders = submitted.1.orders := by
      split <;> rfl
    generalize (if entry.2.1 = .liquidation then
          { submitted.1 with ledger := submitted.1.ledger.handleInsuranceFundDeficit }
        else submitted.1) = covered at hcovered horders ⊢
    cases hr : submitted.2 with
    | none => exact hcovered
    | some r =>
      have hissued := hreturned r hr
      rw [← horders] at hissued
      simp only
      split
      · exact hcovered.labelClose hissued _
      · exact hcovered

theorem Progress.checkStopLossTakeProfit (h : Progress N strict True start noneStale x) :
    Progress N strict True start noneStale (x.checkStopLossTakeProfit N m).1 :=
  .foldl_closeTriggeredPosition _ _ (.foldl_markAndCheck _ _ h)

theorem Progress.chargeFunding {admits : Prop} (h : Progress N strict admits start noneStale x)
    (rate : ℚ) : Progress N strict admits start noneStale (x.chargeFunding m rate) := by
  have hfold : ∀ (positions : List Ref) (l : Ledger),
      Progress N strict admits start noneStale { x with ledger := l } →
      Progress N strict admits start noneStale
        { x with ledger := positions.foldl (Ledger.fundPosition m rate) l } := by
    intro positions
    induction positions with
    | nil => exact fun _ hl => hl
    | cons r rest ih => exact fun l hl => ih _ (hl.move (.fund l _) rfl)
  exact hfold _ x.ledger h

/-- A call that submits nothing is a call. -/
theorem Progress.relax (h : Progress N strict False start noneStale x) :
    Progress N strict True start noneStale x :=
  ⟨h.orders, h.evolves, Or.inl trivial, h.ledger, h.exclusive⟩

/-- The condition under which a call keeps OCO groups exclusive. -/
def CompletesSlices (x : SimulatedExchange) (call : MarketView × Operation) : Prop :=
  call.2 = .checkAdvancedOrders → x.orders.SlicesComplete call.1

instance (x : SimulatedExchange) (call : MarketView × Operation) : Decidable (x.CompletesSlices call) :=
  inferInstanceAs (Decidable (_ → _))

theorem step_progress (strict : Prop) (call : MarketView × Operation) (hvalid : x.orders.Consistent)
    (hexclusive : strict → x.Exclusive) (hcomplete : strict → x.CompletesSlices call) :
    Progress N strict True x noneStale (x.step N call) := by
  obtain ⟨m, op⟩ := call
  cases op with
  | submitOrder req => exact ((Progress.refl hvalid hexclusive).submitOrder req).1
  | checkAdvancedOrders =>
    exact (Progress.checkAdvancedOrders hvalid hexclusive fun hstrict => hcomplete hstrict rfl).relax
  | checkStopLossTakeProfit => exact (Progress.refl hvalid hexclusive).checkStopLossTakeProfit
  | cancelOrder id => exact ((Progress.refl hvalid hexclusive).cancelOrder id).relax
  | cancelAllOrders symbol => exact ((Progress.refl hvalid hexclusive).cancelAllOrders symbol).relax
  | chargeFunding rate => exact (Progress.refl hvalid hexclusive).chargeFunding rate

/-- The orders are consistent and the books balance. -/
structure Sound (opening : ℚ) (x : SimulatedExchange) : Prop where
  orders : x.orders.Consistent
  ledger : x.ledger.Sound opening

theorem sound_init (exchangeId : String) (feePct slippageBps initialBalance leverage : ℚ)
    (currency : String) : (init exchangeId feePct slippageBps initialBalance leverage currency).Sound
      initialBalance where
  orders := by
    refine ⟨?_, ?_, ?_, ?_, ?_, ?_, ?_⟩
    · exact fun r _ hlive => absurd hlive (Nat.not_lt_zero r)
    · exact fun r _ hr => absurd hr.1 (Nat.not_lt_zero r)
    · exact fun _ hr => absurd hr List.not_mem_nil
    · exact fun _ _ _ hfind => by cases hfind
    · exact fun _ hr => absurd hr List.not_mem_nil
    · exact fun _ _ hfind => by cases hfind
    · exact fun r _ hr => absurd hr.1 (Nat.not_lt_zero r)
  ledger := Ledger.sound_new
    (init exchangeId feePct slippageBps initialBalance leverage currency).ledger.account
    ⟨rfl, rfl, rfl⟩

/-- A new exchange has executed nothing. -/
theorem exclusive_init (exchangeId : String) (feePct slippageBps initialBalance leverage : ℚ)
    (currency : String) :
    (init exchangeId feePct slippageBps initialBalance leverage currency).Exclusive where
  owned := fun _ hfill => absurd hfill List.not_mem_nil
  claimed := fun _ hfill => absurd hfill List.not_mem_nil
  closed := fun _ _ hwinner => by cases hwinner

theorem Sound.step {opening : ℚ} (h : x.Sound opening) (call : MarketView × Operation) :
    (x.step N call).Sound opening := by
  have hprogress := step_progress (N := N) False call h.orders False.elim False.elim
  exact ⟨hprogress.orders, h.ledger.chain hprogress.ledger⟩

theorem Sound.evolves {opening : ℚ} (h : x.Sound opening) (calls : List (MarketView × Operation)) :
    x.orders.Evolves (Foundations.run (SimulatedExchange.step N) x calls).orders :=
  run_related (fun y : SimulatedExchange => y.Sound opening) (fun y z => y.orders.Evolves z.orders)
    (fun _ => .refl _) (fun _ _ _ => .trans) (fun _ call hsound => hsound.step call)
    (fun _ call hsound =>
      (step_progress False call hsound.orders False.elim False.elim).evolves) calls h

theorem Sound.run {opening : ℚ} (h : x.Sound opening) (calls : List (MarketView × Operation)) :
    (Foundations.run (SimulatedExchange.step N) x calls).Sound opening :=
  run_invariant (fun _ call hsound => hsound.step call) calls h

end SimulatedExchange

end TradingSim.Exchange
