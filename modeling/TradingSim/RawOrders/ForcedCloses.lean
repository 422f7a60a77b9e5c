import TradingSim.RawOrders.SoundSubmissions

/-!
# Forced closes complete

The forced closes of a tick submit market orders of the exchange's own making. They are in no group and
bring no levels, so that nothing in submitting them raises, and the check of all positions completes
on a sound exchange.
-/

namespace TradingSim.RawOrders

open Foundations
open Exchange (CloseTrigger PendingBook Side orderId)
open Floats (isZero lit lt)
open Foundations.Action
open SimulatedExchange (Sound)

variable {F : Type} [Floats F] {rt : Runtime F} {m : MarketView F} {x : SimulatedExchange F}
  {req : OrderRequest F}

/-! ### Market orders in no group -/

/-- A market order for a named symbol, in no group and with no instructions. -/
structure OrderRequest.Plain (req : OrderRequest F) : Prop where
  symbol : ∃ s, req.symbol = .text s
  orderType : req.orderType = .market
  stopLoss : LevelFits req.stopLoss
  takeProfit : LevelFits req.takeProfit
  ocoGroupId : req.ocoGroupId = .null
  timeInForce : req.timeInForce = "GTC"
  postOnly : req.postOnly = false
  expireTs : req.expireTs = none

namespace OrderRequest.Plain

/-- A plain request names no group. -/
theorem grouped (h : req.Plain) : req.grouped = false := by
  rw [OrderRequest.grouped, h.ocoGroupId]
  rfl

/-- A plain request is for a symbol that can be looked up. -/
theorem getPrice (h : req.Plain) (m : MarketView F) :
    ∃ midPrice, m.getPrice req.symbol = .ok midPrice := by
  obtain ⟨s, hs⟩ := h.symbol
  exact ⟨m.price s, by rw [hs]; rfl⟩

/-- The checks of a plain request do not raise. -/
theorem screen (h : req.Plain) (id : String) : ∃ screened, req.screen id = .ok screened := by
  have hkind : req.createKind = .ok (some .plain) := by
    unfold createKind
    rw [h.orderType]
  unfold OrderRequest.screen
  rw [hkind]
  split
  · exact ⟨_, rfl⟩
  · split
    · exact ⟨_, rfl⟩
    · simp [bind, Except.bind, pure, Except.pure, h.timeInForce, h.orderType, h.postOnly, h.expireTs]

/-- Placing a plain request does not raise. -/
theorem placement (h : req.Plain) (m : MarketView F) (x : SimulatedExchange F) :
    ∃ p, x.placement m req = .ok p := by
  obtain ⟨midPrice, hprice⟩ := h.getPrice m
  unfold SimulatedExchange.placement
  rw [hprice]
  change ∃ p, (if isZero midPrice = true then _ else _) = _
  split
  · exact ⟨_, rfl⟩
  · rw [h.orderType]
    exact ⟨_, rfl⟩

/-- A plain request does not raise. -/
theorem not_raises (h : req.Plain) (rt : Runtime F) (m : MarketView F) (x : SimulatedExchange F) :
    ¬ req.Raises rt m x := by
  rintro (⟨e, he⟩ | ⟨hgrouped, -⟩ | ⟨e, he⟩)
  · obtain ⟨screened, hscreened⟩ := h.screen (orderId x.orderCounter)
    cases hscreened.symm.trans he
  · rw [h.grouped] at hgrouped
    cases hgrouped
  · obtain ⟨p, hp⟩ := h.placement m x
    cases hp.symm.trans he

/-- A plain request is harmless. -/
theorem harmless (h : req.Plain) (rt : Runtime F) (m : MarketView F) (x : SimulatedExchange F) :
    req.Harmless rt m x := by
  intro _
  obtain ⟨midPrice, hprice⟩ := h.getPrice m
  rw [hprice]
  refine fun _ => ⟨⟨?_, ?_, ?_, ?_, fun _ _ _ _ _ _ => ⟨h.stopLoss, h.takeProfit⟩⟩, ?_⟩
  · simp [h.orderType]
  · simp [h.orderType]
  · simp [h.orderType]
  · simp [h.orderType]
  · simp [h.grouped]

/-- Submitting a plain request completes. -/
theorem completes_submitOrder (h : req.Plain) :
    Completes (Sound rt []) (submitOrder rt m req) fun _ => Sound rt [] := by
  apply triple_of_forall_eq
  intro x hx
  apply (triple_submitOrder hx (h.harmless rt m x)).imp
  · exact fun _ hs => hs
  · exact fun _ _ hs => hs
  · exact fun _ _ hraised => h.not_raises rt m x hraised.2.2

end OrderRequest.Plain

/-! ### The check of the positions -/

/-- A position to close names its symbol. -/
def Closing.Named (closing : Closing F) : Prop := ∃ s, closing.1.symbol = .text s

/-- Marking a position keeps its values fit. -/
theorem Position.Fits.updatePnl {position : Position F} (h : position.Fits)
    (currentPrice : F) : (position.updatePnl currentPrice).Fits := by
  unfold Position.updatePnl
  split
  · exact ⟨h.symbol, h.quantity, h.stopLoss, h.takeProfit⟩
  · exact ⟨h.symbol, h.quantity, h.stopLoss, h.takeProfit⟩

/-- The levels of a position that fits compare with any price. -/
theorem checkSlTp_eq_ok {position : Position F} (h : position.Fits) (currentPrice : F) :
    ∃ trigger, checkSlTp position currentPrice = .ok trigger := by
  obtain ⟨stopLoss, hstop⟩ := h.stopLoss.exists
  obtain ⟨takeProfit, htake⟩ := h.takeProfit.exists
  unfold checkSlTp
  rw [hstop]
  simp only [htake, bind, Except.bind, pure, Except.pure]
  cases position.side <;> dsimp only <;> split
  · exact ⟨_, rfl⟩
  · split <;> exact ⟨_, rfl⟩
  · exact ⟨_, rfl⟩
  · split <;> exact ⟨_, rfl⟩

/-- A position that fits has its triggers checked. -/
theorem checkPositionTriggers_eq_ok {position : Position F} (h : position.Fits)
    (x : SimulatedExchange F) (currentPrice : F) :
    ∃ trigger, checkPositionTriggers x position currentPrice = .ok trigger := by
  unfold checkPositionTriggers
  dsimp only
  split
  · exact ⟨_, rfl⟩
  · split
    · exact ⟨_, rfl⟩
    · exact checkSlTp_eq_ok h currentPrice

/-- What the first loop keeps. -/
def Marked (rt : Runtime F) (acc : List (Closing F)) (x : SimulatedExchange F) : Prop :=
  x.Sound rt [] ∧ ∀ closing ∈ acc, closing.Named

/-- Marking and checking one position completes. -/
theorem completes_markAndCheck {entry : String × Position F} (hentry : entry.2.Fits)
    (acc : List (Closing F)) :
    Completes (Marked rt acc) (markAndCheck m acc entry) fun acc => Marked rt acc := by
  obtain ⟨s, hs⟩ := hentry.symbol
  have hprice : m.getPrice entry.2.symbol = .ok (m.price s) := by
    rw [hs]
    rfl
  have hmarked := hentry.updatePnl (m.price s)
  unfold markAndCheck
  rw [lift_bind_of_ok hprice]
  apply triple_modify_bind (Marked rt acc)
  · exact fun x hx => ⟨hx.1.putPosition hmarked _, hx.2⟩
  · apply triple_get_bind
    intro x _
    obtain ⟨trigger, htrigger⟩ := checkPositionTriggers_eq_ok hmarked x (m.price s)
    rw [lift_bind_of_ok htrigger]
    cases trigger with
    | none => exact triple_pure fun _ h => h
    | some trigger =>
      apply triple_pure
      intro y hy
      refine ⟨hy.1, fun closing hclosing => ?_⟩
      rcases List.mem_append.mp hclosing with hold | hnew
      · exact hy.2 closing hold
      · obtain rfl := List.mem_singleton.mp hnew
        exact hmarked.symbol

/-- A forced close completes. -/
theorem completes_closeTriggeredPosition {closing : Closing F} (hclosing : closing.Named)
    (acc : List Ref) :
    Completes (Sound rt []) (closeTriggeredPosition rt m acc closing) fun _ => Sound rt [] := by
  have hplain : ({
      symbol := closing.1.symbol
      side := if closing.1.side = .buy then .sell else .buy
      quantity := closing.2.2
      forceClose := true } : OrderRequest F).Plain :=
    ⟨hclosing, rfl, Or.inl rfl, Or.inl rfl, rfl, rfl, rfl, rfl⟩
  apply triple_bind hplain.completes_submitOrder
  intro r
  apply triple_bind (M := fun _ => Sound rt [])
  · apply triple_when
    · intro _
      apply triple_modify
      intro x hx
      unfold SimulatedExchange.handleInsuranceFundDeficit
      split
      · exact hx.congr rfl rfl rfl
      · exact hx
    · exact fun _ _ h => h
  · exact fun _ => triple_pure fun _ h => h

/-- The first check of a tick completes. -/
theorem completes_checkStopLossTakeProfit :
    Completes (Sound rt []) (checkStopLossTakeProfit rt m) fun _ => Sound rt [] := by
  apply triple_get_bind_eq
  intro x hx
  apply triple_bind (M := fun acc => Marked rt acc)
  · apply (triple_foldlM (I := fun acc => Marked rt acc) (R := fun _ _ => False)
      x.positions.entries [] fun acc entry hentry => completes_markAndCheck ?_ acc).imp
    · rintro z rfl
      exact ⟨hx, fun _ hnone => absurd hnone List.not_mem_nil⟩
    · exact fun _ _ h => h
    · exact fun _ _ h => h
    · exact hx.positions entry.1 entry.2 ((Dict.mem_entries_iff _ _ _).mp hentry)
  · intro positionsToClose
    apply triple_of_forall_eq
    intro y hy
    apply (triple_foldlM (I := fun _ => Sound rt []) (R := fun _ _ => False) positionsToClose []
      fun acc closing hclosing => completes_closeTriggeredPosition (hy.2 closing hclosing) acc).imp
    · rintro z rfl
      exact hy.1
    · exact fun _ _ h => h
    · exact fun _ _ h => h

/-! ### Cancels -/

/-- A cancel keeps an exchange sound. -/
theorem SimulatedExchange.Sound.cancelOrder (h : x.Sound rt []) (id : String) :
    (x.cancelOrder id).Sound rt [] := by
  unfold SimulatedExchange.cancelOrder
  split
  · exact h
  · exact (h.popPending _ id).setStatus _ .cancelled

/-- Cancelling all orders keeps an exchange sound. -/
theorem SimulatedExchange.Sound.cancelAllOrders (h : x.Sound rt []) (cancels : Order F → Bool) :
    (x.cancelAllOrders cancels).Sound rt [] := by
  have hcancel : ∀ (book : PendingBook) (entries : List (String × Ref)) (x : SimulatedExchange F),
      x.Sound rt [] → (entries.foldl
        (fun x entry => (x.popPending book entry.1).setStatus entry.2 .cancelled) x).Sound rt [] := by
    intro book entries
    induction entries with
    | nil => exact fun _ hx => hx
    | cons entry rest ih =>
      exact fun x hx => ih _ ((hx.popPending book entry.1).setStatus entry.2 .cancelled)
  have hbooks : ∀ (books : List PendingBook) (x : SimulatedExchange F), x.Sound rt [] →
      (books.foldl (fun x book =>
        ((x.pending book).entries.filter fun entry => cancels (x.orders.get entry.2)).foldl
          (fun x entry => (x.popPending book entry.1).setStatus entry.2 .cancelled) x) x).Sound rt [] := by
    intro books
    induction books with
    | nil => exact fun _ hx => hx
    | cons book rest ih => exact fun x hx => ih _ (hcancel book _ x hx)
  exact hbooks _ x h

end TradingSim.RawOrders
