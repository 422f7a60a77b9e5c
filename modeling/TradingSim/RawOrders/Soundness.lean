import TradingSim.RawOrders.Sweeps

/-!
# Exchanges on which no tick raises

What a tick reads of a resting order and of a position decides whether it raises: the values that it
compares must be numbers, those that it multiplies must fit into a float, and what it divides by is
a quantity, which must be positive. An exchange is sound if this holds of whatever is in the books
and of all positions.
-/

namespace TradingSim.RawOrders

open Foundations
open Exchange (OrderStatus PendingBook)
open Floats (Positive divide divide_of_positive lit lt)
open Foundations.Action

variable {F : Type} [Floats F]

/-- What a group of an order is called can be looked up. -/
def Value.NamesGroup (rt : Runtime F) (ocoGroupId : Value F) : Prop :=
  ocoGroupId.truthy = true → ∃ key, ocoGroupId.key rt = .ok key

/-- The values of an order that the sweep of a book reads. -/
def Order.Readable (book : PendingBook) (o : Order F) : Prop :=
  match book, o.kind with
  | .limits, _ => o.price.IsFactor
  | .stopLimits, .stopLimit stopPrice limitPrice _ => stopPrice.IsNumber ∧ limitPrice.IsFactor
  | .trailingStops, .trailingStop fields => fields.trailAmount.IsFactor
  | .icebergs, .iceberg fields => (o.price.isNull = true ∨ o.price.IsFactor) ∧
      (Positive fields.hiddenQuantity → Positive fields.visibleQuantity)
  | _, _ => False

variable {o : Order F}

/-- An order that does not rest as a limit order fits one book. -/
theorem Order.book_eq_of_readable {book book' : PendingBook} (h : o.Readable book)
    (h' : o.Readable book') (hbook : book ≠ .limits) (hbook' : book' ≠ .limits) : book = book' := by
  unfold Order.Readable at h h'
  cases hkind : o.kind <;> rw [hkind] at h h' <;> cases book <;> cases book' <;>
    first
    | rfl
    | exact absurd rfl hbook
    | exact absurd rfl hbook'
    | exact h.elim
    | exact h'.elim

/-- What a sweep reads of a stop-limit order. -/
theorem Order.Readable.stopLimit (h : o.Readable .stopLimits) :
    ∃ stopPrice limitPrice triggered, o.kind = .stopLimit stopPrice limitPrice triggered ∧
      stopPrice.IsNumber ∧ limitPrice.IsFactor := by
  unfold Order.Readable at h
  cases hkind : o.kind <;> rw [hkind] at h
  · exact h.elim
  · exact ⟨_, _, _, rfl, h⟩
  · exact h.elim
  · exact h.elim

/-- What a sweep reads of a trailing stop. -/
theorem Order.Readable.trailingStop (h : o.Readable .trailingStops) :
    ∃ fields, o.kind = .trailingStop fields ∧ fields.trailAmount.IsFactor := by
  unfold Order.Readable at h
  cases hkind : o.kind <;> rw [hkind] at h
  · exact h.elim
  · exact h.elim
  · exact ⟨_, rfl, h⟩
  · exact h.elim

/-- What a sweep reads of an iceberg. -/
theorem Order.Readable.iceberg (h : o.Readable .icebergs) :
    ∃ fields, o.kind = .iceberg fields ∧ (o.price.isNull = true ∨ o.price.IsFactor) ∧
      (Positive fields.hiddenQuantity → Positive fields.visibleQuantity) := by
  unfold Order.Readable at h
  cases hkind : o.kind <;> rw [hkind] at h
  · exact h.elim
  · exact h.elim
  · exact h.elim
  · exact ⟨_, rfl, h⟩

theorem Iceberg.visibleQuantity_onFill (fields : Iceberg F) (fillQuantity : F) :
    (fields.onFill fillQuantity).visibleQuantity = fields.visibleQuantity := by
  unfold Iceberg.onFill
  dsimp only
  split <;> rfl

/-- The sweep of a book does not raise on an order. -/
structure Order.Fits (book : PendingBook) (o : Order F) : Prop where
  symbol : ∃ s, o.symbol = .text s
  quantity : Positive o.quantity
  readable : o.Readable book

/-- The check of a position does not raise. -/
structure Position.Fits (position : Position F) : Prop where
  symbol : ∃ s, position.symbol = .text s
  quantity : Positive position.quantity
  stopLoss : position.stopLoss.IsNumber
  takeProfit : position.takeProfit.IsNumber

namespace SimulatedExchange

/-- An order object that fits into a book. -/
def Rests (book : PendingBook) (r : Ref) (x : SimulatedExchange F) : Prop :=
  x.orders.Live r ∧ (x.orders.get r).Fits book

/-- All orders in the books, and the others in hand, fit, and so do the positions. What an order calls
its group was looked up once. -/
structure Sound (rt : Runtime F) (inHand : List (PendingBook × Ref)) (x : SimulatedExchange F) :
    Prop where
  booked : ∀ book k r, (x.pending book).find? k = some r → x.Rests book r
  inHand : ∀ e ∈ inHand, x.Rests e.1 e.2
  positions : ∀ k position, x.positions.find? k = some position → position.Fits
  grouped : ∀ r, (x.orders.get r).ocoGroupId.NamesGroup rt

variable {rt : Runtime F} {inHand : List (PendingBook × Ref)} {x x' : SimulatedExchange F} {r : Ref}
  {book : PendingBook}

namespace Sound

/-- Money does not matter. -/
theorem congr (h : x.Sound rt inHand) (hpending : x'.pending = x.pending)
    (horders : x'.orders = x.orders) (hpositions : x'.positions = x.positions) : x'.Sound rt inHand where
  booked := by
    unfold Rests
    rw [hpending, horders]
    exact h.booked
  inHand := by
    unfold Rests
    rw [horders]
    exact h.inHand
  positions := hpositions ▸ h.positions
  grouped := horders ▸ h.grouped

/-- Whatever fitted still fits after such a change of the orders. -/
theorem withOrders (h : x.Sound rt inHand) (hpositions : x'.positions = x.positions)
    (hrests : ∀ book r, x.Rests book r → x'.Rests book r)
    (hbooked : ∀ book k r, (x'.pending book).find? k = some r →
      (x.pending book).find? k = some r ∨ x'.Rests book r)
    (hgrouped : ∀ r, (x'.orders.get r).ocoGroupId.NamesGroup rt) : x'.Sound rt inHand where
  booked book k r hfind := (hbooked book k r hfind).elim
    (fun hold => hrests book r (h.booked book k r hold)) id
  inHand e he := hrests e.1 e.2 (h.inHand e he)
  positions := hpositions ▸ h.positions
  grouped := hgrouped

/-- Writing fields of an order that no book's check reads, or the like of what it reads. -/
theorem updateOrder (h : x.Sound rt inHand) (r : Ref) {f : Order F → Order F}
    (hgroup : (x.orders.get r).ocoGroupId.NamesGroup rt → (f (x.orders.get r)).ocoGroupId.NamesGroup rt)
    (hf : ∀ book, x.Rests book r → (f (x.orders.get r)).Fits book) :
    (x.updateOrder r f).Sound rt inHand := by
  by_cases hlive : x.orders.Live r
  · have hget : ∀ r', (x.updateOrder r f).orders.get r' =
        if r' = r then f (x.orders.get r') else x.orders.get r' :=
      fun r' => Heap.get_modify _ hlive r' f
    refine h.withOrders rfl (fun book r' hr' => ?_) (fun _ _ _ hfind => Or.inl hfind) fun r' => ?_
    · refine ⟨(Heap.live_modify _ _ _ _).mpr hr'.1, ?_⟩
      rw [hget]
      split
      · rename_i heq
        subst heq
        exact hf book hr'
      · exact hr'.2
    · rw [hget]
      split
      · rename_i heq
        subst heq
        exact hgroup (h.grouped _)
      · exact h.grouped r'
  · rw [SimulatedExchange.updateOrder, Heap.modify_of_not_live _ hlive]
    exact h

/-- Writing the class of an order in hand. -/
theorem setKind (h : x.Sound rt inHand) (hr : (book, r) ∈ inHand) (hbook : book ≠ .limits)
    {kind : OrderKind F} (hkind : ∀ o : Order F, o.Readable book →
      ({ o with kind := kind } : Order F).Readable book) :
    (x.updateOrder r fun o => { o with kind := kind }).Sound rt inHand := by
  refine h.updateOrder r id fun book' hr' => ⟨hr'.2.symbol, hr'.2.quantity, ?_⟩
  by_cases hlimits : book' = .limits
  · subst hlimits
    exact hr'.2.readable
  · have hown := (h.inHand _ hr).2.readable
    rw [Order.book_eq_of_readable hr'.2.readable hown hlimits hbook]
    exact hkind _ hown

/-- A new status keeps an exchange sound. -/
theorem setStatus (h : x.Sound rt inHand) (r : Ref) (status : OrderStatus) :
    (x.setStatus r status).Sound rt inHand :=
  h.updateOrder r id fun _ hr => ⟨hr.2.symbol, hr.2.quantity, hr.2.readable⟩

/-- A new order object keeps an exchange sound. -/
theorem create (h : x.Sound rt inHand) {o : Order F} (ho : o.ocoGroupId.NamesGroup rt) :
    ({ x with orders := x.orders.alloc o } : SimulatedExchange F).Sound rt inHand := by
  refine h.withOrders rfl (fun book r hr => ?_) (fun _ _ _ hfind => Or.inl hfind) fun r => ?_
  · refine ⟨(Heap.live_alloc _ _ _).mpr (Or.inl hr.1), ?_⟩
    rw [Heap.get_alloc_of_live _ _ hr.1]
    exact hr.2
  · by_cases hlive : x.orders.Live r
    · rw [Heap.get_alloc_of_live _ _ hlive]
      exact h.grouped r
    · by_cases heq : r = x.orders.next
      · rw [heq, Heap.get_alloc_next]
        exact ho
      · have hdead : ¬ (x.orders.alloc o).Live r := by
          rw [Heap.live_alloc]
          exact not_or.mpr ⟨hlive, heq⟩
        rw [Heap.get_of_not_live _ hdead]
        exact fun hnull => by cases hnull

/-- Deleting an entry keeps an exchange sound. -/
theorem popPending (h : x.Sound rt inHand) (book : PendingBook) (key : String) :
    (x.popPending book key).Sound rt inHand := by
  refine h.withOrders rfl (fun _ _ hr => hr) (fun book' k r hfind => Or.inl ?_) h.grouped
  change (Function.update x.pending book _ book').find? k = some r at hfind
  by_cases heq : book' = book
  · subst heq
    rw [Function.update_self, Dict.find?_erase] at hfind
    split at hfind
    · cases hfind
    · exact hfind
  · rwa [Function.update_of_ne heq] at hfind

/-- An order may rest in a book that it fits. -/
theorem addPending (h : x.Sound rt inHand) (hr : x.Rests book r) (key : String) :
    (x.addPending book key r).Sound rt inHand := by
  refine h.withOrders rfl (fun _ _ hr => hr) (fun book' k r' hfind => ?_) h.grouped
  change (Function.update x.pending book _ book').find? k = some r' at hfind
  by_cases heq : book' = book
  · subst heq
    rw [Function.update_self, Dict.find?_insert] at hfind
    split at hfind
    · cases hfind
      exact Or.inr hr
    · exact Or.inl hfind
  · rw [Function.update_of_ne heq] at hfind
    exact Or.inl hfind

/-- Removing a list of ids from a book. -/
theorem foldl_popPending (h : x.Sound rt inHand) (book : PendingBook) (ids : List String) :
    (ids.foldl (fun x id => x.popPending book id) x).Sound rt inHand := by
  induction ids generalizing x with
  | nil => exact h
  | cons id rest ih => exact ih (h.popPending book id)

/-- A fill of a group keeps an exchange sound. -/
theorem onFill (h : x.Sound rt inHand) (key : String) (group : OCOGroup) (filledOrderId : String) :
    (x.onFill key group filledOrderId).Sound rt inHand := by
  have hpop : ∀ (books : List PendingBook) (id : String) (x : SimulatedExchange F),
      x.Sound rt inHand →
      (books.foldl (fun x book => x.popPending book id) x).Sound rt inHand := by
    intro books id
    induction books with
    | nil => exact fun _ hx => hx
    | cons book rest ih => exact fun x hx => ih _ (hx.popPending book id)
  have hswept : ∀ (rs : List Ref) (acc : SimulatedExchange F × List String),
      acc.1.Sound rt inHand → (rs.foldl (cancelSibling filledOrderId) acc).1.Sound rt inHand := by
    intro rs
    induction rs with
    | nil => exact fun _ hacc => hacc
    | cons r rest ih =>
      intro acc hacc
      refine ih _ ?_
      unfold cancelSibling
      split
      · exact hpop _ _ _ (hacc.setStatus r .cancelled)
      · exact hacc
  exact (hswept group.orders (x, []) h).congr rfl rfl rfl

/-- A position that fits may be stored. -/
theorem putPosition (h : x.Sound rt inHand) {position : Position F} (hfits : position.Fits)
    (key : String) : ({ x with positions := x.positions.insert key position } :
      SimulatedExchange F).Sound rt inHand where
  booked := h.booked
  inHand := h.inHand
  grouped := h.grouped
  positions k p hfind := by
    rw [Dict.find?_insert] at hfind
    split at hfind
    · cases hfind
      exact hfits
    · exact h.positions k p hfind

/-- A position may be taken out. -/
theorem erasePosition (h : x.Sound rt inHand) (key : String) :
    ({ x with positions := x.positions.erase key } : SimulatedExchange F).Sound rt inHand where
  booked := h.booked
  inHand := h.inHand
  grouped := h.grouped
  positions k p hfind := by
    rw [Dict.find?_erase] at hfind
    split at hfind
    · cases hfind
    · exact h.positions k p hfind

end Sound

end SimulatedExchange

open SimulatedExchange (Sound)

variable {rt : Runtime F} {inHand : List (PendingBook × Ref)} {r : Ref} {book : PendingBook}
  {α : Type} {P : SimulatedExchange F → Prop} {Q : α → SimulatedExchange F → Prop}
  {R : PyException → SimulatedExchange F → Prop}

/-! ### Effects -/

theorem triple_readOrder_bind {f : Order F → Call F α}
    (h : ∀ x, P x → Triple P (f (x.orders.get r)) Q R) : Triple P (readOrder r >>= f) Q R :=
  fun s hs => h s hs s hs

omit [Floats F] in
theorem triple_create_bind (P' : Ref → SimulatedExchange F → Prop) {f : Ref → Call F α}
    (ho : ∀ x, P x → P' x.orders.next { x with orders := x.orders.alloc o })
    (hf : ∀ r, Triple (P' r) (f r) Q R) : Triple P (create o >>= f) Q R :=
  fun s hs => hf s.orders.next _ (ho s hs)

/-- Charging a fee completes. -/
theorem completes_chargeFee (fee : F)
    (hP : ∀ x balance totalFees, P x → P { x with balance := balance, totalFees := totalFees }) :
    Completes P (chargeFee fee) fun _ => P :=
  triple_modify fun x h => hP x _ _ h

/-- Locking a margin completes. -/
theorem completes_lockMargin (notional : F) (hP : ∀ x balance, P x → P { x with balance := balance }) :
    Completes P (lockMargin notional) fun _ => P :=
  triple_get_bind fun _ _ => triple_modify_bind P (fun x h => hP x _ h) (triple_pure fun _ h => h)

/-- Storing a position that fits completes. -/
theorem completes_putPosition {position : Position F} (hfits : position.Fits) (key : String) :
    Completes (Sound rt inHand) (putPosition key position) fun _ => Sound rt inHand :=
  triple_modify fun _ h => h.putPosition hfits key

/-- What booking an order needs to know of it. -/
structure Order.Executed (o : Order F) : Prop where
  symbol : ∃ s, o.symbol = .text s
  filled : Positive o.filledQuantity

omit [Floats F] in
theorem isNumber_level {v : Value F} (h : v.isNull = true ∨ v.IsNumber) (default : F) :
    (if v.isNull then Value.float default else v).IsNumber := by
  split
  · rfl
  · rename_i hgiven
    exact h.resolve_left hgiven

variable {order : Order F}

/-- Opening a position with fit levels completes. -/
theorem completes_openNewPosition (horder : order.Executed)
    {stopLoss takeProfit : Value F} (hstop : stopLoss.isNull = true ∨ stopLoss.IsNumber)
    (htake : takeProfit.isNull = true ∨ takeProfit.IsNumber) (key : String) (margin : F) :
    Completes (Sound rt inHand) (openNewPosition key order stopLoss takeProfit margin)
      fun _ => Sound rt inHand :=
  completes_putPosition ⟨horder.symbol, horder.filled, isNumber_level hstop _,
    isNumber_level htake _⟩ key

theorem completes_closePosition {existing : Position F} (hexisting : existing.Fits)
    (horder : order.Executed) (key : String) (orderMargin : F) :
    Completes (Sound rt inHand) (closePosition key existing order orderMargin)
      fun _ => Sound rt inHand := by
  have hclose : Positive (Floats.min order.filledQuantity existing.quantity) :=
    horder.filled.min hexisting.quantity
  unfold closePosition
  rw [lift_bind_of_ok (divide_of_positive _ hexisting.quantity),
    lift_bind_of_ok (divide_of_positive _ horder.filled)]
  refine triple_modify_bind _ (fun _ h => h.congr rfl rfl rfl) (triple_ite (fun _ => ?_) fun hpart => ?_)
  · refine triple_modify_bind _ (fun _ h => h.erasePosition key) (triple_when (fun hresidual => ?_)
      fun _ _ h => h)
    have hpositive : Positive (order.filledQuantity -
        Floats.min order.filledQuantity existing.quantity) :=
      Floats.lt_trans _ _ _ (Floats.lit_pos _ le_rfl) hresidual
    refine completes_putPosition ?_ key
    exact ⟨horder.symbol, hpositive, rfl, rfl⟩
  · have hless : lt (Floats.min order.filledQuantity existing.quantity) existing.quantity = true :=
      Floats.lt_of_not_le _ _ hexisting.quantity.le_self hclose.le_self (Bool.not_eq_true _ ▸ hpart)
    refine completes_putPosition ?_ key
    exact ⟨hexisting.symbol, Floats.sub_pos _ _ hless, hexisting.stopLoss, hexisting.takeProfit⟩

/-- Booking an order, if the levels that a new position takes over are numbers. -/
theorem completes_updatePosition (horder : order.Executed)
    {stopLoss takeProfit : Value F} (hP : ∀ x, P x → Sound rt inHand x)
    (hlevels : ∀ x, P x → ∀ key, order.symbol.key rt = .ok key → x.positions.find? key = none →
      (stopLoss.isNull = true ∨ stopLoss.IsNumber) ∧
        (takeProfit.isNull = true ∨ takeProfit.IsNumber)) (orderMargin : F) :
    Completes P (updatePosition rt order stopLoss takeProfit orderMargin) fun _ => Sound rt inHand := by
  obtain ⟨s, hs⟩ := horder.symbol
  have hkey : order.symbol.key rt = .ok ("s" ++ s) := by rw [hs, Value.key]
  unfold updatePosition
  rw [lift_bind_of_ok hkey]
  refine triple_get_bind fun x hx => ?_
  split
  · rename_i hnone
    obtain ⟨hstop, htake⟩ := hlevels x hx _ hkey hnone
    exact (completes_openNewPosition horder hstop htake _ _).imp hP fun _ _ h => h
  · rename_i existing hfind
    have hexisting := (hP x hx).positions _ _ hfind
    refine triple_ite (fun _ => (completes_closePosition hexisting horder _ _).imp hP
      fun _ _ h => h) fun _ => ?_
    have htotal := Floats.add_pos _ _ hexisting.quantity horder.filled
    rw [lift_bind_of_ok (divide_of_positive _ htotal)]
    refine (completes_putPosition ?_ _).imp hP fun _ _ h => h
    exact ⟨hexisting.symbol, htotal, hexisting.stopLoss, hexisting.takeProfit⟩

/-- Booking an order that brings no levels. -/
theorem completes_updatePosition_null (horder : order.Executed) (orderMargin : F) :
    Completes (Sound rt inHand) (updatePosition rt order .null .null orderMargin)
      fun _ => Sound rt inHand :=
  completes_updatePosition horder (fun _ h => h) (fun _ _ _ _ _ => ⟨Or.inl rfl, Or.inl rfl⟩) _

theorem completes_resolveOco (r : Ref) :
    Completes (Sound rt inHand) (resolveOco rt r) fun _ => Sound rt inHand := by
  refine triple_readOrder_bind fun x hx => triple_ite (fun hnamed => ?_) fun _ =>
    triple_pure fun _ h => h
  obtain ⟨key, hkey⟩ := hx.grouped r hnamed
  rw [lift_bind_of_ok hkey]
  refine triple_modify fun x' hx' => ?_
  split
  · exact hx'
  · split
    · exact hx'
    · exact hx'.onFill _ _ _

/-! ### Executing resting orders -/

/-- Filling an order in hand keeps an exchange sound. -/
theorem SimulatedExchange.Sound.fill {x : SimulatedExchange F} (h : x.Sound rt inHand)
    (hr : (book, r) ∈ inHand) {f : Order F → Order F}
    (hgroup : ∀ o, (f o).ocoGroupId = o.ocoGroupId) (hf : ∀ o book, o.Fits book → (f o).Fits book)
    (hquantity : ∀ o, (f o).filledQuantity = o.quantity) : (x.updateOrder r f).Sound rt inHand ∧
      Positive ((x.updateOrder r f).orders.get r).filledQuantity := by
  obtain ⟨hlive, hfits⟩ := h.inHand _ hr
  refine ⟨h.updateOrder r (fun hnamed => by rwa [hgroup]) fun book hr => hf _ book hr.2, ?_⟩
  change Positive ((x.orders.modify r f).get r).filledQuantity
  rw [Heap.get_modify_self _ hlive, hquantity]
  exact hfits.quantity

/-- The end of an execution completes. -/
theorem completes_finalizeOrderExecution (hr : (book, r) ∈ inHand) (fillPrice : F) :
    Completes (fun x => Sound rt inHand x ∧ Positive (x.orders.get r).filledQuantity)
      (finalizeOrderExecution rt r fillPrice) fun _ => Sound rt inHand := by
  refine triple_readOrder_bind fun x hx => ?_
  have hexecuted : (x.orders.get r).Executed := ⟨(hx.1.inHand _ hr).2.symbol, hx.2⟩
  refine triple_bind ((completes_chargeFee _ fun _ _ _ h => h.congr rfl rfl rfl).imp
    (fun _ h => h.1) fun _ _ h => h) fun _ =>
    triple_bind (completes_lockMargin _ fun _ _ h => h.congr rfl rfl rfl) fun margin =>
      triple_bind (completes_updatePosition_null hexecuted margin) fun _ => completes_resolveOco r

/-- Executing a limit order at a float completes. -/
theorem completes_executeLimitOrder (hr : (book, r) ∈ inHand) {price : Number F} {fillPrice : F}
    (hprice : price.toFloat = .ok fillPrice) :
    Completes (Sound rt inHand) (executeLimitOrder rt r price) fun _ => Sound rt inHand := by
  unfold executeLimitOrder
  rw [lift_bind_of_ok hprice]
  refine triple_get_bind fun x _ => triple_readOrder_bind fun _ _ => triple_ite
    (fun _ => triple_modify fun _ h => h.setStatus r .rejected) fun _ =>
      triple_modify_bind _ (fun _ h => h.fill hr ?_ ?_ ?_)
        (completes_finalizeOrderExecution hr fillPrice)
  · exact fun _ => rfl
  · exact fun _ _ h => ⟨h.symbol, h.quantity, h.readable⟩
  · exact fun _ => rfl

/-- Executing an order at the market completes. -/
theorem completes_executeMarketOrder (hr : (book, r) ∈ inHand) (price : F) :
    Completes (Sound rt inHand) (executeMarketOrder rt r price) fun _ => Sound rt inHand := by
  refine triple_get_bind fun x _ => triple_readOrder_bind fun _ _ => triple_ite
    (fun _ => triple_modify fun _ h => h.setStatus r .rejected) fun _ =>
      triple_modify_bind _ (fun _ h => h.fill hr ?_ ?_ ?_)
        (completes_finalizeOrderExecution hr _)
  · exact fun _ => rfl
  · exact fun _ _ h => ⟨h.symbol, h.quantity, h.readable⟩
  · exact fun _ => rfl

/-- A slice of an iceberg has been created. -/
structure SliceCreated (rt : Runtime F) (inHand : List (PendingBook × Ref)) (s : String) (slice : Ref)
    (x : SimulatedExchange F) : Prop where
  sound : Sound rt inHand x
  live : x.orders.Live slice
  symbol : (x.orders.get slice).symbol = .text s

/-- Executing a slice with a positive quantity completes. -/
theorem completes_executeIcebergSlice (hr : (.icebergs, r) ∈ inHand) {fields : Iceberg F}
    (hhidden : Positive fields.hiddenQuantity) (hvisible : Positive fields.visibleQuantity)
    {price : Number F} {fillPrice : F} (hprice : price.toFloat = .ok fillPrice) :
    Completes (Sound rt inHand) (executeIcebergSlice rt r fields price) fun _ => Sound rt inHand := by
  refine triple_get_bind fun x _ => triple_readOrder_bind fun parent hparent => ?_
  obtain ⟨s, hs⟩ := (hparent.inHand _ hr).2.symbol
  rw [lift_bind_of_ok hprice]
  refine triple_create_bind (SliceCreated rt inHand s) (fun x h => ⟨h.create (fun hnull => by cases hnull), ?_, ?_⟩)
    fun slice => ?_
  · exact (Heap.live_alloc _ _ _).mpr (Or.inr rfl)
  · rw [Heap.get_alloc_next]
    exact hs
  refine triple_ite (fun _ => triple_modify_bind _ (fun _ h => h.sound.setStatus slice .rejected)
    (triple_pure fun _ h => h)) fun _ => ?_
  refine triple_modify_bind (SliceCreated rt inHand s slice) (fun x h => ?_)
    (triple_modify_bind (fun x => Sound rt inHand x ∧ (x.orders.get slice).Executed)
      (fun x h => ?_) (triple_readOrder_bind fun x hx => ?_))
  · refine ⟨h.sound.setKind hr (by decide) fun o ho => ?_, (Heap.live_modify _ _ _ _).mpr h.live, ?_⟩
    · obtain ⟨-, -, hprice, -⟩ := ho.iceberg
      exact ⟨hprice, fun _ => by rw [Iceberg.visibleQuantity_onFill]; exact hvisible⟩
    · change ((x.orders.modify r _).get slice).symbol = .text s
      rw [Heap.get_modify _ (h.sound.inHand _ hr).1]
      split <;> exact h.symbol
  · refine ⟨h.sound.updateOrder slice id fun _ hfits =>
      ⟨hfits.2.symbol, hfits.2.quantity, hfits.2.readable⟩, ?_⟩
    change ((x.orders.modify slice _).get slice).Executed
    rw [Heap.get_modify_self _ h.live]
    exact ⟨⟨s, h.symbol⟩, hvisible.min hhidden⟩
  · exact triple_bind ((completes_chargeFee _ fun _ _ _ h => h.congr rfl rfl rfl).imp
    (fun _ h => h.1) fun _ _ h => h) fun _ =>
      triple_bind (completes_lockMargin _ fun _ _ h => h.congr rfl rfl rfl) fun margin =>
        triple_bind (completes_updatePosition_null hx.2 margin) fun _ =>
          triple_pure fun _ h => h

end TradingSim.RawOrders
