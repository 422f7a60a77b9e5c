import TradingSim.Gateway.OrderHandler
import TradingSim.RawOrders.ForcedCloses

/-!
# Order messages of any content

The server hands an order message with any values in its members to the exchange that it names. Its
handler converts the quantity, the time in force, the expiry, the side and the type; everything else
goes on as it was sent. A value error or a key error is answered, any other exception ends the
handler.

Between the messages the exchanges tick.
-/

namespace TradingSim.RawOrders

open Foundations
open Exchange (Side)
open Floats (div isZero le lit lt)
open SimulatedExchange (Sound)

variable {F : Type} [Floats F]

/-! ### The server -/

/-- A decoded message. -/
abbrev Message (F : Type) := Dict String (Value F)

/-- The server's state that order messages read and write. -/
structure Server (F : Type) where
  tradingActive : Bool := true
  exchanges : Dict String (SimulatedExchange F)
  orderDedup : Dict String (String × Ref) := Dict.empty
  orderDedupKeys : List String := []

/-- What becomes of a call or a message. -/
inductive Answer
  | error
  | order
  | completed
  | raised
  deriving DecidableEq

/-- `data.get(name)`. -/
def Message.get (data : Message F) (name : String) : Value F := (data.find? name).getD .null

/-- `str` of a value. -/
def Runtime.text (rt : Runtime F) : Value F → String
  | .text s => s
  | v => rt.str v

/-- `float` of a value. -/
def Runtime.float (rt : Runtime F) : Value F → Except PyException F
  | .text s => rt.floatOfText s
  | v => v.toFloat

/-- `Side(value)`. -/
def sideOf : Value F → Option Side
  | .text "BUY" => some .buy
  | .text "SELL" => some .sell
  | _ => none

/-- `OrderType(value)`. -/
def orderTypeOf : Value F → Option Exchange.OrderType
  | .text "MARKET" => some .market
  | .text "LIMIT" => some .limit
  | .text "STOP_LIMIT" => some .stopLimit
  | .text "TRAILING_STOP" => some .trailingStop
  | .text "OCO" => some .oco
  | .text "ICEBERG" => some .iceberg
  | _ => none

/-- An exception in converting the quantity is answered if it is one of these. -/
def quantityAnswer : PyException → Answer
  | .valueError => .error
  | .typeError => .error
  | .keyError => .error
  | .overflowError => .raised
  | .zeroDivisionError => .raised
  | .attributeError => .raised

/-- An exception of the submission is answered if it is one of these. -/
def submitAnswer : PyException → Answer
  | .valueError => .error
  | .keyError => .error
  | .typeError => .raised
  | .overflowError => .raised
  | .zeroDivisionError => .raised
  | .attributeError => .raised

/-- The arguments of `submit_order`, with an enumeration's members read last. -/
def orderRequest (data : Message F) (quantity : F) (timeInForce : String) (expireTs : Option F) :
    Except Answer (OrderRequest F) :=
  match sideOf (data.get "side"), orderTypeOf ((data.find? "order_type").getD (.text "MARKET")) with
  | some side, some orderType => .ok {
      symbol := data.get "symbol"
      side := side
      quantity := quantity
      orderType := orderType
      price := data.get "price"
      stopLoss := data.get "stop_loss"
      takeProfit := data.get "take_profit"
      stopPrice := data.get "stop_price"
      limitPrice := data.get "limit_price"
      trailAmount := data.get "trail_amount"
      trailPercentage := ((data.find? "trail_percentage").getD (.bool true)).truthy
      icebergVisibleQty := data.get "iceberg_visible_qty"
      ocoGroupId := data.get "oco_group_id"
      timeInForce := timeInForce
      postOnly := (data.get "post_only").truthy
      expireTs := expireTs }
  | _, _ => .error .error

/-- `_submit_exchange_order` up to the call. -/
def readRequest (rt : Runtime F) (data : Message F) : Except Answer (OrderRequest F) :=
  match rt.float (data.get "quantity") with
  | .error e => .error (quantityAnswer e)
  | .ok quantity =>
    if !Floats.isFinite quantity || le quantity (lit 0) then .error .error
    else
      let timeInForce := rt.upper (rt.text ((data.find? "time_in_force").getD (.text "GTC")))
      if timeInForce ∉ ["GTC", "IOC", "FOK", "GTD"] then .error .error
      else if (data.get "expire_ms").isNull then orderRequest data quantity timeInForce none
      else
        match rt.float (data.get "expire_ms") with
        | .error _ => .error .raised
        | .ok expireMs => orderRequest data quantity timeInForce (some (div expireMs (lit 1000)))

namespace Server

/-- The exchange that a message names. -/
def exchangeOf (x : Server F) (data : Message F) : Except Answer (String × SimulatedExchange F) :=
  match (data.find? "exchange").getD (.text "binance") with
  | .text s =>
    match x.exchanges.find? s with
    | none => .error .error
    | some exchange => .ok (s, exchange)
  | .container _ _ => .error .raised
  | _ => .error .error

/-- The key of a message's `client_order_id` at an exchange, unless it is empty. -/
def dedupKey (rt : Runtime F) (exchangeId : String) (data : Message F) : Option String :=
  if (data.get "client_order_id").truthy then
    some (exchangeId ++ ":" ++ rt.text (data.get "client_order_id"))
  else none

/-- A call of `submit_order`. -/
structure Submission (F : Type) where
  exchangeId : String
  exchange : SimulatedExchange F
  key : Option String
  request : OrderRequest F

/-- `_handle_order_inner` up to the call of `submit_order`. -/
def submissionOf (rt : Runtime F) (x : Server F) (data : Message F) : Except Answer (Submission F) :=
  if !x.tradingActive then .error .error
  else
    match x.exchangeOf data with
    | .error answer => .error answer
    | .ok (exchangeId, exchange) =>
      if ["symbol", "side", "quantity"].any fun name => (data.find? name).isNone then .error .error
      else
        let key := dedupKey rt exchangeId data
        if (key.bind x.orderDedup.find?).isSome then .error .order
        else
          match readRequest rt data with
          | .error answer => .error answer
          | .ok request => .ok ⟨exchangeId, exchange, key, request⟩

/-- Replace an exchange by what a call made of it. -/
def putExchange (x : Server F) (exchangeId : String) (exchange : SimulatedExchange F) : Server F :=
  { x with exchanges := x.exchanges.insert exchangeId exchange }

/-- Remember an order under its key, forgetting the oldest key above the bound. -/
def remember (x : Server F) (order : String × Ref) : Option String → Server F
  | none => x
  | some key =>
    let dedup := x.orderDedup.insert key order
    match x.orderDedupKeys ++ [key] with
    | [] => { x with orderDedup := dedup }
    | oldest :: rest =>
      if Gateway.orderDedupMax < rest.length + 1 then
        { x with orderDedup := dedup.erase oldest, orderDedupKeys := rest }
      else { x with orderDedup := dedup, orderDedupKeys := oldest :: rest }

/-- `_handle_order_inner`. -/
def handleOrder (rt : Runtime F) (m : MarketView F) (x : Server F) (data : Message F) :
    Server F × Answer :=
  match x.submissionOf rt data with
  | .error answer => (x, answer)
  | .ok call =>
    match submitOrder rt m call.request call.exchange with
    | (exchange, .error e) => (x.putExchange call.exchangeId exchange, submitAnswer e)
    | (exchange, .ok r) =>
      ((x.putExchange call.exchangeId exchange).remember (call.exchangeId, r) call.key, .order)

def call {α : Type} (x : Server F) (exchangeId : String) (c : Call F α) : Server F × Answer :=
  match x.exchanges.find? exchangeId with
  | none => (x, .completed)
  | some exchange =>
    match c exchange with
    | (exchange, .error _) => (x.putExchange exchangeId exchange, .raised)
    | (exchange, .ok _) => (x.putExchange exchangeId exchange, .completed)

end Server

/-- What happens to the server: an order message, one of the two checks of a tick, a market order of
its own making, a cancel, a new state of trading or a change of the fees. -/
inductive Event (F : Type)
  | order (m : MarketView F) (data : Message F)
  | checkStopLossTakeProfit (m : MarketView F) (exchangeId : String)
  | checkAdvancedOrders (m : MarketView F) (exchangeId : String)
  | trade (m : MarketView F) (exchangeId symbol : String) (side : Side) (quantity : F)
      (forceClose : Bool)
  | cancelOrder (exchangeId id : String)
  | cancelAllOrders (exchangeId : String) (cancels : Order F → Bool)
  | setTrading (active : Bool)
  | configure (exchangeId : String) (feePct slippageBps : F)

namespace Server

/-- The market order of a trade. -/
def tradeRequest (symbol : String) (side : Side) (quantity : F) (forceClose : Bool) : OrderRequest F where
  symbol := .text symbol
  side := side
  quantity := quantity
  forceClose := forceClose

/-- One event, and what becomes of it. -/
def handle (rt : Runtime F) (x : Server F) : Event F → Server F × Answer
  | .order m data => x.handleOrder rt m data
  | .checkStopLossTakeProfit m exchangeId => x.call exchangeId (checkStopLossTakeProfit rt m)
  | .checkAdvancedOrders m exchangeId => x.call exchangeId (checkAdvancedOrders rt m)
  | .trade m exchangeId symbol side quantity forceClose =>
    x.call exchangeId (submitOrder rt m (tradeRequest symbol side quantity forceClose))
  | .cancelOrder exchangeId id => x.call exchangeId (Action.modify (·.cancelOrder id))
  | .cancelAllOrders exchangeId cancels =>
    x.call exchangeId (Action.modify (·.cancelAllOrders cancels))
  | .setTrading active => ({ x with tradingActive := active }, .completed)
  | .configure exchangeId feePct slippageBps =>
    x.call exchangeId (Action.modify fun exchange =>
      { exchange with feePct := feePct, slippageBps := slippageBps })

def step (rt : Runtime F) (x : Server F) (event : Event F) : Server F := (x.handle rt event).1

/-- No exchange has had an order. -/
def Fresh (x : Server F) : Prop :=
  ∀ exchangeId exchange, x.exchanges.find? exchangeId = some exchange →
    exchange.positions = Dict.empty ∧ exchange.orders = Heap.empty ∧
      exchange.pending = (fun _ => Dict.empty) ∧ exchange.ocoGroups = Dict.empty

/-- Nothing that counts has changed on any exchange. -/
def Unchanged (x y : Server F) : Prop :=
  ∀ exchangeId, Option.Rel Untouched (x.exchanges.find? exchangeId) (y.exchanges.find? exchangeId)

/-- A message that is answered by an error, or raises, changes nothing, and the checks of a tick
complete. -/
def Unpoisoned (rt : Runtime F) (x : Server F) (event : Event F) : Prop :=
  match event with
  | .order _ _ => (x.handle rt event).2 = .error ∨ (x.handle rt event).2 = .raised →
      x.Unchanged (x.step rt event)
  | .checkStopLossTakeProfit _ _ => (x.handle rt event).2 ≠ .raised
  | .checkAdvancedOrders _ _ => (x.handle rt event).2 ≠ .raised
  | _ => True

/-- An order message that gets to `submit_order` does no harm there. -/
def Harmless (rt : Runtime F) (x : Server F) (event : Event F) : Prop :=
  match event with
  | .order m data =>
    match x.submissionOf rt data with
    | .ok call => call.request.Harmless rt m call.exchange
    | .error _ => True
  | _ => True

instance (rt : Runtime F) (x : Server F) (event : Event F) : Decidable (x.Harmless rt event) :=
  match event with
  | .order m data =>
    match h : x.submissionOf rt data with
    | .ok call => decidable_of_iff (call.request.Harmless rt m call.exchange) (by simp only [Harmless, h])
    | .error _ => isTrue (by simp only [Harmless, h])
  | .checkStopLossTakeProfit _ _ => isTrue trivial
  | .checkAdvancedOrders _ _ => isTrue trivial
  | .trade _ _ _ _ _ _ => isTrue trivial
  | .cancelOrder _ _ => isTrue trivial
  | .cancelAllOrders _ _ => isTrue trivial
  | .setTrading _ => isTrue trivial
  | .configure _ _ _ => isTrue trivial

end Server

/-! ### Runs of harmless messages -/

namespace Server

variable {rt : Runtime F} {x : Server F} {exchangeId : String} {exchange : SimulatedExchange F}

/-- All exchanges are sound. -/
def Sound (rt : Runtime F) (x : Server F) : Prop :=
  ∀ exchangeId exchange, x.exchanges.find? exchangeId = some exchange → exchange.Sound rt []

/-- A fresh server is sound. -/
theorem Fresh.sound (h : x.Fresh) : x.Sound rt := by
  intro exchangeId exchange hfind
  obtain ⟨hpositions, horders, hpending, -⟩ := h exchangeId exchange hfind
  constructor
  · intro book k r hbooked
    rw [hpending, Dict.find?_empty] at hbooked
    cases hbooked
  · exact fun _ hnone => absurd hnone List.not_mem_nil
  · intro k position hposition
    rw [hpositions, Dict.find?_empty] at hposition
    cases hposition
  · intro r
    have hdead : ¬ exchange.orders.Live r := by
      rw [horders]
      exact Nat.not_lt_zero r
    rw [Heap.get_of_not_live _ hdead]
    exact fun hnull => by cases hnull

theorem Unchanged.refl (x : Server F) : x.Unchanged x := by
  intro exchangeId
  cases x.exchanges.find? exchangeId with
  | none => exact .none
  | some exchange => exact .some (Untouched.refl exchange)

/-- An exchange may be replaced by a sound one. -/
theorem Sound.putExchange (h : x.Sound rt) (hexchange : exchange.Sound rt []) :
    (x.putExchange exchangeId exchange).Sound rt := by
  intro id other hfind
  change (x.exchanges.insert exchangeId exchange).find? id = some other at hfind
  rw [Dict.find?_insert] at hfind
  split at hfind
  · cases hfind
    exact hexchange
  · exact h id other hfind

omit [Floats F] in
/-- Remembering an order leaves the exchanges alone. -/
theorem exchanges_remember (x : Server F) (order : String × Ref) (key : Option String) :
    (x.remember order key).exchanges = x.exchanges := by
  unfold remember
  cases key with
  | none => rfl
  | some key =>
    dsimp only
    split
    · rfl
    · split <;> rfl

/-- An exchange may be replaced by one that is untouched. -/
theorem unchanged_putExchange {exchange' : SimulatedExchange F}
    (hfind : x.exchanges.find? exchangeId = some exchange) (h : Untouched exchange exchange') :
    x.Unchanged (x.putExchange exchangeId exchange') := by
  intro id
  change Option.Rel Untouched _ ((x.exchanges.insert exchangeId exchange').find? id)
  rw [Dict.find?_insert]
  split
  · rename_i heq
    rw [heq, hfind]
    exact .some h
  · exact Unchanged.refl x id

/-- A call that completes keeps the server sound and does not raise. -/
theorem sound_call {α : Type} {c : Call F α} (h : x.Sound rt)
    (hc : Action.Completes (SimulatedExchange.Sound rt []) c fun _ => SimulatedExchange.Sound rt []) :
    (x.call exchangeId c).1.Sound rt ∧ (x.call exchangeId c).2 ≠ .raised := by
  unfold call
  cases hfind : x.exchanges.find? exchangeId with
  | none => exact ⟨h, nofun⟩
  | some exchange =>
    have hran := hc exchange (h exchangeId exchange hfind)
    dsimp only
    generalize c exchange = ran at hran ⊢
    obtain ⟨exchange', e | a⟩ := ran
    · exact hran.elim
    · exact ⟨h.putExchange hran, nofun⟩

/-- A call goes to the exchange that the message names. -/
theorem find?_of_submissionOf {data : Message F} {call : Submission F}
    (h : x.submissionOf rt data = .ok call) : x.exchanges.find? call.exchangeId = some call.exchange := by
  unfold submissionOf at h
  split at h
  · cases h
  · cases hexchange : x.exchangeOf data with
    | error answer =>
      rw [hexchange] at h
      cases h
    | ok named =>
      obtain ⟨exchangeId, exchange⟩ := named
      have hfind : x.exchanges.find? exchangeId = some exchange := by
        unfold exchangeOf at hexchange
        split at hexchange
        · split at hexchange
          · cases hexchange
          · cases hexchange
            assumption
        · cases hexchange
        · cases hexchange
      rw [hexchange] at h
      dsimp only at h
      split at h
      · cases h
      · split at h
        · cases h
        · split at h
          · cases h
          · cases h
            exact hfind

/-- A harmless message keeps the exchanges sound, and changes nothing if it is answered by an error or
raises. -/
theorem sound_handleOrder {m : MarketView F} {data : Message F} (h : x.Sound rt)
    (hharmless : x.Harmless rt (.order m data)) : (x.handleOrder rt m data).1.Sound rt ∧
      ((x.handleOrder rt m data).2 = .error ∨ (x.handleOrder rt m data).2 = .raised →
        x.Unchanged (x.handleOrder rt m data).1) := by
  unfold Harmless at hharmless
  unfold handleOrder
  cases hcall : x.submissionOf rt data with
  | error answer => exact ⟨h, fun _ => Unchanged.refl x⟩
  | ok call =>
    simp only [hcall] at hharmless
    have hfind := find?_of_submissionOf hcall
    have hran := triple_submitOrder (h _ _ hfind) hharmless call.exchange rfl
    dsimp only
    generalize submitOrder rt m call.request call.exchange = ran at hran ⊢
    obtain ⟨exchange', e | r⟩ := ran
    · exact ⟨h.putExchange hran.1, fun _ => unchanged_putExchange hfind hran.2.1⟩
    · refine ⟨?_, fun hanswer => ?_⟩
      · intro id exchange hexchange
        rw [exchanges_remember] at hexchange
        exact h.putExchange hran id exchange hexchange
      · rcases hanswer with herror | hraised
        · cases herror
        · cases hraised

/-- A harmless event keeps the exchanges sound and is not poisoned. -/
theorem sound_step {event : Event F} (h : x.Sound rt) (hharmless : x.Harmless rt event) :
    (x.step rt event).Sound rt ∧ x.Unpoisoned rt event := by
  have hmodify : ∀ (f : SimulatedExchange F → SimulatedExchange F),
      (∀ exchange, exchange.Sound rt [] → (f exchange).Sound rt []) → ∀ id,
      (x.call id (Action.modify f)).1.Sound rt := fun f hf id =>
    (sound_call h (Action.triple_modify hf)).1
  cases event with
  | order m data => exact sound_handleOrder h hharmless
  | checkStopLossTakeProfit m exchangeId => exact sound_call h completes_checkStopLossTakeProfit
  | checkAdvancedOrders m exchangeId => exact sound_call h completes_checkAdvancedOrders
  | trade m exchangeId symbol side quantity forceClose =>
    have hplain : (tradeRequest symbol side quantity forceClose).Plain :=
      ⟨⟨symbol, rfl⟩, rfl, Or.inl rfl, Or.inl rfl, rfl, rfl, rfl, rfl⟩
    exact ⟨(sound_call h hplain.completes_submitOrder).1, trivial⟩
  | cancelOrder exchangeId id => exact ⟨hmodify _ (fun _ hs => hs.cancelOrder id) _, trivial⟩
  | cancelAllOrders exchangeId cancels =>
    exact ⟨hmodify _ (fun _ hs => hs.cancelAllOrders cancels) _, trivial⟩
  | setTrading active => exact ⟨h, trivial⟩
  | configure exchangeId feePct slippageBps =>
    exact ⟨hmodify (fun exchange => { exchange with feePct := feePct, slippageBps := slippageBps })
      (fun _ hs => hs.congr rfl rfl rfl) exchangeId, trivial⟩

/-- A language whose texts are no numbers. -/
def plainRuntime : Runtime ℚ where
  str _ := ""
  upper := String.toUpper
  floatOfText _ := .error .valueError
  numberKey _ := ""

/-- A server with one exchange on which nothing has happened. -/
def oneExchange : Server ℚ where
  exchanges := Dict.empty.insert "binance" {
    feePct := 1 / 10
    slippageBps := 5
    partialLiquidationRatio := 1 / 2
    maintenanceMarginRate := 1 / 200
    leverage := 10
    balance := 10000
    totalFees := 0
    totalPnl := 0
    insuranceFund := 0 }

def oneSymbol : MarketView ℚ where
  symbols := ["BTC"]
  price s := if s = "BTC" then 100 else 0
  levels _ _ := none
  now := 0

/-- A stop limit order with a given stop price. -/
def stopLimitMessage (stopPrice : Value ℚ) : Message ℚ :=
  [("symbol", .text "BTC"), ("side", .text "BUY"), ("quantity", .int 1),
    ("order_type", .text "STOP_LIMIT"), ("stop_price", stopPrice), ("limit_price", .int 100)].foldl
      (fun data entry => data.insert entry.1 entry.2) Dict.empty

/-- Messages between the checks of a tick: an order with a number for its stop price, and one with a
quantity that is none. -/
def harmlessEvents : List (Event ℚ) :=
  [.order oneSymbol (stopLimitMessage (.int 101)), .checkStopLossTakeProfit oneSymbol "binance",
    .order oneSymbol ((stopLimitMessage (.int 101)).insert "quantity" (.text "abc")),
    .checkAdvancedOrders oneSymbol "binance"]

theorem oneExchange_fresh : oneExchange.Fresh := by
  intro exchangeId exchange hfind
  rw [oneExchange, Dict.find?_insert] at hfind
  split at hfind
  · cases hfind
    exact ⟨rfl, rfl, rfl, rfl⟩
  · cases hfind

end Server

end TradingSim.RawOrders
