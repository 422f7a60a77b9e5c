import TradingSim.Exchange.CallAnnouncements
import TradingSim.Foundations.Mirror
import TradingSim.Gateway.Acceptance
import TradingSim.Gateway.ControlPlane

/-!
# The clients' open orders

A client of the user interface keeps the set of open orders. A snapshot replaces it, and the
messages about orders change it one order at a time. The set is a mirror of the resting orders of
all exchanges.

The mirror is right as long as every order that leaves the books is announced under its own id.
Besides, the handlers fix a message before they send it, so that one may reach a client after a
later one.
-/

namespace TradingSim.Gateway

open Foundations
open Exchange (MarketView Numerics Order SimulatedExchange)
open Exchange.SimulatedExchange (Acknowledged Concluded Tells)

/-- The exchange and the id under which the user interface keeps an order. -/
abbrev OrderKey := String × String

/-- A message to the clients about orders. -/
inductive Notice
  | error (text : String)
  | fill (order : Order)
  | fillsBatch (orders : List Order)
  | orderCancelled (order : Order)
  | ordersCancelled (exchange : String) (orderIds : List String)

/-! ### The user interface -/

/-- `trackOrderStatus`: a pending order is added, any other one is removed. -/
def trackOrderStatus (openOrders : List OrderKey) (order : Order) : List OrderKey :=
  if order.id = "" ∨ order.exchange = "" then openOrders
  else if order.status = .pending then
    if (order.exchange, order.id) ∈ openOrders then openOrders
    else openOrders ++ [(order.exchange, order.id)]
  else openOrders.filter (· ≠ (order.exchange, order.id))

/-- `handleExchangeMessage`, for the open orders. -/
def handleExchangeMessage (openOrders : List OrderKey) : Notice → List OrderKey
  | .error _ => openOrders
  | .fill order => trackOrderStatus openOrders order
  | .fillsBatch orders => orders.foldl trackOrderStatus openOrders
  | .orderCancelled order =>
    if order.id = "" then openOrders else openOrders.filter (· ≠ (order.exchange, order.id))
  | .ordersCancelled exchange orderIds =>
    openOrders.filter fun key => key ∉ orderIds.map fun id => (exchange, id)

/-- The key of an order, and whether it is pending. -/
def orderWord (order : Order) : OrderKey × Bool :=
  ((order.exchange, order.id), decide (order.status = .pending))

/-- What an order in a message says of the set of open orders. -/
def orderChange (order : Order) : List (OrderKey × Bool) :=
  if order.id = "" ∨ order.exchange = "" then [] else [orderWord order]

/-- What a message says of the set of open orders. -/
def Notice.changes : Notice → List (OrderKey × Bool)
  | .error _ => []
  | .fill order => orderChange order
  | .fillsBatch orders => orders.flatMap orderChange
  | .orderCancelled order =>
    if order.id = "" then [] else [((order.exchange, order.id), false)]
  | .ordersCancelled exchange orderIds => orderIds.map fun id => ((exchange, id), false)

theorem mem_trackOrderStatus (openOrders : List OrderKey) (order : Order) (key : OrderKey) :
    key ∈ trackOrderStatus openOrders order ↔ heldAfter (orderChange order) openOrders key := by
  unfold trackOrderStatus orderChange orderWord heldAfter
  by_cases hempty : order.id = "" ∨ order.exchange = ""
  · rw [if_pos hempty, if_pos hempty]
    rfl
  · rw [if_neg hempty, if_neg hempty]
    by_cases heq : (order.exchange, order.id) = key
    · subst heq
      by_cases hpending : order.status = .pending
      · by_cases hmem : (order.exchange, order.id) ∈ openOrders
        · simp [lastWord, hpending, hmem]
        · simp [lastWord, hpending, hmem]
      · simp [lastWord, hpending]
    · have hne : ¬ key = (order.exchange, order.id) := fun hc => heq hc.symm
      by_cases hpending : order.status = .pending
      · by_cases hmem : (order.exchange, order.id) ∈ openOrders
        · simp [lastWord, hpending, hmem, heq]
        · simp [lastWord, hpending, hmem, heq, hne]
      · simp [lastWord, hpending, heq, hne]

theorem mem_handleExchangeMessage (openOrders : List OrderKey) (notice : Notice) (key : OrderKey) :
    key ∈ handleExchangeMessage openOrders notice ↔ heldAfter notice.changes openOrders key := by
  cases notice with
  | error text => rfl
  | fill order => exact mem_trackOrderStatus openOrders order key
  | fillsBatch orders => exact mem_foldl_iff_heldAfter mem_trackOrderStatus orders openOrders key
  | orderCancelled order =>
    simp only [handleExchangeMessage, Notice.changes, heldAfter]
    split
    · rfl
    · by_cases heq : (order.exchange, order.id) = key
      · simp [lastWord, heq]
      · have hne : ¬ key = (order.exchange, order.id) := fun hc => heq hc.symm
        simp [lastWord, heq, hne]
  | ordersCancelled exchange orderIds =>
    simp only [handleExchangeMessage, Notice.changes, heldAfter, List.mem_filter, decide_eq_true_eq]
    cases hword : lastWord (orderIds.map fun id => ((exchange, id), false)) key with
    | some b =>
      obtain ⟨id, hid, heq⟩ := List.mem_map.mp (mem_of_lastWord hword)
      obtain ⟨rfl, rfl⟩ := Prod.mk.inj heq
      simp [List.mem_map_of_mem hid]
    | none =>
      have habsent : key ∉ orderIds.map fun id => (exchange, id) := by
        intro hmem
        obtain ⟨id, hid, rfl⟩ := List.mem_map.mp hmem
        exact (lastWord_eq_none_iff _ _).mp hword ((exchange, id), false)
          (List.mem_map_of_mem hid) rfl
      exact and_iff_left habsent

/-! ### The server -/

/-- To whom a handler sends a message. -/
inductive Dispatch
  | send (client : ℕ) (notice : Notice)
  | broadcast (exclude : Option ℕ) (notice : Notice)

/-- The message that a client gets. -/
def Dispatch.noticesFor (c : ℕ) : Dispatch → List Notice
  | .send client notice => if client = c then [notice] else []
  | .broadcast exclude notice => if exclude = some c then [] else [notice]

/-- An answer of the order handler as a message. -/
def Message.notice : Message → Notice
  | .error text => .error text
  | .fill _ content _ => .fill content

def Output.dispatch : Output → Dispatch
  | .send client message => .send client message.notice
  | .broadcast exclude message => .broadcast (some exclude) message.notice

/-- Answer the sender of a request and tell everybody else. -/
def tellAll (client : ℕ) (notice : Notice) : List Dispatch :=
  [.send client notice, .broadcast (some client) notice]

namespace Server

def handleOrder (rt : Runtime) (m : MarketView) (client : ℕ) (data : Dict String Json) (x : Server) :
    Server × List Dispatch :=
  let ran := (handleOrderInner rt m client data).finish x
  (ran.2.1, ran.2.2.map Output.dispatch)

/-- `_handle_cancel_order`. A list or an object is no key: with an order in a book, looking it up
raises. -/
def handleCancelOrder (rt : Runtime) (client : ℕ) (data : Dict String Json) (x : Server) :
    Server × List Dispatch :=
  let refuse : String → Server × List Dispatch := fun text => (x, [.send client (.error text)])
  let required := "cancel_order requires exchange and order_id"
  match exchangeName data with
  | .container _ _ => (x, [])
  | .text exchangeId =>
    match x.exchanges.find? exchangeId with
    | none => refuse required
    | some exchange =>
      let unknown := "No pending order " ++ rt.text (member data "order_id") ++ " on " ++
        exchange.exchangeId
      if truthy (member data "order_id") = false then refuse required
      else match member data "order_id" with
        | .text id =>
          match exchange.cancelOrder id with
          | (_, none) => refuse unknown
          | (cancelled, some r) => (x.putExchange exchangeId cancelled,
              tellAll client (.orderCancelled (cancelled.orders.get r)))
        | .container _ _ =>
          if exchange.orders.pendingOrders = [] then refuse unknown else (x, [])
        | _ => refuse unknown
  | _ => refuse required

/-- `_handle_cancel_all_orders`. No order has a symbol that is no text. -/
def handleCancelAllOrders (rt : Runtime) (client : ℕ) (data : Dict String Json) (x : Server) :
    Server × List Dispatch :=
  let refuse : String → Server × List Dispatch := fun text => (x, [.send client (.error text)])
  match exchangeName data with
  | .container _ _ => (x, [])
  | .text exchangeId =>
    match x.exchanges.find? exchangeId with
    | none => refuse ("Unknown exchange: " ++ exchangeId)
    | some exchange =>
      let cancelled := match textArg (member data "symbol") with
        | none => (exchange, [])
        | some symbol => exchange.cancelAllOrders symbol
      (x.putExchange exchangeId cancelled.1, tellAll client (.ordersCancelled exchange.exchangeId
        (cancelled.2.map fun r => (cancelled.1.orders.get r).id)))
  | other => refuse ("Unknown exchange: " ++ rt.text other)

/-- `_process_exchange_events`, for one exchange: the forced closes, the sweeps, the marks and a funding
charge, and a batch of the returned orders. -/
def processExchangeEvents (N : Numerics) (m : MarketView) (rate : Option ℚ) (exchangeId : String)
    (x : Server) : Server × List Dispatch :=
  match x.exchanges.find? exchangeId with
  | none => (x, [])
  | some exchange =>
    let closed := exchange.checkStopLossTakeProfit N m
    let swept := closed.1.checkAdvancedOrders N m
    let marked := swept.1.markPositions m.price
    let charged := match rate with
      | none => marked
      | some rate => marked.chargeFunding m rate
    let orders := (closed.2 ++ swept.2).map charged.orders.get
    (x.putExchange exchangeId charged,
      if orders = [] then [] else [.broadcast none (.fillsBatch orders)])

/-- The open orders of a snapshot. -/
def pendingKeys (x : Server) : List OrderKey := x.exchanges.values.flatMap (·.pendingKeys)

end Server

/-- The server, and of each connected client the open orders that the user interface holds with the
messages that are still to reach it. -/
structure OrderTraffic where
  server : Server
  clients : Dict ℕ (Mirror OrderKey Notice) := Dict.empty

/-- What may happen next. The content of a message is fixed when its request or tick is handled; it may
reach the clients in any order, and with `joins` also one that connected too late for it. -/
inductive TrafficEvent
  | connect (client : ℕ)
  | disconnect (client : ℕ)
  /-- `_send_market_snapshot` and `_send_sync_state`. -/
  | snapshot (client : ℕ)
  | order (client : ℕ) (m : MarketView) (data : Dict String Json)
  | cancelOrder (client : ℕ) (data : Dict String Json)
  | cancelAllOrders (client : ℕ) (data : Dict String Json)
  | tick (exchangeId : String) (m : MarketView) (rate : Option ℚ)
  | process (client i : ℕ)
  | joins (client other i : ℕ)

namespace OrderTraffic

/-- Take over what a handler led to. -/
def settle (t : OrderTraffic) (handled : Server × List Dispatch) : OrderTraffic where
  server := handled.1
  clients := t.clients.mapValues fun c view => view.post (handled.2.flatMap (·.noticesFor c))

/-- Change what a connected client has. -/
def updateClient (t : OrderTraffic) (c : ℕ)
    (f : Mirror OrderKey Notice → Mirror OrderKey Notice) : OrderTraffic :=
  match t.clients.find? c with
  | none => t
  | some view => { t with clients := t.clients.insert c (f view) }

/-- The message at a place among those that are due to a client. -/
def dueAt (t : OrderTraffic) (c i : ℕ) : Option Notice :=
  (t.clients.find? c).bind fun view => view.due[i]?

def step (rt : Runtime) (t : OrderTraffic) : TrafficEvent → OrderTraffic
  | .connect c => { t with clients := t.clients.insert c {} }
  | .disconnect c => { t with clients := t.clients.erase c }
  | .snapshot c => t.updateClient c (·.sync t.server.pendingKeys)
  | .order c m data => t.settle (t.server.handleOrder rt m c data)
  | .cancelOrder c data => t.settle (t.server.handleCancelOrder rt c data)
  | .cancelAllOrders c data => t.settle (t.server.handleCancelAllOrders rt c data)
  | .tick exchangeId m rate =>
    t.settle (t.server.processExchangeEvents rt.numerics m rate exchangeId)
  | .process c i => t.updateClient c (·.take handleExchangeMessage i)
  | .joins c other i => t.updateClient c (·.post (t.dueAt other i).toList)

/-- Every client that has got a snapshot and then all messages holds the resting orders. -/
def InStep (t : OrderTraffic) : Prop :=
  ∀ c view, t.clients.find? c = some view → view.synced = true → view.due = [] →
    ∀ key, key ∈ view.held ↔ key ∈ t.server.pendingKeys

/-- Of every order that a step takes out of the books each client is told. -/
def Announces (rt : Runtime) (t : OrderTraffic) (e : TrafficEvent) : Prop :=
  ∀ key ∈ t.server.pendingKeys, key ∉ (t.step rt e).server.pendingKeys →
    ∀ c view, (t.step rt e).clients.find? c = some view →
      ∃ notice ∈ view.due, (key, false) ∈ notice.changes

end OrderTraffic

/-! ### The order handler -/

/-- The arguments of a call of `submit_order`. -/
structure SubmitCall where
  exchangeId : String
  exchange : SimulatedExchange
  quantity : ℚ
  expireTs : Option (Option ℚ)

/-- The expiry that is read from a message, or the error. -/
def expiryOf (rt : Runtime) (data : Dict String Json) : Except String (Option (Option ℚ)) :=
  match member data "expire_ms" with
  | .null => .ok none
  | expireMs => (rt.float expireMs).map fun expiry => some (expiry.map (· / 1000))

/-- The call of `submit_order` that a message leads to, unless it is answered before. -/
def Server.submissionOf (rt : Runtime) (x : Server) (data : Dict String Json) : Option SubmitCall :=
  match x.tradingActive, exchangeName data with
  | true, .text exchangeId => do
    let exchange ← x.exchanges.find? exchangeId
    if missingFields data ≠ [] then none
    else if ((dedupKey rt exchangeId (member data "client_order_id")).bind
      x.orderDedup.find?).isSome then none
    else match rt.float (member data "quantity"), expiryOf rt data with
      | .ok (some quantity), .ok expireTs =>
        if quantity ≤ 0 ∨ timeInForceOf rt data ∉ ["GTC", "IOC", "FOK", "GTD"] then none
        else some ⟨exchangeId, exchange, quantity, expireTs⟩
      | _, _ => none
  | _, _ => none

/-- If a message leads to a call, its arguments are of the annotated types and the call cancels no
resting order. -/
def Server.SparesOrder (rt : Runtime) (m : MarketView) (data : Dict String Json) (x : Server) : Prop :=
  ∀ call ∈ x.submissionOf rt data, ∀ side ∈ sideOf (member data "side"),
    ∀ orderType ∈ orderTypeOf ((data.find? "order_type").getD (.text "MARKET")),
      ∃ req ∈ orderRequest data side orderType call.quantity (timeInForceOf rt data) call.expireTs,
        call.exchange.SparesSubmission rt.numerics m req

instance (rt : Runtime) (m : MarketView) (data : Dict String Json) (x : Server) :
    Decidable (x.SparesOrder rt m data) :=
  inferInstanceAs (Decidable (∀ call ∈ x.submissionOf rt data, ∀ side ∈ sideOf (member data "side"),
    ∀ orderType ∈ orderTypeOf ((data.find? "order_type").getD (.text "MARKET")), ∃ req ∈ _,
      SimulatedExchange.SparesSubmission rt.numerics m call.exchange req))

/-- What handling an order message comes to. -/
inductive OrderHandled (rt : Runtime) (m : MarketView) (client : ℕ) (data : Dict String Json)
    (x : Server) : Server × List Output → Prop
  | answered (outputs : List Output) : (∀ o ∈ outputs, ∃ text, o = .send client (.error text)) →
      OrderHandled rt m client data x (x, outputs)
  | repeated (key : String) (o : OrderRef) : x.orderDedup.find? key = some o →
      OrderHandled rt m client data x (x, [.send client (.fill o (x.order o) true)])
  | failed (call : SubmitCall) (exchange : SimulatedExchange) (result : SubmitResult)
      (outputs : List Output) : x.submissionOf rt data = some call →
      callSubmitOrder rt m call.exchange data call.quantity (timeInForceOf rt data) call.expireTs =
        (exchange, result) → (∀ r, result ≠ .order r) →
      (∀ o ∈ outputs, ∃ text, o = .send client (.error text)) →
      OrderHandled rt m client data x (x.putExchange call.exchangeId exchange, outputs)
  | placed (call : SubmitCall) (exchange : SimulatedExchange) (r : Ref) (key : Option String)
      (clientOrderId : Option String) (y : Server) : x.submissionOf rt data = some call →
      callSubmitOrder rt m call.exchange data call.quantity (timeInForceOf rt data) call.expireTs =
        (exchange, .order r) →
      y = (((x.putExchange call.exchangeId exchange).noteSubmitted key ⟨call.exchangeId, r⟩).label
        ⟨call.exchangeId, r⟩ clientOrderId).remember key ⟨call.exchangeId, r⟩ →
      OrderHandled rt m client data x (y, [
        .send client (.fill ⟨call.exchangeId, r⟩ (y.order ⟨call.exchangeId, r⟩) false),
        .broadcast client (.fill ⟨call.exchangeId, r⟩ (y.order ⟨call.exchangeId, r⟩) false)])

theorem orderHandled_placeOrder {rt : Runtime} {m : MarketView} {client : ℕ}
    {data : Dict String Json} {x : Server} {call : SubmitCall} (key : Option String)
    (hcall : x.submissionOf rt data = some call) {next : Option OrderRef → Task Unit}
    (hnext : next none = pure ()) (clientOrderId : Option String) (hplaced : ∀ o, next (some o) = (do
      Coroutine.modify (·.label o clientOrderId)
      Coroutine.modify (·.remember key o)
      let x ← Coroutine.get
      Coroutine.handOut (.send client (.fill o (x.order o) false))
      Coroutine.handOut (.broadcast client (.fill o (x.order o) false)))) :
    OrderHandled rt m client data x ((placeOrder rt m client call.exchangeId call.exchange key data
      call.quantity (timeInForceOf rt data) call.expireTs >>= next).finish x).2 := by
  rw [Coroutine.finish_bind]
  simp only [placeOrder, Coroutine.finish_modify_bind]
  generalize hcalled : callSubmitOrder rt m call.exchange data call.quantity (timeInForceOf rt data)
    call.expireTs = called
  obtain ⟨exchange, result⟩ := called
  cases result with
  | order r =>
    simp only [Coroutine.finish_modify_bind, Coroutine.finish_pure, hplaced]
    exact .placed call exchange r key clientOrderId _ hcall hcalled rfl
  | invalid error =>
    simp only [refuse, sendError, Coroutine.finish_bind, Coroutine.finish_handOut,
      Coroutine.finish_pure, hnext, List.append_nil]
    refine .failed call exchange _ _ hcall hcalled (fun r hr => by cases hr) fun o ho => ?_
    rw [List.mem_singleton.mp ho]
    exact ⟨_, rfl⟩
  | raised =>
    simp only [Coroutine.finish_pure, hnext, List.append_nil]
    exact .failed call exchange _ _ hcall hcalled (fun r hr => by cases hr)
      fun _ ho => absurd ho List.not_mem_nil

theorem orderHandled_handleOrderInner (rt : Runtime) (m : MarketView) (client : ℕ)
    (data : Dict String Json) (x : Server) :
    OrderHandled rt m client data x ((handleOrderInner rt m client data).finish x).2 := by
  have herror : ∀ text : String, OrderHandled rt m client data x
      ((sendError client text).finish x).2 := by
    intro text
    refine .answered _ fun o ho => ?_
    rw [List.mem_singleton.mp ho]
    exact ⟨text, rfl⟩
  have hraise : OrderHandled rt m client data x ((pure () : Task Unit).finish x).2 :=
    .answered [] fun _ ho => absurd ho List.not_mem_nil
  simp only [handleOrderInner, Coroutine.finish_get_bind]
  split
  · exact herror _
  · rename_i hactive
    split
    · exact hraise
    · rename_i exchangeId hname
      split
      · exact herror _
      · rename_i exchange hexchange
        split
        · exact herror _
        · rename_i hcomplete
          split
          · rename_i original hrepeated
            obtain ⟨key, -, hfind⟩ := Option.bind_eq_some_iff.mp hrepeated
            exact .repeated key original hfind
          · rename_i hnew
            have hsubmission : ∀ quantity expireTs, rt.float (member data "quantity") =
                .ok (some quantity) → expiryOf rt data = .ok expireTs → ¬ quantity ≤ 0 →
                timeInForceOf rt data ∈ ["GTC", "IOC", "FOK", "GTD"] →
                x.submissionOf rt data = some ⟨exchangeId, exchange, quantity, expireTs⟩ := by
              intro quantity expireTs hquantity hexpiry hpositive hforce
              have hactive' : x.tradingActive = true := by simpa using hactive
              simp only [Server.submissionOf, hactive', exchangeName, hname, hexchange, hcomplete,
                hnew, hquantity, hexpiry, hpositive, hforce]
              rfl
            have hrefuse : ∀ (text : String) (next : Option OrderRef → Task Unit),
                next none = pure () → OrderHandled rt m client data x
                  ((refuse client text >>= next).finish x).2 := by
              intro text next hnext
              simp only [refuse, sendError, Coroutine.finish_bind, Coroutine.finish_handOut,
                Coroutine.finish_pure, hnext, List.append_nil]
              refine .answered _ fun o ho => ?_
              rw [List.mem_singleton.mp ho]
              exact ⟨text, rfl⟩
            simp only [handleNewOrder, submitExchangeOrder]
            split
            · exact hrefuse _ _ rfl
            · exact hrefuse _ _ rfl
            · rename_i quantity hquantity
              split
              · exact hrefuse _ _ rfl
              · rename_i hpositive
                split
                · exact hrefuse _ _ rfl
                · rename_i hforce
                  have hforce' := not_not.mp hforce
                  split
                  · rename_i hnull
                    exact orderHandled_placeOrder _ (hsubmission quantity none hquantity
                      (by rw [expiryOf, hnull]) hpositive hforce') rfl _ fun _ => rfl
                  · rename_i expireMs hgiven
                    split
                    · exact hraise
                    · rename_i expiry hexpiry
                      have hread : expiryOf rt data = .ok (some (expiry.map (· / 1000))) := by
                        unfold expiryOf
                        split
                        · rename_i hnull
                          exact absurd hnull hgiven
                        · rw [hexpiry]
                          rfl
                      exact orderHandled_placeOrder _ (hsubmission quantity _ hquantity hread
                        hpositive hforce') rfl _ fun _ => rfl
    · exact herror _

end TradingSim.Gateway
