import TradingSim.Exchange.OrderSubmission
import TradingSim.Foundations.Coroutine
import TradingSim.Foundations.Json

/-!
# The order handler of the gateway

A client's order message is handled by a task of the server's event loop. The handler screens the
message, answers a repeated `client_order_id` with the order it already has, and otherwise submits
the order and remembers it.

An exception that the handler does not catch ends it without an answer. Logging is left out.
-/

namespace TradingSim.Gateway

open Foundations
open Exchange (Numerics MarketView Order OrderRequest OrderType Side SimulatedExchange)

/-- An order object: the exchange that created it and its place there. -/
structure OrderRef where
  exchange : String
  ref : Ref
  deriving DecidableEq

/-- What `submit_order` does: it returns an order, raises one of the errors that the handler
catches, or raises another one. -/
inductive SubmitResult
  | order (r : Ref)
  | invalid (error : String)
  | raised
  deriving DecidableEq

/-- What the handlers take from the language and from the exchange's number formats. -/
structure Runtime where
  numerics : Numerics
  /-- `str` of a value that is no string. -/
  str : Json → String
  /-- `str.upper`. -/
  upper : String → String
  /-- `float` of a string, `none` for a number that is not finite, or the error's text. -/
  floatOfText : String → Except String (Option ℚ)
  /-- The rendering of the number that a value converts to, if it is not finite. -/
  notFinite : Json → String
  /-- The error's text for a value that `float` does not convert. -/
  floatError : Json → String
  /-- The error's text for a value that is no member of an enumeration. -/
  enumError : Json → String
  /-- `submit_order` called with arguments that are not of their annotated types. -/
  untyped : SimulatedExchange → Dict String Json → SimulatedExchange × SubmitResult

namespace Runtime

/-- `str` of a value. -/
def text (rt : Runtime) : Json → String
  | .text s => s
  | v => rt.str v

/-- `float` of a value. -/
def float (rt : Runtime) : Json → Except String (Option ℚ)
  | .int n => .ok (some n)
  | .decimal x => .ok (some x)
  | .bool b => .ok (some (if b then 1 else 0))
  | .nonFinite => .ok none
  | .text s => rt.floatOfText s
  | .null => .error (rt.floatError .null)
  | .container rendering isEmpty => .error (rt.floatError (.container rendering isEmpty))

end Runtime

/-- Whether a value counts as true. -/
def truthy : Json → Bool
  | .null => false
  | .bool b => b
  | .int n => n ≠ 0
  | .decimal x => x ≠ 0
  | .nonFinite => true
  | .text s => s ≠ ""
  | .container _ isEmpty => !isEmpty

/-- `data.get(name)`. -/
def member (data : Dict String Json) (name : String) : Json := (data.find? name).getD .null

/-- An optional argument that is annotated as a number. -/
def numberArg : Json → Option (Option ℚ)
  | .null => some none
  | .int n => some (some n)
  | .decimal x => some (some x)
  | _ => none

/-- An optional argument that is annotated as a string. -/
def textArg : Json → Option (Option String)
  | .null => some none
  | .text s => some (some s)
  | _ => none

/-- `Side(value)`. -/
def sideOf : Json → Option Side
  | .text "BUY" => some .buy
  | .text "SELL" => some .sell
  | _ => none

/-- `OrderType(value)`. -/
def orderTypeOf : Json → Option Exchange.OrderType
  | .text "MARKET" => some .market
  | .text "LIMIT" => some .limit
  | .text "STOP_LIMIT" => some .stopLimit
  | .text "TRAILING_STOP" => some .trailingStop
  | .text "OCO" => some .oco
  | .text "ICEBERG" => some .iceberg
  | _ => none

/-- The arguments of the call of `submit_order`, if each is of its annotated type. -/
def orderRequest (data : Dict String Json) (side : Side) (orderType : Exchange.OrderType) (quantity : ℚ)
    (timeInForce : String) (expireTs : Option (Option ℚ)) : Option OrderRequest := do
  let symbol ← (← textArg (member data "symbol"))
  let price ← numberArg (member data "price")
  let stopLoss ← numberArg (member data "stop_loss")
  let takeProfit ← numberArg (member data "take_profit")
  let stopPrice ← numberArg (member data "stop_price")
  let limitPrice ← numberArg (member data "limit_price")
  let trailAmount ← numberArg (member data "trail_amount")
  let icebergVisibleQty ← numberArg (member data "iceberg_visible_qty")
  let ocoGroupId ← textArg (member data "oco_group_id")
  let expireTs ← match expireTs with
    | none => some none
    | some none => none
    | some (some expiry) => some (some expiry)
  return {
    symbol := symbol
    side := side
    quantity := quantity
    orderType := orderType
    price := price
    stopLoss := stopLoss
    takeProfit := takeProfit
    stopPrice := stopPrice
    limitPrice := limitPrice
    trailAmount := trailAmount
    trailPercentage := truthy ((data.find? "trail_percentage").getD (.bool true))
    icebergVisibleQty := icebergVisibleQty
    ocoGroupId := ocoGroupId
    timeInForce := timeInForce
    postOnly := truthy (member data "post_only")
    expireTs := expireTs }

/-- A message of the server. A fill carries the order as it is when the message is made. -/
inductive Message
  | error (text : String)
  | fill (order : OrderRef) (content : Order) (deduplicated : Bool)
  deriving DecidableEq

/-- What a handler hands to the network before it awaits. -/
inductive Output
  | send (client : ℕ) (message : Message)
  | broadcast (exclude : ℕ) (message : Message)
  deriving DecidableEq

def orderDedupMax : ℕ := 10000

/-- The server's state that order messages read and write. `submitted` is bookkeeping: the calls
of `submit_order` that returned an order, each with the key of its message. -/
structure Server where
  tradingActive : Bool := true
  exchanges : Dict String SimulatedExchange
  orderDedup : Dict String OrderRef := Dict.empty
  orderDedupKeys : List String := []
  submitted : List (Option String × OrderRef) := []

namespace Server

/-- The order object behind a reference. -/
def order (x : Server) (o : OrderRef) : Order :=
  ((x.exchanges.find? o.exchange).map fun exchange => exchange.orders.get o.ref).getD default

/-- Replace an exchange by what a call made of it. -/
def putExchange (x : Server) (exchangeId : String) (exchange : SimulatedExchange) : Server :=
  { x with exchanges := x.exchanges.insert exchangeId exchange }

/-- Note a call of `submit_order` that returned an order. -/
def noteSubmitted (x : Server) (key : Option String) (o : OrderRef) : Server :=
  { x with submitted := x.submitted ++ [(key, o)] }

/-- Write the `client_order_id` of an order. -/
def label (x : Server) (o : OrderRef) (clientOrderId : Option String) : Server :=
  match x.exchanges.find? o.exchange with
  | none => x
  | some exchange => x.putExchange o.exchange (exchange.withOrders
      (exchange.orders.update o.ref fun order => { order with clientOrderId := clientOrderId }))

/-- Remember an order under its key, forgetting the oldest key above the bound. -/
def remember (x : Server) : Option String → OrderRef → Server
  | none, _ => x
  | some key, o =>
    let dedup := x.orderDedup.insert key o
    let keys := x.orderDedupKeys ++ [key]
    match keys with
    | [] => { x with orderDedup := dedup, orderDedupKeys := keys }
    | oldest :: rest =>
      if orderDedupMax < keys.length then
        { x with orderDedup := dedup.erase oldest, orderDedupKeys := rest }
      else { x with orderDedup := dedup, orderDedupKeys := keys }

end Server

/-- The tasks of the server's loop. -/
abbrev Task := Coroutine Server Output

open Coroutine (get modify handOut)

/-- Answer a client with an error. -/
def sendError (client : ℕ) (text : String) : Task Unit := handOut (.send client (.error text))

/-- The key of an order message's `client_order_id` at an exchange, unless it is empty. -/
def dedupKey (rt : Runtime) (exchangeId : String) (clientOrderId : Json) : Option String :=
  if truthy clientOrderId then some (exchangeId ++ ":" ++ rt.text clientOrderId) else none

/-- The `client_order_id` that an order keeps of its message. -/
def clientOrderIdOf (rt : Runtime) : Json → Option String
  | .null => none
  | v => some (rt.text v)

/-- The call of `submit_order` with the arguments of a message. -/
def callSubmitOrder (rt : Runtime) (m : MarketView) (exchange : SimulatedExchange)
    (data : Dict String Json) (quantity : ℚ) (timeInForce : String) (expireTs : Option (Option ℚ)) :
    SimulatedExchange × SubmitResult :=
  let orderType := (data.find? "order_type").getD (.text "MARKET")
  match sideOf (member data "side"), orderTypeOf orderType with
  | none, _ => (exchange, .invalid (rt.enumError (member data "side")))
  | _, none => (exchange, .invalid (rt.enumError orderType))
  | some side, some orderType =>
    match orderRequest data side orderType quantity timeInForce expireTs with
    | none => rt.untyped exchange data
    | some req =>
      match exchange.submitOrder rt.numerics m req with
      | (exchange, some r) => (exchange, .order r)
      | (exchange, none) => (exchange, .raised)

/-- Answer a client with an error and give up on its order. -/
def refuse (client : ℕ) (text : String) : Task (Option OrderRef) := do
  sendError client text
  return none

/-- The end of `_submit_exchange_order`: the call itself and the errors it may raise. -/
def placeOrder (rt : Runtime) (m : MarketView) (client : ℕ) (exchangeId : String)
    (exchange : SimulatedExchange) (key : Option String) (data : Dict String Json) (quantity : ℚ)
    (timeInForce : String) (expireTs : Option (Option ℚ)) : Task (Option OrderRef) := do
  let called := callSubmitOrder rt m exchange data quantity timeInForce expireTs
  modify (·.putExchange exchangeId called.1)
  match called.2 with
  | .order r =>
    modify (·.noteSubmitted key ⟨exchangeId, r⟩)
    return some ⟨exchangeId, r⟩
  | .invalid error => refuse client ("Invalid order parameters: " ++ error)
  | .raised => return none

/-- `_submit_exchange_order`: the order, unless an error was answered or raised. -/
def submitExchangeOrder (rt : Runtime) (m : MarketView) (client : ℕ) (exchangeId : String)
    (exchange : SimulatedExchange) (key : Option String) (data : Dict String Json) :
    Task (Option OrderRef) :=
  match rt.float (member data "quantity") with
  | .error error => refuse client ("Invalid quantity: " ++ error)
  | .ok none => refuse client
      ("Quantity must be a positive finite number, got " ++ rt.notFinite (member data "quantity"))
  | .ok (some quantity) =>
    if quantity ≤ 0 then refuse client
      ("Quantity must be a positive finite number, got " ++ rt.numerics.str quantity)
    else
      let timeInForce := rt.upper (rt.text ((data.find? "time_in_force").getD (.text "GTC")))
      if timeInForce ∉ ["GTC", "IOC", "FOK", "GTD"] then refuse client
        ("Invalid time_in_force: " ++ timeInForce ++ " (expected GTC/IOC/FOK/GTD)")
      else
        match member data "expire_ms" with
        | .null => placeOrder rt m client exchangeId exchange key data quantity timeInForce none
        | expireMs =>
          match rt.float expireMs with
          -- The conversion stands outside the `try`.
          | .error _ => return none
          | .ok expiry => placeOrder rt m client exchangeId exchange key data quantity timeInForce
              (some (expiry.map (· / 1000)))

/-- The fields without which an order message is refused. -/
def requiredFields : List String := ["symbol", "side", "quantity"]

/-- The required fields that a message lacks. -/
def missingFields (data : Dict String Json) : List String :=
  requiredFields.filter fun field => (data.find? field).isNone

/-- A list of names as it stands in an error text. -/
def listText (names : List String) : String :=
  "[" ++ String.intercalate ", " (names.map fun name => "'" ++ name ++ "'") ++ "]"

/-- The end of `_handle_order_inner`: submit an order, remember it and tell everybody. -/
def handleNewOrder (rt : Runtime) (m : MarketView) (client : ℕ) (exchangeId : String)
    (exchange : SimulatedExchange) (key : Option String) (data : Dict String Json) : Task Unit := do
  match ← submitExchangeOrder rt m client exchangeId exchange key data with
  | none => return
  | some o =>
    modify (·.label o (clientOrderIdOf rt (member data "client_order_id")))
    modify (·.remember key o)
    let x ← get
    handOut (.send client (.fill o (x.order o) false))
    handOut (.broadcast client (.fill o (x.order o) false))

def handleOrderInner (rt : Runtime) (m : MarketView) (client : ℕ) (data : Dict String Json) :
    Task Unit := do
  let x ← get
  if !x.tradingActive then
    sendError client "Trading is stopped — send start_trading to enable orders"
  else
    match (data.find? "exchange").getD (.text "binance") with
    -- A list or an object is no key: the lookup raises.
    | .container _ _ => return
    | .text exchangeId =>
      match x.exchanges.find? exchangeId with
      | none => sendError client ("Unknown exchange: " ++ exchangeId)
      | some exchange =>
        if missingFields data ≠ [] then
          sendError client ("Missing required order fields: " ++ listText (missingFields data))
        else
          let key := dedupKey rt exchangeId (member data "client_order_id")
          match key.bind x.orderDedup.find? with
          | some original => handOut (.send client (.fill original (x.order original) true))
          | none => handleNewOrder rt m client exchangeId exchange key data
    | other => sendError client ("Unknown exchange: " ++ rt.text other)

end TradingSim.Gateway
