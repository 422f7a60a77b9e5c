import TradingSim.Exchange.Liquidation
import TradingSim.Gateway.OrderHandler

/-!
# The control plane

When a control token is configured, the messages that change the trading state are answered only on
sockets that have presented the token. The gate is a list of message types; what the handlers behind
it do to the trading state is left open here.

Of the handlers in front of the gate, those that answer with a snapshot read the accounts, and
reading an account marks its positions at the current prices.
-/

namespace TradingSim.Exchange

open Foundations

namespace Ledger

def updatePositionsPnl (price : String → ℚ) (l : Ledger) : Ledger :=
  l.account.positions.foldl (fun l r => l.markPosition r (price (l.objects.get r).symbol)) l

/-- The ledger without the marks of its positions. -/
def unmarked (l : Ledger) : Ledger :=
  { l with objects := ⟨l.objects.cells.map fun p => { p with unrealizedPnl := 0 }⟩ }

theorem unmarked_markPosition (l : Ledger) (r : Ref) (price : ℚ) :
    (l.markPosition r price).unmarked = l.unmarked := by
  have hcells : (l.objects.cells.modify r fun p => p.updatePnl price).map
      (fun p => { p with unrealizedPnl := 0 }) =
        l.objects.cells.map fun p => { p with unrealizedPnl := 0 } := by
    apply List.ext_getElem?
    intro i
    rw [List.getElem?_map, List.getElem?_map, List.getElem?_modify]
    cases l.objects.cells[i]? with
    | none => rfl
    | some p => by_cases hi : r = i <;> simp [hi, Position.updatePnl]
  simp only [unmarked, markPosition, Heap.modify, hcells]

/-- Marking the positions changes nothing but the marks. -/
theorem unmarked_updatePositionsPnl (price : String → ℚ) (l : Ledger) :
    (l.updatePositionsPnl price).unmarked = l.unmarked := by
  unfold updatePositionsPnl
  generalize l.account.positions = refs
  induction refs generalizing l with
  | nil => rfl
  | cons r refs ih => rw [List.foldl_cons, ih, unmarked_markPosition]

end Ledger

namespace SimulatedExchange

/-- What `get_account_status` does to the exchange. -/
def markPositions (price : String → ℚ) (exchange : SimulatedExchange) : SimulatedExchange :=
  { exchange with ledger := exchange.ledger.updatePositionsPnl price }

/-- The exchange without the marks of its positions. -/
def unmarked (exchange : SimulatedExchange) : SimulatedExchange :=
  { exchange with ledger := exchange.ledger.unmarked }

end SimulatedExchange

end TradingSim.Exchange

namespace TradingSim.Gateway

open Foundations

/-- What the server trades on: the flag, the exchanges and the memory of orders, the speed and the
replay, and the configuration of the market. -/
structure TradingState where
  server : Server
  tickInterval : ℚ := 1
  replayPaused : Bool := false
  replayOffset : Json := .int 0
  speedEvent : Bool := true
  volatility : Dict String ℚ := Dict.empty

namespace TradingState

/-- Reading the account of every exchange. -/
def marked (price : String → String → ℚ) (t : TradingState) : TradingState :=
  { t with server := { t.server with
      exchanges := t.server.exchanges.mapValues fun id ex => ex.markPositions (price id) } }

/-- The trading state without the marks of positions. -/
def unmarked (t : TradingState) : TradingState :=
  { t with server := { t.server with
      exchanges := t.server.exchanges.mapValues fun _ ex => ex.unmarked } }

/-- The marks of the positions at an exchange. -/
def marks (t : TradingState) (exchangeId : String) : List ℚ :=
  ((t.server.exchanges.find? exchangeId).map fun exchange =>
    exchange.ledger.openPositions.map Exchange.Position.unrealizedPnl).getD []

/-- Reading the accounts changes nothing but the marks. -/
theorem unmarked_marked (price : String → String → ℚ) (t : TradingState) :
    (t.marked price).unmarked = t.unmarked := by
  have hexchange : ∀ id (ex : Exchange.SimulatedExchange),
      (ex.markPositions (price id)).unmarked = ex.unmarked := by
    intro id ex
    simp only [Exchange.SimulatedExchange.unmarked, Exchange.SimulatedExchange.markPositions,
      Exchange.Ledger.unmarked_updatePositionsPnl]
  simp only [unmarked, marked, Dict.mapValues, List.map_map, Function.comp_def, hexchange]

end TradingState

/-- How often a socket sent messages in the window of its rate limit. -/
structure MessageCount where
  count : ℕ
  windowStart : ℚ

/-- What the server keeps about its sockets. -/
structure Sockets where
  authedSockets : List ℕ := []
  clientVersions : Dict ℕ Json := Dict.empty
  clientEncodings : Dict ℕ Json := Dict.empty
  clientSubscriptions : Dict ℕ (List Json) := Dict.empty
  messageCounts : Dict ℕ MessageCount := Dict.empty

/-- The state that the handlers of all sockets share. -/
structure GatewayState where
  trading : TradingState
  sockets : Sockets := {}

/-- Replace the trading state. -/
def GatewayState.setTrading (trading : TradingState) (g : GatewayState) : GatewayState :=
  { g with trading := trading }

/-- What a socket is sent. The market data of a snapshot is left out. -/
inductive Reply
  | welcome (tradingActive : Bool)
  | snapshot
  | syncState
  | pong
  | authOk
  | authFailed
  | optionsChain
  | error (text : String)
  /-- An answer of a handler behind the gate. -/
  | control (text : String)
  deriving DecidableEq

/-- How the handling of a message ends: with the next one, or with an exception that
`_process_message` does not catch. -/
inductive Handled
  | returned
  | escaped
  deriving DecidableEq

/-- A message as it is decoded: not at all, as an object, or as another value. -/
inductive Incoming
  | undecodable
  | object (data : Dict String Json)
  | value

/-- What the handlers see of the clock and of the market. -/
structure Moment where
  /-- `time.monotonic()`. -/
  now : ℚ
  price : String → String → ℚ
  /-- There are candles to send. -/
  hasHistory : Bool

/-- What `_handle_options_chain` does with the market's data, all of which it only reads. -/
inductive OptionsResult
  | chain
  | unknown (text : String)
  | caught
  | escapes

/-- The configuration of the server, what it takes from the language, and the handlers behind the
gate. -/
structure ControlConfig where
  controlToken : String
  hasMsgpack : Bool
  /-- `str` of a value that is no string. -/
  str : Json → String
  symbols : List Json
  /-- The items of a value that can be iterated over. -/
  items : Json → Option (List Json)
  isList : Json → Bool
  options : Moment → Dict String ℚ → Dict String Json → OptionsResult
  controls : String → ℕ → Dict String Json → Coroutine TradingState (ℕ × Reply) Handled
  rateLimitWindow : ℚ := 60
  rateLimitMax : ℕ := 1000

/-- `str` of a value. -/
def ControlConfig.text (cfg : ControlConfig) : Json → String
  | .text s => s
  | v => cfg.str v

def controlTypes : List String :=
  ["order", "close_position", "cancel_order", "cancel_all_orders", "start_trading", "stop_trading",
    "update_config", "set_speed", "replay"]

/-- The handling of one message. -/
abbrev Handling := Coroutine GatewayState (ℕ × Reply) Handled

open Coroutine (get modify handOut)

/-- The value can be an element of a set. -/
def hashable : Json → Bool
  | .container _ _ => false
  | _ => true

/-- `secrets.compare_digest` of two strings; it raises on characters outside ASCII. -/
def compareDigest (a b : String) : Option Bool :=
  if a.toList.all (·.val < 128) ∧ b.toList.all (·.val < 128) then some (a = b) else none

/-- The value compares with a number. -/
def isNumeric : Json → Bool
  | .int _ | .decimal _ | .nonFinite | .bool _ => true
  | _ => false

namespace Sockets

def checkRateLimit (cfg : ControlConfig) (now : ℚ) (c : ℕ) (k : Sockets) : Bool × Sockets :=
  match k.messageCounts.find? c with
  | none => (true, { k with messageCounts := k.messageCounts.insert c ⟨0, now⟩ })
  | some counts =>
    if cfg.rateLimitWindow ≤ now - counts.windowStart then
      (true, { k with messageCounts := k.messageCounts.insert c ⟨0, now⟩ })
    else if cfg.rateLimitMax ≤ counts.count then (false, k)
    else (true, { k with
      messageCounts := k.messageCounts.insert c { counts with count := counts.count + 1 } })

/-- The start of `_handle_client`. -/
def register (cfg : ControlConfig) (now : ℚ) (c : ℕ) (k : Sockets) : Sockets :=
  { k with
    clientSubscriptions := k.clientSubscriptions.insert c cfg.symbols
    messageCounts := k.messageCounts.insert c ⟨0, now⟩ }

/-- `_cleanup_client`. -/
def cleanup (c : ℕ) (k : Sockets) : Sockets where
  authedSockets := k.authedSockets.filter (· ≠ c)
  clientVersions := k.clientVersions.erase c
  clientEncodings := k.clientEncodings.erase c
  clientSubscriptions := k.clientSubscriptions.erase c
  messageCounts := k.messageCounts.erase c

/-- Remove symbols from what a client is subscribed to. -/
def unsubscribe (c : ℕ) (symbols : List Json) (k : Sockets) : Sockets :=
  let current := (k.clientSubscriptions.find? c).getD []
  { k with clientSubscriptions := k.clientSubscriptions.insert c (current.filter (· ∉ symbols)) }

/-- `_authed_sockets.add`. -/
def authorize (c : ℕ) (k : Sockets) : Sockets := { k with authedSockets := k.authedSockets.insert c }

end Sockets

/-- Change what is kept about the sockets. -/
def modifySockets (f : Sockets → Sockets) : Coroutine GatewayState (ℕ × Reply) Unit :=
  modify fun g => { g with sockets := f g.sockets }

/-- `_send_json`: the comparison of the client's version with a number may raise. -/
def sendJson (c : ℕ) (reply : Reply) : Handling := do
  let g ← get
  if isNumeric ((g.sockets.clientVersions.find? c).getD (.int 1)) then
    handOut (c, reply)
    return .returned
  else return .returned

def sendMarketSnapshot (t : Moment) (c : ℕ) : Handling := do
  modify fun g => { g with trading := g.trading.marked t.price }
  sendJson c .snapshot

/-- `_send_sync_state`: it raises if there are candles and the time does not compare with theirs. -/
def sendSyncState (t : Moment) (c : ℕ) (lastTs : Json) : Handling :=
  if t.hasHistory ∧ isNumeric lastTs = false then return .returned
  else do
    modify fun g => { g with trading := g.trading.marked t.price }
    sendJson c .syncState

def handleAuth (cfg : ControlConfig) (c : ℕ) (data : Dict String Json) : Handling := do
  if cfg.controlToken = "" then
    modifySockets (·.authorize c)
    handOut (c, .authOk)
    return .returned
  else
    match compareDigest (cfg.text ((data.find? "token").getD (.text ""))) cfg.controlToken with
    | none => return .returned
    | some true =>
      modifySockets (·.authorize c)
      handOut (c, .authOk)
      return .returned
    | some false =>
      handOut (c, .authFailed)
      return .returned

/-- The symbols a client subscribes to: none if the value is not true, all if it is no list, and an
exception if the list has an item that no set can have. -/
def subscribedSymbols (cfg : ControlConfig) (symbols : Json) : Option (Option (List Json)) :=
  if truthy symbols = false then some none
  else if cfg.isList symbols then
    let items := (cfg.items symbols).getD []
    if items.all hashable then some (some items) else none
  else some (some cfg.symbols)

def handleSubscribe (cfg : ControlConfig) (t : Moment) (c : ℕ) (data : Dict String Json) : Handling := do
  let encoding := (data.find? "encoding").getD (.text "json")
  let encoding := if encoding = .text "msgpack" ∧ cfg.hasMsgpack = false then .text "json" else encoding
  modifySockets fun k =>
    { k with
      clientVersions := k.clientVersions.insert c ((data.find? "protocol_version").getD (.int 1))
      clientEncodings := k.clientEncodings.insert c encoding }
  match subscribedSymbols cfg (member data "symbols") with
  | none => return .returned
  | some none => sendMarketSnapshot t c
  | some (some symbols) =>
    modifySockets fun k => { k with clientSubscriptions := k.clientSubscriptions.insert c symbols }
    sendMarketSnapshot t c

def handleUnsubscribe (cfg : ControlConfig) (c : ℕ) (data : Dict String Json) : Handling := do
  let symbols := (data.find? "symbols").getD (.container "[]" true)
  if truthy symbols = false then return .returned
  else
    match cfg.items symbols with
    | none => return .returned
    | some items =>
      if items.all hashable = false then return .returned
      else
        modifySockets (·.unsubscribe c items)
        return .returned

def handleOptionsChain (cfg : ControlConfig) (t : Moment) (c : ℕ) (data : Dict String Json) :
    Handling := do
  let g ← get
  match cfg.options t g.trading.volatility data with
  | .chain => sendJson c .optionsChain
  | .unknown text => sendJson c (.error text)
  | .caught => return .returned
  | .escapes => return .escaped

/-- A handler behind the gate, run on the shared state. -/
def onTrading (task : Coroutine TradingState (ℕ × Reply) Handled) : Handling :=
  task.zoom GatewayState.trading GatewayState.setTrading

/-- The dispatch of `_handle_message`, behind the gate. -/
def dispatch (cfg : ControlConfig) (t : Moment) (c : ℕ)
    (data : Dict String Json) (type : String) : Handling :=
  if type ∈ controlTypes then onTrading (cfg.controls type c data)
  else if type = "subscribe" then handleSubscribe cfg t c data
  else if type = "unsubscribe" then handleUnsubscribe cfg c data
  else if type = "ping" then do
    handOut (c, .pong)
    return .returned
  else if type = "sync_state" then
    sendSyncState t c ((data.find? "last_timestamp").getD (.int 0))
  else if type = "options_chain" then handleOptionsChain cfg t c data
  else return .returned

/-- `_handle_message`. A type that cannot be an element of a set raises at the gate, and no message
is dispatched for a type that is no string. -/
def handleMessage (cfg : ControlConfig) (t : Moment) (c : ℕ) (data : Dict String Json) : Handling := do
  match member data "type" with
  | .text type =>
    if type = "auth" then handleAuth cfg c data
    else
      let g ← get
      if cfg.controlToken ≠ "" ∧ type ∈ controlTypes ∧ c ∉ g.sockets.authedSockets then
        handOut (c, .error ("'" ++ type ++ "' requires auth — send " ++
          "\x7b\"type\":\"auth\",\"token\":...\x7d first"))
        return .returned
      else dispatch cfg t c data type
  | _ => return .returned

/-- `_process_message`: the rate limit, the decoding and the handling of a message. -/
def processMessage (cfg : ControlConfig) (t : Moment) (c : ℕ) (incoming : Incoming) : Handling := do
  let g ← get
  let (within, sockets) := g.sockets.checkRateLimit cfg t.now c
  modifySockets fun _ => sockets
  if within = false then
    handOut (c, .error "Rate limit exceeded — too many messages")
    return .returned
  else
    match incoming with
    | .undecodable => return .returned
    | .value => return .escaped
    | .object data => handleMessage cfg t c data

/-- Where the handler of a socket stands. -/
inductive SocketStage
  | welcoming
  | listening
  | answering (rest : Handling)

/-- The server and the handlers of its sockets. `presented` notes the sockets that have sent the
token on the connection they have. -/
structure ControlPlane where
  state : GatewayState
  handlers : Dict ℕ SocketStage := Dict.empty
  presented : List ℕ := []

/-- What happens to a socket, and what other code does to the trading state. -/
inductive SocketEvent
  | connects (c : ℕ) (t : Moment)
  | receives (c : ℕ) (t : Moment) (incoming : Incoming)
  /-- What the handler of the socket awaits is there. -/
  | resumes (c : ℕ) (t : Moment)
  /-- `ConnectionClosed` is raised in the handler. -/
  | drops (c : ℕ)
  | outside (change : TradingState → TradingState)

/-- The socket whose handler runs. -/
def SocketEvent.socket : SocketEvent → Option ℕ
  | .connects c _ | .receives c _ _ | .resumes c _ | .drops c => some c
  | .outside _ => none

/-- The message presents the control token. -/
def Incoming.presents (cfg : ControlConfig) : Incoming → Bool
  | .object data => member data "type" = .text "auth" ∧
      cfg.text ((data.find? "token").getD (.text "")) = cfg.controlToken
  | _ => false

/-- The message asks for a snapshot or for what it missed. -/
def Incoming.asksSnapshot : Incoming → Prop
  | .object data =>
    member data "type" = .text "subscribe" ∨ member data "type" = .text "sync_state"
  | _ => False

namespace ControlPlane

/-- The handler of a socket ends. -/
def close (x : ControlPlane) (c : ℕ) : ControlPlane where
  state := { x.state with sockets := x.state.sockets.cleanup c }
  handlers := x.handlers.erase c
  presented := x.presented.filter (· ≠ c)

/-- Take over what running a handler led to. -/
def settle (x : ControlPlane) (c : ℕ)
    (ran : GatewayState × Coroutine.Outcome GatewayState (ℕ × Reply) Handled) : ControlPlane :=
  let y := { x with state := ran.1 }
  match ran.2 with
  | .ended .returned => { y with handlers := y.handlers.insert c .listening }
  | .ended .escaped => y.close c
  | .awaits _ rest => { y with handlers := y.handlers.insert c (.answering rest) }

def step (cfg : ControlConfig) (x : ControlPlane) : SocketEvent → ControlPlane
  | .connects c t =>
    match x.handlers.find? c with
    | none =>
      { state := { x.state with sockets := x.state.sockets.register cfg t.now c }
        handlers := x.handlers.insert c .welcoming
        presented := x.presented.filter (· ≠ c) }
    | some _ => x
  | .receives c t incoming =>
    match x.handlers.find? c with
    | some .listening =>
      let y := if incoming.presents cfg then { x with presented := c :: x.presented } else x
      y.settle c ((processMessage cfg t c incoming).advance x.state)
    | _ => x
  | .resumes c t =>
    match x.handlers.find? c with
    | some .welcoming => x.settle c ((sendMarketSnapshot t c).advance x.state)
    | some (.answering rest) => x.settle c (rest.advance x.state)
    | _ => x
  | .drops c => if (x.handlers.find? c).isSome then x.close c else x
  | .outside change => { x with state := { x.state with trading := change x.state.trading } }

/-- The event makes a handler that is in front of the gate read the accounts: the connection's first
snapshot is due, or a message asks for one. -/
def takesSnapshot (x : ControlPlane) : SocketEvent → Prop
  | .receives _ _ incoming => incoming.asksSnapshot
  | .resumes c _ => x.handlers.find? c = some .welcoming
  | _ => False

/-- A socket that has not presented the token leaves the trading state as it is. -/
def LeavesTrading (cfg : ControlConfig) (x : ControlPlane) (e : SocketEvent) : Prop :=
  ∀ c, e.socket = some c → c ∉ x.presented → (x.step cfg e).state.trading = x.state.trading

/-- A socket that has not presented the token leaves the trading state as it is, but for the marks
of the positions when it is sent a snapshot. -/
def LeavesTradingButMarks (cfg : ControlConfig) (x : ControlPlane) (e : SocketEvent) : Prop :=
  ∀ c, e.socket = some c → c ∉ x.presented →
    (x.step cfg e).state.trading = x.state.trading ∨
      x.takesSnapshot e ∧ (∃ price, (x.step cfg e).state.trading = x.state.trading.marked price) ∧
        (x.step cfg e).state.trading.unmarked = x.state.trading.unmarked

/-- Only sockets that have presented the token are in `_authed_sockets`. -/
def AuthedPresented (x : ControlPlane) : Prop :=
  ∀ c ∈ x.state.sockets.authedSockets, c ∈ x.presented

/-- What a handler in front of the gate does between two awaits: it may mark positions and authorize its
socket, and writes nothing after its first await. -/
structure Confined (marks authorizes : Prop) (c : ℕ) (price : String → String → ℚ) (g : GatewayState)
    (ran : GatewayState × Coroutine.Outcome GatewayState (ℕ × Reply) Handled) : Prop where
  trading : ran.1.trading = g.trading ∨ marks ∧ ran.1.trading = g.trading.marked price
  authed : ∀ d ∈ ran.1.sockets.authedSockets,
    d ∈ g.sockets.authedSockets ∨ d = c ∧ authorizes
  quiet : ran.2.Quiet

section Handlers

variable {cfg : ControlConfig} {t : Moment} {c : ℕ} {g : GatewayState} {data : Dict String Json}
  {marks authorizes : Prop}

/-- A handler that never writes. -/
theorem confined_of_quiet {task : Handling} (h : task.Quiet) (price : String → String → ℚ) :
    Confined marks authorizes c price g (task.advance g) := by
  obtain ⟨hstate, hquiet⟩ := h.advance g
  constructor
  · exact Or.inl (by rw [hstate])
  · intro d hd
    rw [hstate] at hd
    exact Or.inl hd
  · exact hquiet

theorem confined_pure (price : String → String → ℚ) (handled : Handled) :
    Confined marks authorizes c price g ((pure handled : Handling).advance g) :=
  confined_of_quiet (Coroutine.quiet_pure handled) price

theorem confined_answer (price : String → String → ℚ) (reply : Reply) (handled : Handled) :
    Confined marks authorizes c price g
      ((handOut (c, reply) >>= fun _ => (pure handled : Handling)).advance g) :=
  confined_of_quiet (by simp) price

theorem quiet_sendJson (c : ℕ) (reply : Reply) : (sendJson c reply).Quiet := by
  rw [sendJson, Coroutine.quiet_get_bind]
  intro g
  split <;> simp

theorem Confined.of_sockets {g' : GatewayState}
    {ran : GatewayState × Coroutine.Outcome GatewayState (ℕ × Reply) Handled}
    {price : String → String → ℚ} (h : Confined marks authorizes c price g' ran)
    (htrading : g'.trading = g.trading) (hauthed : g'.sockets.authedSockets = g.sockets.authedSockets) :
    Confined marks authorizes c price g ran := by
  constructor
  · rw [← htrading]
    exact h.trading
  · rw [← hauthed]
    exact h.authed
  · exact h.quiet

theorem Confined.of_authorizes {authorizes' : Prop}
    {ran : GatewayState × Coroutine.Outcome GatewayState (ℕ × Reply) Handled}
    {price : String → String → ℚ} (h : Confined marks authorizes c price g ran)
    (himp : authorizes → authorizes') : Confined marks authorizes' c price g ran :=
  ⟨h.trading, fun d hd => (h.authed d hd).imp_right fun hauth => ⟨hauth.1, himp hauth.2⟩, h.quiet⟩

/-- Reading the accounts before an answer. -/
theorem confined_marked (hmarks : marks) (reply : Reply) : Confined marks authorizes c t.price g
    ((do modify fun g => { g with trading := g.trading.marked t.price }
         sendJson c reply : Handling).advance g) := by
  obtain ⟨hstate, hquiet⟩ := (quiet_sendJson c reply).advance
    { g with trading := g.trading.marked t.price }
  rw [Coroutine.advance_modify_bind]
  constructor
  · exact Or.inr ⟨hmarks, by rw [hstate]⟩
  · intro d hd
    rw [hstate] at hd
    exact Or.inl hd
  · exact hquiet

theorem confined_sendSyncState (hmarks : marks) (lastTs : Json) :
    Confined marks authorizes c t.price g ((sendSyncState t c lastTs).advance g) := by
  unfold sendSyncState
  split
  · exact confined_pure _ _
  · exact confined_marked hmarks _

theorem confined_handleSubscribe (hmarks : marks) :
    Confined marks authorizes c t.price g ((handleSubscribe cfg t c data).advance g) := by
  have hsnapshot : ∀ k : Sockets, k.authedSockets = g.sockets.authedSockets →
      Confined marks authorizes c t.price g
        ((sendMarketSnapshot t c).advance { g with sockets := k }) :=
    fun k hk => (confined_marked hmarks .snapshot).of_sockets rfl hk
  simp only [handleSubscribe, modifySockets, Coroutine.advance_modify_bind]
  split
  · exact ⟨Or.inl rfl, fun _ => Or.inl, trivial⟩
  · exact hsnapshot _ rfl
  · exact hsnapshot _ rfl

theorem confined_handleUnsubscribe :
    Confined marks authorizes c t.price g ((handleUnsubscribe cfg c data).advance g) := by
  simp only [handleUnsubscribe]
  split
  · exact confined_pure _ _
  · split
    · exact confined_pure _ _
    · split
      · exact confined_pure _ _
      · exact ⟨Or.inl rfl, fun _ => Or.inl, trivial⟩

theorem confined_handleOptionsChain :
    Confined marks authorizes c t.price g ((handleOptionsChain cfg t c data).advance g) := by
  have hquiet : (handleOptionsChain cfg t c data).Quiet := by
    rw [handleOptionsChain, Coroutine.quiet_get_bind]
    intro g
    split
    · exact quiet_sendJson c _
    · exact quiet_sendJson c _
    · trivial
    · trivial
  exact confined_of_quiet hquiet _

theorem confined_handleAuth (htoken : cfg.controlToken ≠ "") : Confined marks
    (cfg.text ((data.find? "token").getD (.text "")) = cfg.controlToken) c t.price g
      ((handleAuth cfg c data).advance g) := by
  simp only [handleAuth, if_neg htoken]
  split
  · exact confined_pure _ _
  · rename_i hequal
    have hcorrect : cfg.text ((data.find? "token").getD (.text "")) = cfg.controlToken := by
      unfold compareDigest at hequal
      split at hequal
      · exact of_decide_eq_true (Option.some.inj hequal)
      · cases hequal
    refine ⟨Or.inl rfl, fun d hd => ?_, trivial⟩
    rcases List.mem_insert_iff.mp hd with rfl | hold
    · exact Or.inr ⟨rfl, hcorrect⟩
    · exact Or.inl hold
  · exact confined_answer _ _ _

theorem authedSockets_checkRateLimit (cfg : ControlConfig) (now : ℚ) (c : ℕ) (k : Sockets) :
    (k.checkRateLimit cfg now c).2.authedSockets = k.authedSockets := by
  unfold Sockets.checkRateLimit
  split
  · rfl
  · split_ifs <;> rfl

theorem handleMessage_cases (htoken : cfg.controlToken ≠ "") (g : GatewayState) (data : Dict String Json) :
    Confined (Incoming.asksSnapshot (.object data)) (Incoming.presents cfg (.object data) = true) c
        t.price g ((handleMessage cfg t c data).advance g) ∨ c ∈ g.sockets.authedSockets ∧
        ∃ task, (handleMessage cfg t c data).advance g = (onTrading task).advance g := by
  unfold handleMessage
  split
  · rename_i type htype
    split
    · rename_i hauth
      left
      refine (confined_handleAuth htoken).of_authorizes fun hcorrect => ?_
      simp [Incoming.presents, htype, hauth, hcorrect]
    · rw [Coroutine.advance_get_bind]
      split
      · exact Or.inl (confined_answer _ _ _)
      · rename_i hgate
        unfold dispatch
        split
        · rename_i hcontrol
          right
          refine ⟨?_, _, rfl⟩
          by_contra hnot
          exact hgate ⟨htoken, hcontrol, hnot⟩
        · left
          split
          · rename_i hsubscribe
            exact confined_handleSubscribe (Or.inl (by rw [htype, hsubscribe]))
          · split
            · exact confined_handleUnsubscribe
            · split
              · exact confined_answer _ _ _
              · split
                · rename_i hsync
                  exact confined_sendSyncState (Or.inr (by rw [htype, hsync])) _
                · split
                  · exact confined_handleOptionsChain
                  · exact confined_pure _ _
  · exact Or.inl (confined_pure _ _)

/-- The same for a message as it arrives: the rate limit and the decoding authorize nobody. -/
theorem processMessage_cases (htoken : cfg.controlToken ≠ "") (g : GatewayState) (incoming : Incoming) :
    Confined incoming.asksSnapshot (incoming.presents cfg = true) c t.price g
        ((processMessage cfg t c incoming).advance g) ∨
      c ∈ g.sockets.authedSockets ∧ ∃ task k, k.authedSockets = g.sockets.authedSockets ∧
        (processMessage cfg t c incoming).advance g =
          (onTrading task).advance { g with sockets := k } := by
  have hauthed := authedSockets_checkRateLimit cfg t.now c g.sockets
  simp only [processMessage, modifySockets, Coroutine.advance_get_bind,
    Coroutine.advance_modify_bind]
  generalize (g.sockets.checkRateLimit cfg t.now c).2 = k at hauthed
  split
  · exact Or.inl ⟨Or.inl rfl, fun d hd => Or.inl (hauthed ▸ hd), trivial⟩
  · split
    · exact Or.inl ⟨Or.inl rfl, fun d hd => Or.inl (hauthed ▸ hd), trivial⟩
    · exact Or.inl ⟨Or.inl rfl, fun d hd => Or.inl (hauthed ▸ hd), trivial⟩
    · rename_i data
      obtain hconfined | ⟨hmem, task, heq⟩ :=
        handleMessage_cases (c := c) (t := t) htoken { g with sockets := k } data
      · exact Or.inl (hconfined.of_sockets rfl hauthed)
      · exact Or.inr ⟨hauthed ▸ hmem, task, k, hauthed, heq⟩

end Handlers

/-- Only sockets with a handler that have presented the token are authorized, and a handler that awaits will
write nothing, or its socket has presented the token. -/
structure Guarded (x : ControlPlane) : Prop where
  authed : ∀ c ∈ x.state.sockets.authedSockets, c ∈ x.presented ∧ (x.handlers.find? c).isSome
  answering : ∀ c rest, x.handlers.find? c = some (.answering rest) →
    rest.Quiet ∨ c ∈ x.presented ∧ ∃ task, rest = onTrading task

section Steps

variable {cfg : ControlConfig} {x : ControlPlane} {c : ℕ}

/-- A handler ends with its authorization. -/
theorem Guarded.close (h : x.Guarded) (c : ℕ) : (x.close c).Guarded := by
  constructor
  · intro d hd
    obtain ⟨hd, hne⟩ := List.mem_filter.mp hd
    have hne : d ≠ c := of_decide_eq_true hne
    obtain ⟨hpresented, hhandler⟩ := h.authed d hd
    refine ⟨List.mem_filter.mpr ⟨hpresented, decide_eq_true hne⟩, ?_⟩
    rw [ControlPlane.close, Dict.find?_erase_of_ne _ hne]
    exact hhandler
  · intro d rest hd
    rw [ControlPlane.close, Dict.find?_erase] at hd
    split at hd
    · cases hd
    · rename_i hne
      refine (h.answering d rest hd).imp_right fun hbehind => ⟨?_, hbehind.2⟩
      exact List.mem_filter.mpr ⟨hbehind.1, decide_eq_true hne⟩

/-- A handler has another stage. -/
theorem Guarded.insert (h : x.Guarded) {stage : SocketStage} (hstage : ∀ rest, stage = .answering rest →
      rest.Quiet ∨ c ∈ x.presented ∧ ∃ task, rest = onTrading task) :
    ({ x with handlers := x.handlers.insert c stage } : ControlPlane).Guarded := by
  constructor
  · intro d hd
    obtain ⟨hpresented, hhandler⟩ := h.authed d hd
    refine ⟨hpresented, ?_⟩
    rw [Dict.find?_insert]
    split
    · rfl
    · exact hhandler
  · intro d rest hd
    rw [Dict.find?_insert] at hd
    split at hd
    · rename_i hd'
      subst hd'
      exact hstage rest (Option.some.inj hd)
    · exact h.answering d rest hd

/-- Taking over a run that authorizes at most its own socket, for the token. -/
theorem Guarded.settle (h : x.Guarded) (hhandler : (x.handlers.find? c).isSome)
    {ran : GatewayState × Coroutine.Outcome GatewayState (ℕ × Reply) Handled}
    (hauthed : ∀ d ∈ ran.1.sockets.authedSockets,
      d ∈ x.state.sockets.authedSockets ∨ d = c ∧ c ∈ x.presented)
    (hrest : ∀ o rest, ran.2 = .awaits o rest →
      rest.Quiet ∨ c ∈ x.presented ∧ ∃ task, rest = onTrading task) : (x.settle c ran).Guarded := by
  have hstate : ({ x with state := ran.1 } : ControlPlane).Guarded := by
    refine ⟨fun d hd => ?_, h.answering⟩
    rcases hauthed d hd with hold | ⟨rfl, hpresented⟩
    · exact h.authed d hold
    · exact ⟨hpresented, hhandler⟩
  unfold ControlPlane.settle
  split
  · exact hstate.insert fun rest hstage => (by cases hstage)
  · exact hstate.close c
  · rename_i o rest hawaits
    refine hstate.insert fun rest' hstage => ?_
    cases hstage
    exact hrest o rest hawaits

theorem trading_settle (x : ControlPlane) (c : ℕ)
    (ran : GatewayState × Coroutine.Outcome GatewayState (ℕ × Reply) Handled) :
    (x.settle c ran).state.trading = ran.1.trading := by
  unfold ControlPlane.settle
  split <;> rfl

/-- A handler behind the gate leaves what is kept about the sockets alone. -/
theorem advance_onTrading (task : Coroutine TradingState (ℕ × Reply) Handled) (g : GatewayState) :
    ((onTrading task).advance g).1.sockets = g.sockets ∧
      ∀ o rest, ((onTrading task).advance g).2 = .awaits o rest → ∃ task', rest = onTrading task' := by
  have hzoom : (onTrading task).advance g = (GatewayState.setTrading (task.advance g.trading).1 g,
      (task.advance g.trading).2.zoom GatewayState.trading GatewayState.setTrading) := by
    refine Coroutine.advance_zoom ?_ ?_ ?_ task g
    · exact fun _ _ => rfl
    · exact fun _ _ _ => rfl
    · exact fun _ => rfl
  rw [hzoom]
  refine ⟨rfl, fun o rest hawaits => ?_⟩
  cases houtcome : (task.advance g.trading).2 with
  | ended handled =>
    rw [houtcome] at hawaits
    cases hawaits
  | awaits o' next =>
    rw [houtcome] at hawaits
    cases hawaits
    exact ⟨next, rfl⟩

theorem Guarded.connects (h : x.Guarded) (t : Moment) : (x.step cfg (.connects c t)).Guarded ∧
      (x.step cfg (.connects c t)).state.trading = x.state.trading := by
  simp only [ControlPlane.step]
  cases hfind : x.handlers.find? c with
  | some stage => exact ⟨h, rfl⟩
  | none =>
    refine ⟨⟨fun d hd => ?_, fun d rest hd => ?_⟩, rfl⟩
    · obtain ⟨hpresented, hhandler⟩ := h.authed d hd
      have hne : d ≠ c := by
        rintro rfl
        rw [hfind] at hhandler
        cases hhandler
      refine ⟨List.mem_filter.mpr ⟨hpresented, decide_eq_true hne⟩, ?_⟩
      rw [Dict.find?_insert_of_ne _ hne]
      exact hhandler
    · rw [Dict.find?_insert] at hd
      split at hd
      · cases hd
      · rename_i hne
        refine (h.answering d rest hd).imp_right fun hbehind => ⟨?_, hbehind.2⟩
        exact List.mem_filter.mpr ⟨hbehind.1, decide_eq_true hne⟩

/-- A message: its handler is confined, or its socket is authorized. -/
theorem Guarded.receives (h : x.Guarded) (htoken : cfg.controlToken ≠ "") (t : Moment)
    (incoming : Incoming) : (x.step cfg (.receives c t incoming)).Guarded ∧
      (c ∉ x.presented → (x.step cfg (.receives c t incoming)).state.trading = x.state.trading ∨
        incoming.asksSnapshot ∧
          (x.step cfg (.receives c t incoming)).state.trading = x.state.trading.marked t.price) := by
  simp only [ControlPlane.step]
  split
  · rename_i hfind
    have hnoted : (if incoming.presents cfg = true then { x with presented := c :: x.presented }
        else x).Guarded := by
      split
      · refine ⟨fun d hd => ?_, fun d rest hd => ?_⟩
        · exact ⟨List.mem_cons_of_mem c (h.authed d hd).1, (h.authed d hd).2⟩
        · exact (h.answering d rest hd).imp_right fun hbehind =>
            ⟨List.mem_cons_of_mem c hbehind.1, hbehind.2⟩
      · exact h
    rw [trading_settle]
    obtain hconfined | ⟨hmem, task, k, hk, heq⟩ :=
      processMessage_cases (c := c) (t := t) htoken x.state incoming
    · refine ⟨hnoted.settle ?_ (fun d hd => ?_) (fun o rest hrest => ?_), fun _ => hconfined.trading⟩
      · split <;> simp [hfind]
      · rcases hconfined.authed d hd with hold | ⟨rfl, hpresents⟩
        · left
          split
          · exact hold
          · exact hold
        · right
          rw [if_pos hpresents]
          exact ⟨rfl, List.mem_cons_self⟩
      · left
        have hquiet := hconfined.quiet
        rw [hrest] at hquiet
        exact hquiet
    · have hpresented := (h.authed c hmem).1
      obtain ⟨hsockets, hrest⟩ := advance_onTrading task { x.state with sockets := k }
      rw [heq]
      refine ⟨hnoted.settle ?_ (fun d hd => ?_) (fun o rest hawaits => ?_),
        fun hnot => absurd hpresented hnot⟩
      · split <;> simp [hfind]
      · left
        rw [hsockets, hk] at hd
        split
        · exact hd
        · exact hd
      · right
        refine ⟨?_, hrest o rest hawaits⟩
        split
        · exact List.mem_cons_of_mem c hpresented
        · exact hpresented
  · exact ⟨h, fun _ => Or.inl rfl⟩

/-- A handler that goes on: it sends the first snapshot, or it is one that will write nothing, or
its socket is authorized. -/
theorem Guarded.resumes (h : x.Guarded) (t : Moment) : (x.step cfg (.resumes c t)).Guarded ∧
    (c ∉ x.presented → (x.step cfg (.resumes c t)).state.trading = x.state.trading ∨
      x.takesSnapshot (.resumes c t) ∧
        (x.step cfg (.resumes c t)).state.trading = x.state.trading.marked t.price) := by
  simp only [ControlPlane.step]
  split
  · rename_i hfind
    have hconfined : Confined (x.takesSnapshot (.resumes c t)) False c t.price x.state
        ((sendMarketSnapshot t c).advance x.state) := confined_marked hfind _
    rw [trading_settle]
    refine ⟨h.settle (by rw [hfind]; rfl) (fun d hd => ?_) (fun o rest hrest => ?_),
      fun _ => hconfined.trading⟩
    · exact (hconfined.authed d hd).imp_right fun hauth => hauth.2.elim
    · have hquiet := hconfined.quiet
      rw [hrest] at hquiet
      exact Or.inl hquiet
  · rename_i rest hfind
    rw [trading_settle]
    have hhandler : (x.handlers.find? c).isSome := by rw [hfind]; rfl
    rcases h.answering c rest hfind with hquiet | ⟨hpresented, task, rfl⟩
    · obtain ⟨hstate, hrest⟩ := hquiet.advance x.state
      refine ⟨h.settle hhandler (fun d hd => ?_) (fun o rest' hawaits => ?_), fun _ => ?_⟩
      · rw [hstate] at hd
        exact Or.inl hd
      · rw [hawaits] at hrest
        exact Or.inl hrest
      · rw [hstate]
        exact Or.inl rfl
    · obtain ⟨hsockets, hrest⟩ := advance_onTrading task x.state
      refine ⟨h.settle hhandler (fun d hd => ?_) (fun o rest' hawaits => ?_),
        fun hnot => absurd hpresented hnot⟩
      · rw [hsockets] at hd
        exact Or.inl hd
      · exact Or.inr ⟨hpresented, hrest o rest' hawaits⟩
  · exact ⟨h, fun _ => Or.inl rfl⟩

/-- Every event keeps the invariant. -/
theorem Guarded.step (h : x.Guarded) (htoken : cfg.controlToken ≠ "") (e : SocketEvent) :
    (x.step cfg e).Guarded := by
  cases e with
  | connects c t => exact (h.connects t).1
  | receives c t incoming => exact (h.receives htoken t incoming).1
  | resumes c t => exact (h.resumes t).1
  | drops c =>
    simp only [ControlPlane.step]
    split
    · exact h.close c
    · exact h
  | outside change => exact ⟨h.authed, h.answering⟩

theorem Guarded.leavesTradingButMarks (h : x.Guarded) (htoken : cfg.controlToken ≠ "")
    (e : SocketEvent) : x.LeavesTradingButMarks cfg e := by
  have hmarks : ∀ {marks : Prop} {price : String → String → ℚ} {y : ControlPlane},
      y.state.trading = x.state.trading ∨ marks ∧ y.state.trading = x.state.trading.marked price →
      y.state.trading = x.state.trading ∨
        marks ∧ (∃ price, y.state.trading = x.state.trading.marked price) ∧
          y.state.trading.unmarked = x.state.trading.unmarked := by
    rintro marks price y (hsame | ⟨hmay, hmarked⟩)
    · exact Or.inl hsame
    · exact Or.inr ⟨hmay, ⟨price, hmarked⟩, by rw [hmarked, TradingState.unmarked_marked]⟩
  intro c hc hnot
  cases e with
  | connects c' t => exact Or.inl (h.connects t).2
  | receives c' t incoming =>
    obtain rfl := Option.some.inj hc
    exact hmarks ((h.receives htoken t incoming).2 hnot)
  | resumes c' t =>
    obtain rfl := Option.some.inj hc
    exact hmarks ((h.resumes t).2 hnot)
  | drops c' =>
    left
    simp only [ControlPlane.step]
    split <;> rfl
  | outside change => cases hc

end Steps

/-- With a control token, in every run and whatever the handlers behind the gate do, a socket that
has not presented the token leaves the trading state alone but for the marks of positions, and only
sockets that have presented it are authorized. -/
theorem leavesTradingButMarks_run (cfg : ControlConfig) (htoken : cfg.controlToken ≠ "")
    (trading : TradingState) (events : List SocketEvent) :
    Along (step cfg) (fun x e => x.LeavesTradingButMarks cfg e ∧ (x.step cfg e).AuthedPresented)
      { state := { trading := trading } } events := by
  have htrivial : ∀ (x : ControlPlane) (events : List SocketEvent),
      Along (step cfg) (fun _ _ => True) x events :=
    fun x events => (along_input_iff (step cfg) (fun _ => True) x events).mpr fun _ _ => trivial
  refine along_imp Guarded (fun x e h _ => h.step htoken e) (fun x e h _ => ?_) ?_
    (htrivial { state := { trading := trading } } events)
  · exact ⟨h.leavesTradingButMarks htoken e, fun c hc => ((h.step htoken e).authed c hc).1⟩
  · exact ⟨fun c hc => (by cases hc), fun c rest hfind => (by cases hfind)⟩

/-- A server with an exchange at which one long position is open, marked at its entry price. -/
def longTrading : TradingState where
  server := { exchanges := Dict.empty.insert "binance" {
    exchangeId := "binance"
    feePct := 0
    slippageBps := 0
    ledger := {
      account := {
        exchange := "binance"
        balance := 1000
        currency := "USDT"
        leverage := 10
        positions := [0] }
      objects := ⟨[{
        symbol := "BTC"
        exchange := "binance"
        side := .buy
        quantity := 1
        entryPrice := 100
        stopLoss := 0
        takeProfit := 0
        openedAt := 0 }]⟩ } } }

/-- `_handle_trading_state` behind the gate, and no other handler. -/
def stopTrading (type : String) (c : ℕ) (_ : Dict String Json) :
    Coroutine TradingState (ℕ × Reply) Handled := do
  if type = "stop_trading" then
    modify fun t => { t with server := { t.server with tradingActive := false } }
    handOut (c, .control "trading_state")
    return .returned
  else return .returned

/-- A configuration with the token `secret`. -/
def tokenConfig : ControlConfig where
  controlToken := "secret"
  hasMsgpack := false
  str := fun _ => ""
  symbols := [.text "BTC"]
  items := fun _ => none
  isList := fun _ => false
  options := fun _ _ _ => .chain
  controls := stopTrading

/-- A moment with one price for everything. -/
def atPrice (price : ℚ) : Moment := ⟨0, fun _ _ => price, true⟩

def message (type token : String) : Incoming :=
  .object ((Dict.empty.insert "type" (.text type)).insert "token" (.text token))

/-- A socket that has sent no token subscribes after the price has moved: the position is marked. -/
theorem not_leavesTrading_subscribe : ¬ Along (step tokenConfig)
      (fun x e => x.LeavesTrading tokenConfig e ∧ (x.step tokenConfig e).AuthedPresented)
      { state := { trading := longTrading } }
      [.connects 0 (atPrice 100), .resumes 0 (atPrice 100), .resumes 0 (atPrice 100),
        .receives 0 (atPrice 110) (message "subscribe" "")] := by
  rintro ⟨-, -, -, hsubscribe, -⟩
  have hmarks := congrArg (TradingState.marks · "binance") (hsubscribe.1 0 rfl (by decide))
  revert hmarks
  decide +kernel

/-- A socket is refused without the token, sends it, and then stops the trading. -/
def stopsWithToken : List SocketEvent :=
  [.connects 0 (atPrice 100), .resumes 0 (atPrice 100), .resumes 0 (atPrice 100),
    .receives 0 (atPrice 110) (message "stop_trading" ""), .resumes 0 (atPrice 110),
    .receives 0 (atPrice 110) (message "auth" "secret"), .resumes 0 (atPrice 110),
    .receives 0 (atPrice 110) (message "stop_trading" "")]

theorem leavesTradingButMarks_stopsWithToken : Along (step tokenConfig)
      (fun x e => x.LeavesTradingButMarks tokenConfig e ∧ (x.step tokenConfig e).AuthedPresented)
      { state := { trading := longTrading } } stopsWithToken :=
  leavesTradingButMarks_run tokenConfig (by decide) longTrading stopsWithToken

example : (run (step tokenConfig) { state := { trading := longTrading } }
    stopsWithToken).state.trading.server.tradingActive = false := by
  decide +kernel

end ControlPlane

end TradingSim.Gateway
