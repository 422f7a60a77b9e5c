import TradingSim.Bot.DailyPnl

/-!
# The main loop

An iteration reads once whether trading is allowed, updates the risk state, closes positions at
their stops, and then sends what arbitrage, queued signals and the signal engines ask for. The kill
switch can be activated by the risk update or by any other thread.

A step does one thing of one thread and hands at most one order to the socket. What the socket, the
engines and the clocks answer is input.
-/

namespace TradingSim.Bot

open Foundations
open Exchange (Side OrderStatus)

/-- Why the kill switch was activated. -/
inductive Reason where
  | manual
  | dailyLoss
  | maxDrawdown
  | marginCall
  | fileTrigger
  deriving DecidableEq

/-- What an activation runs. -/
inductive Callback where
  | cancelAll
  | closeAll
  | notify
  deriving DecidableEq

/-- The callbacks in their order. -/
def Callback.all : List Callback := [.cancelAll, .closeAll, .notify]

/-- An activation that found the flag unset: the callbacks it has run and those it has left. -/
structure Activation where
  onMain : Bool
  reason : Reason
  ran : List Callback := []
  remaining : List Callback := Callback.all
  deriving DecidableEq

/-- A message handed to the socket. Orders of the strategies, both legs of an arbitrage and the
order that takes back a first leg are of type `order`. -/
inductive Frame where
  | order (symbol : String) (side : Side) (quantity : ℚ)
  | arbitrageLeg (exchange symbol : String) (side : Side) (quantity : ℚ)
  | unwind (exchange symbol : String) (quantity : ℚ)
  | closePosition (symbol : String)
  | cancelAllOrders
  deriving DecidableEq

/-- Whether the message is of type `order`. -/
def Frame.isOrder : Frame → Bool
  | .order _ _ _ | .arbitrageLeg _ _ _ _ | .unwind _ _ _ => true
  | .closePosition _ | .cancelAllOrders => false

/-- An arbitrage opportunity as the scanner reports it. -/
structure ArbOpportunity where
  symbol : String
  buyExchange : String
  sellExchange : String
  maxQuantity : ℚ
  deriving DecidableEq

/-- The configuration of the main loop. `engineEnabled` is whether the second or third signal
engine runs. -/
structure LoopConfig where
  params : RiskParams := {}
  defaultExchange : String := "binance"
  dailyLossLimit : ℚ := 5000
  maxDrawdownPct : ℚ := 15 / 100
  engineEnabled : Bool := true

/-- An order that `check_order` has passed, with what the check read. -/
structure Approval (p : RiskParams) where
  signal : RatedSignal
  quantity : ℚ
  price : ℚ
  riskMgr : RiskManager
  gauges : RiskGauges
  equity : ℚ
  margin : ℚ
  positionQty : ℚ
  now : ℤ
  passed : (p.checkOrder riskMgr gauges signal.symbol signal.side quantity price
    (max 1 signal.leverage) equity margin positionQty now).1.passed = true

namespace Approval

variable {p : RiskParams}

def notional (a : Approval p) : ℚ := a.quantity * a.price

/-- The message that sends the order. -/
def frame (a : Approval p) : Frame := .order a.signal.symbol a.signal.side a.quantity

/-- The exchange's report that the order has filled as it was checked. -/
def fill (a : Approval p) (exchange : String) (fee : ℚ) : OrderUpdate where
  symbol := a.signal.symbol
  exchange := exchange
  side := a.signal.side
  status := .filled
  filledQuantity := a.quantity
  filledPrice := a.price
  fee := fee
  clientOrderId := a.signal.clientOrderId

/-- The exchange's report that the order has ended without a fill. -/
def ending (a : Approval p) (exchange : String) (status : OrderStatus) : OrderUpdate where
  symbol := a.signal.symbol
  exchange := exchange
  side := a.signal.side
  status := status
  clientOrderId := a.signal.clientOrderId

end Approval

/-- Where the main loop is in its iteration. -/
inductive Phase where
  | top
  | risk
  | drawdown (equity : ℚ)
  | stops
  | arbitrage
  | secondLeg (arb : ArbOpportunity) (quantity : ℚ)
  | aiSignals
  | signals
  deriving DecidableEq

/-- The order the main loop works on: none, one that was checked and not sent, or one that was sent
and not registered. -/
inductive Stage (p : RiskParams) where
  | idle
  | approved (a : Approval p)
  | sent (a : Approval p)

/-- Which loop a signal comes from. The second engine's order is checked at its limit price, or at
the middle of the book without one. -/
inductive OrderPath where
  | ai
  | v1
  | v2 (limitPrice mid : ℚ)
  deriving DecidableEq

/-- The price an order is checked at. -/
def OrderPath.price (path : OrderPath) (signal : RatedSignal) : ℚ :=
  match path with
  | .ai | .v1 => signal.entryPrice
  | .v2 limitPrice mid => if 0 < limitPrice then limitPrice else mid

/-- Whether a loop takes its signals in a phase. -/
def OrderPath.runsIn (path : OrderPath) (c : LoopConfig) (phase : Phase) : Bool :=
  match path, phase with
  | .ai, .aiSignals => true
  | .v1, .signals => !c.engineEnabled
  | .v2 _ _, .signals => c.engineEnabled
  | _, _ => false

/-- Whether an order is checked at all: the second engine's loop does not check one that it cannot
send. -/
def OrderPath.isChecked (path : OrderPath) (connected : Bool) : Bool :=
  match path with
  | .ai | .v1 => true
  | .v2 _ _ => connected

/-- What the main loop does next. `handed` is whether the socket takes the message. -/
inductive MainAction where
  | readFlags
  | updateRisk (u : RiskUpdate)
  | checkDrawdown
  | closeStops (prices : Dict String ℚ) (now : ℤ)
  | arbitrage (handed : Bool)
  | secondLeg (handed unwound : Bool)
  | checkSignal (path : OrderPath) (signal : RatedSignal) (now : ℤ)
  | submit (handed : Bool)
  | register
  | nextLoop

/-- A step of the system. `receive` is any other step of the bot; `fill` and `ended` are the
exchange's answers to an order of a strategy. -/
inductive LoopAction where
  | main (action : MainAction)
  | activate (reason : Reason)
  | deactivate
  | callback (index : ℕ) (now : ℤ)
  | fill (index : ℕ) (fee : ℚ)
  | ended (index : ℕ) (status : OrderStatus)
  | receive (e : BotEvent)
  | connection (up : Bool)
  | trading (active : Bool)
  | opportunity (arb : ArbOpportunity)

/-- The bot with its main loop and its kill switch. `inFlight` are the orders of the strategies that
were sent and have neither filled nor ended. -/
structure TradingLoop (c : LoopConfig) where
  bot : TradingBot := {}
  active : Bool := false
  activations : List Activation := []
  connected : Bool := true
  tradingActive : Bool := true
  arb : Option ArbOpportunity := none
  phase : Phase := .top
  canTrade : Bool := false
  currentBalance : ℚ := 0
  stage : Stage c.params := .idle
  inFlight : List (Approval c.params) := []

namespace TradingLoop

variable {c : LoopConfig} (x : TradingLoop c)

/-- Let the bot take a step. -/
def receive (e : BotEvent) : TradingLoop c :=
  { x with bot := x.bot.elapse c.defaultExchange [e] }

/-- `activate`: set the flag; only the caller that has set it runs the callbacks. -/
def activate (onMain : Bool) (reason : Reason) : TradingLoop c :=
  if x.active then x
  else
    { x with
      active := true
      activations := x.activations ++ [{ onMain := onMain, reason := reason }] }

/-- Ask the exchange to close positions, marking each as closing. -/
def closePositions (symbols : List String) (now : ℤ) : List Frame × TradingLoop c :=
  if x.connected then
    (symbols.map .closePosition,
      { x with
        bot := x.bot.elapse c.defaultExchange
          (symbols.map fun symbol => .markClosing symbol now) })
  else ([], x)

/-- One emergency callback. -/
def runCallback (now : ℤ) : Callback → List Frame × TradingLoop c
  | .cancelAll => (if x.connected then [.cancelAllOrders] else [], x)
  | .closeAll => x.closePositions (x.bot.posMgr.positions.map Position.symbol) now
  | .notify => ([], x)

/-- The next callback of an activation. -/
def callback (index : ℕ) (now : ℤ) : List Frame × TradingLoop c :=
  match x.activations[index]? with
  | some a =>
    match a.remaining with
    | next :: rest =>
      let (frames, y) := x.runCallback now next
      (frames,
        { y with
          activations :=
            y.activations.set index { a with ran := a.ran ++ [next], remaining := rest } })
    | [] => ([], x)
  | none => ([], x)

/-- Read whether this iteration may trade. -/
def readFlags : TradingLoop c :=
  { x with
    canTrade := x.tradingActive && !x.active
    currentBalance := x.bot.balance
    phase := .risk }

/-- The risk update of this iteration, with the balance that was read at its top. -/
def riskUpdate (u : RiskUpdate) : RiskUpdate := { u with currentBalance := x.currentBalance }

/-- The risk state after the update. -/
def updatedBot (u : RiskUpdate) : TradingBot :=
  x.bot.updateRiskState c.defaultExchange (x.riskUpdate u)

/-- The equity an update takes the drawdown of. -/
def equity (u : RiskUpdate) : ℚ :=
  x.currentBalance +
    ((x.bot.rollOver u).elapse c.defaultExchange u.beforeUnrealized).posMgr.totalUnrealizedPnl

/-- Whether the risk update finds the daily loss limit breached. -/
def breachesLoss (u : RiskUpdate) : Bool := (x.updatedBot u).riskMgr.dailyPnl < -c.dailyLossLimit

/-- `update_risk_state` up to the daily loss limit. -/
def updateRisk (u : RiskUpdate) : TradingLoop c :=
  let y := { x with bot := x.updatedBot u, phase := .drawdown (x.equity u) }
  if x.breachesLoss u then y.activate true .dailyLoss else y

/-- Whether an equity has fallen too far below its peak. -/
def breachesDrawdown (equity : ℚ) : Bool :=
  0 < x.bot.gauges.peakEquity ∧ c.maxDrawdownPct < 1 - equity / x.bot.gauges.peakEquity

/-- The rest of `update_risk_state`. -/
def checkDrawdown (equity : ℚ) : TradingLoop c :=
  let y := { x with phase := .stops }
  if x.breachesDrawdown equity then y.activate true .maxDrawdown else y

/-- `process_sl_tp`. -/
def closeStops (prices : Dict String ℚ) (now : ℤ) : List Frame × TradingLoop c :=
  let y := x.receive (.updateAllPnl prices)
  let triggers := y.bot.posMgr.checkSlTp prices now
  { y with phase := .arbitrage }.closePositions (triggers.map CloseTrigger.symbol) now

/-- `process_arbitrage` with the first leg. -/
def arbitrage (handed : Bool) : List Frame × TradingLoop c :=
  match x.arb with
  | some arb =>
    if x.canTrade then
      let y := { x with arb := none, phase := .aiSignals }
      let quantity := min arb.maxQuantity (1 / 2)
      if x.connected ∧ 1 / 1000 < arb.maxQuantity ∧ handed then
        ([.arbitrageLeg arb.buyExchange arb.symbol .buy quantity],
          { y with phase := .secondLeg arb quantity })
      else ([], y)
    else ([], { x with phase := .aiSignals })
  | none => ([], { x with phase := .aiSignals })

/-- The second leg, or the order that takes back the first one. -/
def secondLeg (arb : ArbOpportunity) (quantity : ℚ) (handed unwound : Bool) : List Frame × TradingLoop c :=
  (if handed then [.arbitrageLeg arb.sellExchange arb.symbol .sell quantity]
    else if unwound then [.unwind arb.buyExchange arb.symbol quantity]
    else [],
    { x with phase := .aiSignals })

def precheckOrder (signal : RatedSignal) (quantity price : ℚ) (now : ℤ) : TradingLoop c :=
  let equity := x.bot.balance + x.bot.posMgr.totalUnrealizedPnl
  let positionQty := x.bot.posMgr.positionQty signal.symbol
  let checked := c.params.checkOrder x.bot.riskMgr x.bot.gauges signal.symbol signal.side quantity
    price (max 1 signal.leverage) equity x.bot.balance positionQty now
  { x with
    bot := { x.bot with gauges := checked.2 }
    stage :=
      if h : checked.1.passed = true then
        .approved
          { signal := signal
            quantity := quantity
            price := price
            riskMgr := x.bot.riskMgr
            gauges := x.bot.gauges
            equity := equity
            margin := x.bot.balance
            positionQty := positionQty
            now := now
            passed := h }
      else .idle }

/-- Check a signal and the order it asks for. -/
def checkSignal (path : OrderPath) (signal : RatedSignal) (now : ℤ) : TradingLoop c :=
  let verdict := c.params.checkSignal x.bot.riskMgr signal x.currentBalance
    x.bot.posMgr.positionCount
  if verdict.passed ∧ ¬ x.bot.posMgr.hasPosition signal.symbol then
    let quantity := c.params.calculatePositionSize signal x.currentBalance
    if 0 < quantity ∧ path.isChecked x.connected then
      x.precheckOrder signal quantity (path.price signal) now
    else x
  else x

/-- `submit_order`. -/
def submit (a : Approval c.params) (handed : Bool) : List Frame × TradingLoop c :=
  if x.connected ∧ a.signal.isActionable ∧ handed then
    ([a.frame], { x with stage := .sent a, inFlight := x.inFlight ++ [a] })
  else ([], { x with stage := .idle })

/-- Register the order that was sent. -/
def register (a : Approval c.params) : TradingLoop c :=
  { x.receive (.addPendingOrder a.signal.toSignal a.quantity) with stage := .idle }

/-- What the main loop does while it works on no order. -/
def proceed : MainAction → List Frame × TradingLoop c
  | .readFlags => ([], if x.phase = .top then x.readFlags else x)
  | .updateRisk u => ([], if x.phase = .risk then x.updateRisk u else x)
  | .checkDrawdown =>
    match x.phase with
    | .drawdown equity => ([], x.checkDrawdown equity)
    | _ => ([], x)
  | .closeStops prices now => if x.phase = .stops then x.closeStops prices now else ([], x)
  | .arbitrage handed => if x.phase = .arbitrage then x.arbitrage handed else ([], x)
  | .secondLeg handed unwound =>
    match x.phase with
    | .secondLeg arb quantity => x.secondLeg arb quantity handed unwound
    | _ => ([], x)
  | .checkSignal path signal now =>
    ([], if x.canTrade ∧ path.runsIn c x.phase then x.checkSignal path signal now else x)
  | .nextLoop =>
    match x.phase with
    | .aiSignals => ([], { x with phase := .signals })
    | .signals => ([], { x with phase := .top })
    | _ => ([], x)
  | .submit _ | .register => ([], x)

/-- A step of the main thread. -/
def act (action : MainAction) : List Frame × TradingLoop c :=
  match x.stage with
  | .idle => x.proceed action
  | .approved a =>
    match action with
    | .submit handed => x.submit a handed
    | _ => ([], x)
  | .sent a =>
    match action with
    | .register => ([], x.register a)
    | _ => ([], x)

/-- The main thread runs no emergency callback. -/
def MainFree : Prop := ∀ a ∈ x.activations, a.onMain = true → a.remaining = []

instance : Decidable x.MainFree := inferInstanceAs (Decidable (∀ a ∈ _, _))

/-- One step: the messages it hands to the socket and the state it leads to. -/
def perform : LoopAction → List Frame × TradingLoop c
  | .main action => if x.MainFree then x.act action else ([], x)
  | .activate reason => ([], x.activate false reason)
  | .deactivate => ([], { x with active := false })
  | .callback index now => x.callback index now
  | .fill index fee =>
    match x.inFlight[index]? with
    | some a =>
      ([], { x.receive (.fill (a.fill c.defaultExchange fee)) with
        inFlight := x.inFlight.eraseIdx index })
    | none => ([], x)
  | .ended index status =>
    match x.inFlight[index]? with
    | some a =>
      ([], { x.receive (.fill (a.ending c.defaultExchange status)) with
        inFlight := x.inFlight.eraseIdx index })
    | none => ([], x)
  | .receive e => ([], x.receive e)
  | .connection up => ([], { x with connected := up })
  | .trading active => ([], { x with tradingActive := active })
  | .opportunity arb => ([], { x with arb := some arb })

/-- The messages that a step hands to the socket. -/
def handed (e : LoopAction) : List Frame := (x.perform e).1

def step (x : TradingLoop c) (e : LoopAction) : TradingLoop c := (x.perform e).2

/-- What the main loop can do in a step while it works on no order. -/
inductive Proceeds (x : TradingLoop c) : MainAction → TradingLoop c → Prop
  | stays (action : MainAction) : x.Proceeds action x
  | readFlags (hphase : x.phase = .top) : x.Proceeds .readFlags x.readFlags
  | updateRisk (u : RiskUpdate) (hphase : x.phase = .risk) (hwithin : x.breachesLoss u = false) :
      x.Proceeds (.updateRisk u) { x with bot := x.updatedBot u, phase := .drawdown (x.equity u) }
  | dailyLoss (u : RiskUpdate) (hphase : x.phase = .risk) (hbreaches : x.breachesLoss u = true) :
      x.Proceeds (.updateRisk u)
        ({ x with bot := x.updatedBot u, phase := .drawdown (x.equity u) }.activate true .dailyLoss)
  | checkDrawdown (equity : ℚ) (hphase : x.phase = .drawdown equity)
      (hwithin : x.breachesDrawdown equity = false) :
      x.Proceeds .checkDrawdown { x with phase := .stops }
  | maxDrawdown (equity : ℚ) (hphase : x.phase = .drawdown equity)
      (hbreaches : x.breachesDrawdown equity = true) :
      x.Proceeds .checkDrawdown ({ x with phase := .stops }.activate true .maxDrawdown)
  | closeStops (prices : Dict String ℚ) (now : ℤ) (hphase : x.phase = .stops)
      (symbols : List String) :
      x.Proceeds (.closeStops prices now)
        ({ x.receive (.updateAllPnl prices) with phase := .arbitrage }.closePositions symbols now).2
  | passArbitrage (handed : Bool) (hphase : x.phase = .arbitrage) (arb : Option ArbOpportunity) :
      x.Proceeds (.arbitrage handed) { x with arb := arb, phase := .aiSignals }
  | firstLeg (hphase : x.phase = .arbitrage) (arb : ArbOpportunity) (harb : x.arb = some arb)
      (hcan : x.canTrade = true) (hconnected : x.connected = true)
      (hsize : 1 / 1000 < arb.maxQuantity) :
      x.Proceeds (.arbitrage true)
        { x with arb := none, phase := .secondLeg arb (min arb.maxQuantity (1 / 2)) }
  | secondLeg (handed unwound : Bool) (arb : ArbOpportunity) (quantity : ℚ)
      (hphase : x.phase = .secondLeg arb quantity) :
      x.Proceeds (.secondLeg handed unwound) { x with phase := .aiSignals }
  | checkSignal (path : OrderPath) (signal : RatedSignal) (now : ℤ) (hcan : x.canTrade = true)
      (hruns : path.runsIn c x.phase) :
      x.Proceeds (.checkSignal path signal now) (x.checkSignal path signal now)
  | nextSignals (hphase : x.phase = .aiSignals) : x.Proceeds .nextLoop { x with phase := .signals }
  | endIteration (hphase : x.phase = .signals) : x.Proceeds .nextLoop { x with phase := .top }

/-- A step of the main loop while it works on no order is one of these. -/
theorem proceeds (x : TradingLoop c) (action : MainAction) : x.Proceeds action (x.proceed action).2 := by
  cases action with
  | readFlags =>
    simp only [proceed]
    split_ifs with hphase
    · exact .readFlags hphase
    · exact .stays _
  | updateRisk u =>
    simp only [proceed]
    split_ifs with hphase
    · unfold TradingLoop.updateRisk
      split_ifs with hbreaches
      · exact .dailyLoss u hphase hbreaches
      · exact .updateRisk u hphase (Bool.eq_false_of_not_eq_true hbreaches)
    · exact .stays _
  | checkDrawdown =>
    simp only [proceed]
    cases hphase : x.phase with
    | drawdown equity =>
      simp only [TradingLoop.checkDrawdown]
      split_ifs with hbreaches
      · exact .maxDrawdown equity hphase hbreaches
      · exact .checkDrawdown equity hphase (Bool.eq_false_of_not_eq_true hbreaches)
    | _ => exact .stays _
  | closeStops prices now =>
    simp only [proceed]
    split_ifs with hphase
    · exact .closeStops prices now hphase _
    · exact .stays _
  | arbitrage handed =>
    simp only [proceed]
    split_ifs with hphase
    · unfold TradingLoop.arbitrage
      cases harb : x.arb with
      | none => exact .passArbitrage handed hphase _
      | some arb =>
        simp only
        split_ifs with hcan hhanded
        · obtain ⟨hconnected, hsize, rfl⟩ := hhanded
          exact .firstLeg hphase arb harb hcan hconnected hsize
        · exact .passArbitrage handed hphase none
        · exact .passArbitrage handed hphase _
    · exact .stays _
  | secondLeg handed unwound =>
    simp only [proceed]
    cases hphase : x.phase with
    | secondLeg arb quantity => exact .secondLeg handed unwound arb quantity hphase
    | _ => exact .stays _
  | checkSignal path signal now =>
    simp only [proceed]
    split_ifs with hruns
    · exact .checkSignal path signal now hruns.1 hruns.2
    · exact .stays _
  | submit handed => exact .stays _
  | register => exact .stays _
  | nextLoop =>
    simp only [proceed]
    cases hphase : x.phase with
    | aiSignals => exact .nextSignals hphase
    | signals => exact .endIteration hphase
    | _ => exact .stays _

/-- What the sending of orders depends on. -/
def control (x : TradingLoop c) :
    Bool × Phase × Bool × Stage c.params × List Activation × List (Approval c.params) :=
  (x.active, x.phase, x.canTrade, x.stage, x.activations, x.inFlight)

theorem control_closePositions (x : TradingLoop c) (symbols : List String) (now : ℤ) :
    (x.closePositions symbols now).2.control = x.control := by
  unfold closePositions
  split_ifs <;> rfl

theorem control_runCallback (x : TradingLoop c) (now : ℤ) (callback : Callback) :
    (x.runCallback now callback).2.control = x.control := by
  cases callback with
  | cancelAll => rfl
  | closeAll => exact x.control_closePositions _ now
  | notify => rfl

theorem callback_cases (x : TradingLoop c) (index : ℕ) (now : ℤ) : x.callback index now = ([], x) ∨
    ∃ a next rest, x.activations[index]? = some a ∧ a.remaining = next :: rest ∧ x.callback index now =
        ((x.runCallback now next).1, { (x.runCallback now next).2 with
            activations := (x.runCallback now next).2.activations.set index
              { a with ran := a.ran ++ [next], remaining := rest } }) := by
  unfold callback
  cases ha : x.activations[index]? with
  | none => exact Or.inl rfl
  | some a =>
    cases hremaining : a.remaining with
    | nil =>
      left
      simp only [hremaining]
    | cons next rest =>
      right
      refine ⟨a, next, rest, rfl, hremaining, ?_⟩
      simp only [hremaining]

/-- What a step can do. -/
inductive Steps (x : TradingLoop c) : LoopAction → TradingLoop c → Prop
  | stays (e : LoopAction) : x.Steps e x
  | proceed (action : MainAction) (y : TradingLoop c) (hidle : x.stage = .idle)
      (hproceeds : x.Proceeds action y) : x.Steps (.main action) y
  | submit (a : Approval c.params) (handed : Bool) (hstage : x.stage = .approved a) :
      x.Steps (.main (.submit handed)) (x.submit a handed).2
  | register (a : Approval c.params) (hstage : x.stage = .sent a) :
      x.Steps (.main .register) (x.register a)
  | activate (reason : Reason) : x.Steps (.activate reason) (x.activate false reason)
  | deactivate : x.Steps .deactivate { x with active := false }
  | callback (index : ℕ) (now : ℤ) (a : Activation) (next : Callback) (rest : List Callback)
      (ha : x.activations[index]? = some a) (hremaining : a.remaining = next :: rest) :
      x.Steps (.callback index now)
        { (x.runCallback now next).2 with
          activations := (x.runCallback now next).2.activations.set index
            { a with ran := a.ran ++ [next], remaining := rest } }
  | fill (index : ℕ) (fee : ℚ) (a : Approval c.params) (ha : x.inFlight[index]? = some a) :
      x.Steps (.fill index fee)
        { x.receive (.fill (a.fill c.defaultExchange fee)) with
          inFlight := x.inFlight.eraseIdx index }
  | ended (index : ℕ) (status : OrderStatus) (a : Approval c.params)
      (ha : x.inFlight[index]? = some a) :
      x.Steps (.ended index status)
        { x.receive (.fill (a.ending c.defaultExchange status)) with
          inFlight := x.inFlight.eraseIdx index }
  | receive (e : BotEvent) : x.Steps (.receive e) (x.receive e)
  | connection (up : Bool) : x.Steps (.connection up) { x with connected := up }
  | trading (active : Bool) : x.Steps (.trading active) { x with tradingActive := active }
  | opportunity (arb : ArbOpportunity) : x.Steps (.opportunity arb) { x with arb := some arb }

theorem steps (x : TradingLoop c) (e : LoopAction) : x.Steps e (x.step e) := by
  unfold step
  cases e with
  | main action =>
    simp only [perform]
    split_ifs
    · unfold act
      cases hstage : x.stage with
      | idle => exact .proceed action _ hstage (x.proceeds action)
      | approved a =>
        cases action with
        | submit handed => exact .submit a handed hstage
        | _ => exact .stays _
      | sent a =>
        cases action with
        | register => exact .register a hstage
        | _ => exact .stays _
    · exact .stays _
  | activate reason => exact .activate reason
  | deactivate => exact .deactivate
  | callback index now =>
    obtain hnone | ⟨a, next, rest, ha, hremaining, hcallback⟩ := x.callback_cases index now
    · simp only [perform, hnone]
      exact .stays _
    · simp only [perform, hcallback]
      exact .callback index now a next rest ha hremaining
  | fill index fee =>
    simp only [perform]
    cases ha : x.inFlight[index]? with
    | some a => exact .fill index fee a ha
    | none => exact .stays _
  | ended index status =>
    simp only [perform]
    cases ha : x.inFlight[index]? with
    | some a => exact .ended index status a ha
    | none => exact .stays _
  | receive e => exact .receive e
  | connection up => exact .connection up
  | trading active => exact .trading active
  | opportunity arb => exact .opportunity arb

theorem isOrder_closePositions {x : TradingLoop c} {symbols : List String} {now : ℤ} {frame : Frame}
    (hmem : frame ∈ (x.closePositions symbols now).1) : frame.isOrder = false := by
  unfold closePositions at hmem
  split_ifs at hmem
  · obtain ⟨symbol, -, rfl⟩ := List.mem_map.mp hmem
    rfl
  · cases hmem

theorem isOrder_runCallback {x : TradingLoop c} {now : ℤ} {callback : Callback} {frame : Frame}
    (hmem : frame ∈ (x.runCallback now callback).1) : frame.isOrder = false := by
  cases callback with
  | cancelAll =>
    simp only [runCallback] at hmem
    split_ifs at hmem
    · rw [List.mem_singleton.mp hmem]
      rfl
    · cases hmem
  | closeAll => exact isOrder_closePositions hmem
  | notify => cases hmem

section Example

/-- A long signal that passes every check. -/
def strongSignal (symbol : String) : RatedSignal where
  symbol := symbol
  direction := .long
  entryPrice := 100
  stopLoss := 98
  takeProfit := 104
  confidence := 70

/-- A risk update that nothing disturbs. -/
def quietUpdate : RiskUpdate where
  currentBalance := 0
  nowSteady := 0
  day := DailyRun.newYear

/-- An iteration from its risk update to the queued signals. -/
def upToSignals : List LoopAction :=
  [.main (.updateRisk quietUpdate), .main .checkDrawdown, .main (.closeStops Dict.empty 0),
    .main (.arbitrage true)]

/-- Trade on a queued signal. -/
def tradeOn (symbol : String) : List LoopAction :=
  [.main (.checkSignal .ai (strongSignal symbol) 0), .main (.submit true), .main .register]

end Example

end TradingLoop

end TradingSim.Bot
