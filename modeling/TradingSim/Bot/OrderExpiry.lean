import TradingSim.Bot.OrderExecutor
import TradingSim.Exchange.Expiry
import TradingSim.Gateway.Acceptance

/-!
# How long orders live that are good till a date

The selector of the bot's second engine dates an order from the reading of the clock that its caller
passes, which is the monotonic one. The executor writes the date in milliseconds, and the exchange
compares it with its own time, in Unix seconds. So the order lives as long as selected only if both
clocks agree.
-/

namespace TradingSim.Bot

open Foundations
open Exchange (Side OrderType OrderRequest Order Numerics MarketView SimulatedExchange)
open Gateway (Runtime Server OrderRef member numberArg textArg orderRequest)
open Json (Token)

namespace AdaptiveOrderSelectorV2

structure Params where
  highConfidence : ℕ := 80
  lowConfidence : ℕ := 60
  emergencyConfidence : ℕ := 95
  tightSpreadBps : ℚ := 1
  wideSpreadBps : ℚ := 5
  toxicThreshold : ℚ := 1 / 2
  obiUrgencyThreshold : ℚ := 4 / 10
  largeOrderDepthRatio : ℚ := 2 / 10
  gtdSeconds : ℤ := 30

structure SelectionResult where
  kind : OrderKind := .market
  limitPrice : ℚ := 0
  expireNs : ℤ := 0
  reason : String := ""
  deriving DecidableEq

/-- What `select` looks at. -/
structure Situation where
  confidence : ℕ
  isBuy : Bool
  midPrice : ℚ
  spreadBps : ℚ
  obiWeighted : ℚ
  toxicScore : ℚ
  orderQuantity : ℚ
  top5Depth : ℚ

def select (params : Params) (s : Situation) (nowNs : ℤ) : SelectionResult :=
  if params.emergencyConfidence ≤ s.confidence then {
    kind := .limitFok
    limitPrice := if s.isBuy then s.midPrice * (10002 / 10000) else s.midPrice * (9998 / 10000)
    reason := "Emergency: FOK (urgent fill)" }
  else if params.toxicThreshold ≤ s.toxicScore then {
    kind := .limitIoc
    limitPrice := if s.isBuy then s.midPrice * (10001 / 10000) else s.midPrice * (9999 / 10000)
    reason := "Toxic: IOC (avoid adverse selection)" }
  else if params.highConfidence ≤ s.confidence ∧ s.spreadBps < params.tightSpreadBps then {
    kind := .limitIoc
    limitPrice := if s.isBuy then s.midPrice * (10001 / 10000) else s.midPrice * (9999 / 10000)
    reason := "High conf + tight: IOC" }
  else if params.highConfidence ≤ s.confidence ∧ params.obiUrgencyThreshold < |s.obiWeighted| then {
    kind := .limitIoc
    limitPrice := if s.isBuy then s.midPrice * (10001 / 10000) else s.midPrice * (9999 / 10000)
    reason := "High conf + OBI urgency: IOC" }
  else if 0 < s.top5Depth ∧ params.largeOrderDepthRatio < s.orderQuantity / s.top5Depth then {
    kind := .limitGtd
    limitPrice := if s.isBuy then s.midPrice * (9999 / 10000) else s.midPrice * (10001 / 10000)
    expireNs := nowNs + params.gtdSeconds * 1000000000
    reason := "Large vs thin depth: GTD (passive split)" }
  else if s.confidence < params.lowConfidence ∨ params.wideSpreadBps < s.spreadBps then {
    kind := .postOnly
    limitPrice := if s.isBuy then s.midPrice * (9998 / 10000) else s.midPrice * (10002 / 10000)
    reason := "Low conf + wide: PostOnly (maker rebate)" }
  else {
    kind := .limitIoc
    limitPrice := s.midPrice
    reason := "Default: IOC at mid" }

/-- A selection that is good till a date is dated from the reading it was given. -/
theorem expireNs_of_gtd {params : Params} {s : Situation} {nowNs : ℤ}
    (h : (select params s nowNs).kind = .limitGtd) :
    (select params s nowNs).expireNs = nowNs + params.gtdSeconds * 1000000000 := by
  unfold select at h ⊢
  split_ifs at h ⊢
  · rfl
  · rfl

end AdaptiveOrderSelectorV2

open AdaptiveOrderSelectorV2 (Params Situation SelectionResult)

namespace OrderExecutor

variable {ex : OrderExecutor} {o : OrderSubmission} {kind : OrderKind} {limitPrice : ℚ} {expireNs : ℤ}

variable {data : Dict String Json} {name : String}

theorem decoded_of_not_mem {members : List (String × Token)}
    (h : name ∉ members.map Prod.fst) : decoded members name = .null := by
  have hfind : members.find? (fun entry => entry.1 = name) = none := by
    rw [List.find?_eq_none]
    intro entry hentry heq
    exact h (of_decide_eq_true heq ▸ List.mem_map_of_mem hentry)
  rw [decoded, hfind]
  rfl

theorem decoded_expiringMembers_of_ne (hname : name ≠ "expire_ms") :
    decoded (ex.expiringMembers o kind limitPrice expireNs) name =
      decoded (ex.kindMembers o kind limitPrice) name := by
  unfold expiringMembers
  split
  · rw [decoded, List.find?_append, List.find?_singleton, decide_eq_false hname.symm]
    simp [decoded]
  · rfl

theorem decoded_expireMs : decoded (ex.expiringMembers o kind limitPrice expireNs) "expire_ms" =
    if kind = .limitGtd ∧ 0 < expireNs ∧ bytes (ex.kindMembers o kind limitPrice) < 640 - 32 then
      .int (expireNs.tdiv 1000000) else .null := by
  unfold expiringMembers
  split
  · simp [decoded, kindMembers, Token.value]
  · simp [decoded, kindMembers]

theorem getD_of_member {v : Json} (h : member data name = v) (hv : v ≠ .null) (default : Json) :
    (data.find? name).getD default = v := by
  rw [member] at h
  cases hfind : data.find? name with
  | none =>
    rw [hfind] at h
    exact absurd h.symm hv
  | some found =>
    rw [hfind] at h
    exact h

theorem member_of_ne (hdata : ∀ name, member data name =
      decoded (ex.expiringMembers o .limitGtd limitPrice expireNs) name) (hname : name ≠ "expire_ms") :
    member data name = decoded (ex.kindMembers o .limitGtd limitPrice) name :=
  (hdata name).trans (decoded_expiringMembers_of_ne hname)

/-- The arguments that an exchange reads from the message of an order that is good till a date. -/
theorem orderRequest_gtd {limitPrice : ℚ} {expireNs : ℤ} (hdata : ∀ name, member data name =
      decoded (ex.expiringMembers o .limitGtd limitPrice expireNs) name)
    (side : Side) (quantity : ℚ) (expireTs : Option ℚ) : ∃ req : OrderRequest,
      orderRequest data side .limit quantity "GTD" (expireTs.map some) = some req ∧
        req.orderType = .limit ∧ req.group = none ∧ req.timeInForce = "GTD" ∧ req.expireTs = expireTs := by
  have hsymbol : textArg (member data "symbol") = some (some o.signal.symbol) := by
    rw [member_of_ne hdata (by decide)]
    rfl
  have hprice : ∃ price, numberArg (member data "price") = some (some price) := by
    rw [member_of_ne hdata (by decide)]
    exact ⟨_, rfl⟩
  have hstop : ∃ price, numberArg (member data "stop_loss") = some (some price) := by
    rw [member_of_ne hdata (by decide)]
    exact ⟨_, rfl⟩
  have htake : ∃ price, numberArg (member data "take_profit") = some (some price) := by
    rw [member_of_ne hdata (by decide)]
    exact ⟨_, rfl⟩
  have hunused : ∀ name ∈ ["stop_price", "limit_price", "trail_amount", "iceberg_visible_qty",
      "oco_group_id"], name ≠ "expire_ms" ∧
        name ∉ (ex.kindMembers o .limitGtd limitPrice).map Prod.fst := by
    simp only [kindMembers, List.map_cons, List.map_nil]
    decide
  have habsent : ∀ name ∈ ["stop_price", "limit_price", "trail_amount", "iceberg_visible_qty",
      "oco_group_id"], member data name = .null := by
    intro name hname
    obtain ⟨hne, hnot⟩ := hunused name hname
    rw [member_of_ne hdata hne, decoded_of_not_mem hnot]
  obtain ⟨price, hprice⟩ := hprice
  obtain ⟨stop, hstop⟩ := hstop
  obtain ⟨take, htake⟩ := htake
  have h1 := habsent "stop_price" (by decide)
  have h2 := habsent "limit_price" (by decide)
  have h3 := habsent "trail_amount" (by decide)
  have h4 := habsent "iceberg_visible_qty" (by decide)
  have h5 := habsent "oco_group_id" (by decide)
  simp only [orderRequest, hsymbol, hprice, hstop, htake, h1, h2, h3, h4, h5]
  cases expireTs with
  | none => exact ⟨_, rfl, rfl, rfl, rfl, rfl⟩
  | some expiry => exact ⟨_, rfl, rfl, rfl, rfl, rfl⟩

/-- The message of an order that is good till a date, as an exchange decodes it. -/
theorem member_gtd {w : WireOrder} (hexchange : Json.Plain ex.exchangeId)
    (hsymbol : Json.Plain o.signal.symbol)
    (hsent : ex.submitOrderOfKind o .limitGtd limitPrice expireNs = some w)
    (hdata : w.data = some data) (name : String) :
    member data name = decoded (ex.expiringMembers o .limitGtd limitPrice expireNs) name := by
  have hkind : OrderKind.limitGtd ≠ .market := by decide
  obtain ⟨hmembers, hclosed⟩ := submitOrderOfKind_eq_some hkind hsent
  obtain ⟨hnodup, hne⟩ := ex.nodup_expiringMembers o .limitGtd limitPrice expireNs
  have hwell := wellFormed_expiringMembers hexchange hsymbol .limitGtd limitPrice expireNs
  rw [← hmembers] at hnodup hne hwell ⊢
  rw [w.data_eq hwell hne, hclosed, if_pos rfl] at hdata
  cases hdata
  exact member_ofList hnodup name

/-- The date that an exchange reads is the one that was written, in seconds. -/
theorem expiry_gtd {rt : Runtime} {expireTs : Option (Option ℚ)} (hdata : ∀ name, member data name =
      decoded (ex.expiringMembers o .limitGtd limitPrice expireNs) name)
    (h : Gateway.ReadsExpiry rt data expireTs) : ∃ expiry : Option ℚ, expireTs = expiry.map some ∧
      ∀ e, expiry = some e → 0 < expireNs ∧ e = (expireNs.tdiv 1000000 : ℤ) / 1000 := by
  rcases h with ⟨-, rfl⟩ | ⟨expiry, hfloat, rfl⟩
  · exact ⟨none, rfl, fun e he => by cases he⟩
  · rw [hdata, decoded_expireMs] at hfloat
    split at hfloat
    · rename_i hdated
      obtain rfl := Except.ok.inj hfloat
      refine ⟨some ((expireNs.tdiv 1000000 : ℤ) / 1000), rfl, fun e he => ?_⟩
      exact ⟨hdated.2.1, (Option.some.inj he).symm⟩
    · cases hfloat

/-- The submission that an accepted message of an order good till a date leads to. -/
theorem submission_gtd {rt : Runtime} {x y : Server} {placed : OrderRef}
    {exchange called : SimulatedExchange} {quantity : ℚ} {expireTs : Option (Option ℚ)}
    (hupper : rt.upper "GTD" = "GTD") (hdata : ∀ name, member data name =
      decoded (ex.expiringMembers o .limitGtd limitPrice expireNs) name)
    (h : Gateway.Submission rt x data placed y exchange called quantity expireTs) :
    ∃ (m : MarketView) (req : OrderRequest) (expiry : Option ℚ),
      exchange.submitOrder rt.numerics m req = (called, some placed.ref) ∧
        req.orderType = .limit ∧ req.group = none ∧ req.timeInForce = "GTD" ∧ req.expireTs = expiry ∧
        ∀ e, expiry = some e → 0 < expireNs ∧ e = (expireNs.tdiv 1000000 : ℤ) / 1000 := by
  obtain ⟨-, -, hexpiry, ⟨m, hsubmitted⟩, -⟩ := h
  have htif : Gateway.timeInForceOf rt data = "GTD" := by
    have hmember : member data "time_in_force" = .text "GTD" :=
      (member_of_ne hdata (by decide)).trans rfl
    rw [Gateway.timeInForceOf, getD_of_member hmember (by decide)]
    exact hupper
  have htype : (data.find? "order_type").getD (.text "MARKET") = .text "LIMIT" := by
    have hmember : member data "order_type" = .text "LIMIT" :=
      (member_of_ne hdata (by decide)).trans rfl
    exact getD_of_member hmember (by decide) _
  have horderType : Gateway.orderTypeOf (.text "LIMIT") = some .limit := rfl
  have hside : ∃ side, Gateway.sideOf (member data "side") = some side := by
    have hmember : member data "side" = .text (sideText o.signal) :=
      (member_of_ne hdata (by decide)).trans rfl
    rw [hmember, sideText]
    split
    · exact ⟨.buy, rfl⟩
    · exact ⟨.sell, rfl⟩
  obtain ⟨side, hside⟩ := hside
  obtain ⟨expiry, rfl, hdate⟩ := expiry_gtd hdata hexpiry
  obtain ⟨req, hreq, hlimit, hgroup, hgtd, hexpireTs⟩ := orderRequest_gtd hdata side quantity expiry
  refine ⟨m, req, expiry, ?_, hlimit, hgroup, hgtd, hexpireTs, hdate⟩
  simp only [Gateway.callSubmitOrder, htype, horderType, hside, htif, hreq] at hsubmitted
  split at hsubmitted
  · rename_i left r hleft
    obtain ⟨rfl, hr⟩ := Prod.mk.inj hsubmitted
    rw [hleft, Gateway.SubmitResult.order.inj hr]
  · cases (Prod.mk.inj hsubmitted).2

/-- An order of a selection rests at an exchange: the executor wrote it, and the exchange decoded it
and answered with a new order, which is pending. -/
def RestsAt (rt : Runtime) (ex : OrderExecutor) (o : OrderSubmission) (selection : SelectionResult)
    (x y : Server) (placed : OrderRef) : Prop :=
  ∃ w data, ex.submitOrderOfKind o selection.kind selection.limitPrice selection.expireNs = some w ∧
    w.data = some data ∧ x.Accepts rt data placed y ∧ (y.order placed).status = .pending

/-- The sweeps of its exchange cancel an order from an instant on and not before, up to a
millisecond. -/
def LivesUntil (rt : Runtime) (y : Server) (placed : OrderRef) (instant : ℚ) : Prop :=
  ∃ exchange, y.exchanges.find? placed.exchange = some exchange ∧
    exchange.LivesUntil rt.numerics placed.ref instant (1 / 1000)

/-- Writing a `client_order_id` keeps an exchange sound. -/
theorem sound_label {x : SimulatedExchange} {opening : ℚ} (h : x.Sound opening) {r : Ref}
    (hr : x.orders.objects.Live r) (clientOrderId : Option String) :
    (x.withOrders (x.orders.update r fun order =>
      { order with clientOrderId := clientOrderId })).Sound opening :=
  ⟨(h.orders.touch hr ⟨rfl, rfl, rfl, rfl, rfl, rfl, rfl, .refl _, fun _ => ⟨rfl, rfl⟩⟩ rfl).2,
    h.ledger⟩

/-- Milliseconds of a date that a selection has given. -/
theorem expireMs_eq {nowNs seconds : ℤ} (h : 0 < nowNs + seconds * 1000000000) :
    (nowNs + seconds * 1000000000).tdiv 1000000 = nowNs / 1000000 + seconds * 1000 := by
  rw [Int.tdiv_eq_ediv_of_nonneg h.le]
  omega

/-- An order that is good till a date and rests at an exchange lives as long as selected exactly if
the monotonic reading that dated it, in whole milliseconds, is the Unix time of the selection up to
a millisecond. -/
theorem livesUntil_iff_clocksAgree {rt : Runtime} {params : Params} {s : Situation} {steadyNs : ℤ}
    {wallClock : ℚ} {x y : Server} {placed : OrderRef} (hupper : rt.upper "GTD" = "GTD")
    (hexchange : Json.Plain ex.exchangeId) (hsymbol : Json.Plain o.signal.symbol)
    (hsound : ∀ id exchange, x.exchanges.find? id = some exchange → ∃ opening, exchange.Sound opening)
    (hgtd : (AdaptiveOrderSelectorV2.select params s steadyNs).kind = .limitGtd)
    (hrests : RestsAt rt ex o (AdaptiveOrderSelectorV2.select params s steadyNs) x y placed) :
    LivesUntil rt y placed (wallClock + params.gtdSeconds) ↔
      |((steadyNs / 1000000 : ℤ) : ℚ) / 1000 - wallClock| ≤ 1 / 1000 := by
  obtain ⟨w, data, hsent, hdecoded, haccepts, hpending⟩ := hrests
  rw [hgtd, AdaptiveOrderSelectorV2.expireNs_of_gtd hgtd] at hsent
  have hdata := member_gtd hexchange hsymbol hsent hdecoded
  obtain ⟨exchange, called, quantity, expireTs, hsubmission⟩ := haccepts.submission
  obtain ⟨opening, hopening⟩ := hsound _ exchange hsubmission.found
  obtain ⟨m, req, expiry, hsubmitted, hlimit, hgroup, htif, hexpireTs, hdate⟩ :=
    submission_gtd hupper hdata hsubmission
  obtain ⟨hcalled, hissued⟩ := hopening.submitOrder hsubmitted
  have hleft := hsubmission.left
  -- Writing the `client_order_id` changes nothing that matters here.
  set left := called.withOrders (called.orders.update placed.ref fun order =>
    { order with clientOrderId := Gateway.clientOrderIdOf rt (member data "client_order_id") })
  have hget : left.orders.get placed.ref = { called.orders.get placed.ref with
      clientOrderId := Gateway.clientOrderIdOf rt (member data "client_order_id") } :=
    Heap.get_modify_self _ hissued.1 _
  have hpending' : (left.orders.get placed.ref).status = .pending := by
    simpa [Server.order, hleft] using hpending
  obtain ⟨haccepted, hinstructions, hdated⟩ :=
    SimulatedExchange.submitOrder_pending hsubmitted (by rw [hget] at hpending'; exact hpending')
  simp only [Order.instructions, Prod.mk.injEq, hlimit, hgroup, htif, hexpireTs] at hinstructions
  obtain ⟨htype', hgroup', -, hexpiry', -⟩ := hinstructions
  obtain ⟨e, rfl⟩ := Option.isSome_iff_exists.mp (hexpireTs ▸ hdated htif)
  obtain ⟨hpositive, he⟩ := hdate e rfl
  have hiff : left.LivesUntil rt.numerics placed.ref (wallClock + params.gtdSeconds) (1 / 1000) ↔
      |e - (wallClock + params.gtdSeconds)| ≤ 1 / 1000 :=
    SimulatedExchange.livesUntil_iff (sound_label hcalled hissued.1 _) haccepted hpending'
      (by rw [hget]; exact htype') (by rw [hget]; exact hgroup') (by rw [hget]; exact hexpiry')
  have hdifference : e - (wallClock + params.gtdSeconds) =
      ((steadyNs / 1000000 : ℤ) : ℚ) / 1000 - wallClock := by
    rw [he, expireMs_eq hpositive]
    push_cast
    ring
  rw [← hdifference, ← hiff]
  constructor
  · rintro ⟨found, hfound, hlives⟩
    obtain rfl := Option.some.inj (hfound.symm.trans hleft)
    exact hlives
  · intro hlives
    exact ⟨left, hleft, hlives⟩

/-- A large order on a thin book, bought with moderate confidence. -/
def thinBook : Situation where
  confidence := 70
  isBuy := true
  midPrice := 100
  spreadBps := 2
  obiWeighted := 0
  toxicScore := 0
  orderQuantity := 1
  top5Depth := 2

/-- The order that goes with it. -/
def thinOrder : OrderSubmission where
  signal := {
    symbol := "BTC"
    direction := .long
    entryPrice := 100
    stopLoss := 98
    takeProfit := 104
    timestamp := 1704067200 }
  confidence := 70
  quantity := 1
  book := ⟨"BTC", "binance", [], []⟩

/-- The server that gets the order. -/
def oneServer : Server := { exchanges := Gateway.oneExchange }

/-- What the server makes of the order if it is dated from a reading. -/
def thinRun (steadyNs : ℤ) : Option (Server × Option Gateway.Output) := do
  let selection := AdaptiveOrderSelectorV2.select {} thinBook steadyNs
  let w ← (⟨"binance", true⟩ : OrderExecutor).submitOrderOfKind thinOrder selection.kind
    selection.limitPrice selection.expireNs
  let data ← w.data
  let ran := (Gateway.handleOrderInner Gateway.typedRuntime
    (SimulatedExchange.flatMarket 100) 0 data).advance oneServer
  return (ran.1, ran.2.output)

/-- The first order of the exchange. -/
def firstOrder : OrderRef := ⟨"binance", 0⟩

/-- The server after the order, if it answers with a new order that is pending. -/
def thinServer (steadyNs : ℤ) : Option Server :=
  (thinRun steadyNs).bind fun ran =>
    if ran.2 = some (.send 0 (.fill firstOrder (ran.1.order firstOrder) false)) ∧
        (ran.1.order firstOrder).status = .pending then some ran.1
    else none

theorem restsAt_thinServer {steadyNs : ℤ} {y : Server} (h : thinServer steadyNs = some y) :
    RestsAt Gateway.typedRuntime ⟨"binance", true⟩ thinOrder
      (AdaptiveOrderSelectorV2.select {} thinBook steadyNs) oneServer y firstOrder := by
  obtain ⟨ran, hran, hy⟩ := Option.bind_eq_some_iff.mp h
  split at hy
  · rename_i hanswer
    cases hy
    obtain ⟨w, hsent, hran⟩ := Option.bind_eq_some_iff.mp hran
    obtain ⟨data, hdata, hran⟩ := Option.bind_eq_some_iff.mp hran
    cases hran
    obtain ⟨next, hnext⟩ := Coroutine.Outcome.eq_awaits_of_output hanswer.1
    exact ⟨w, data, hsent, hdata,
      ⟨SimulatedExchange.flatMarket 100, 0, _, next, Prod.ext rfl hnext⟩, hanswer.2⟩
  · cases hy

/-- A selection dated from the Unix time lives as long as selected. -/
theorem livesUntil_unixTime : ∃ y, RestsAt Gateway.typedRuntime ⟨"binance", true⟩ thinOrder
        (AdaptiveOrderSelectorV2.select {} thinBook 1704067200000000000) oneServer y firstOrder ∧
      LivesUntil Gateway.typedRuntime y firstOrder (1704067200 + ({} : Params).gtdSeconds) := by
  have hsome : (thinServer 1704067200000000000).isSome := by decide +kernel
  obtain ⟨y, hy⟩ := Option.isSome_iff_exists.mp hsome
  have hrests := restsAt_thinServer hy
  have hsound : ∀ id exchange, oneServer.exchanges.find? id = some exchange →
      ∃ opening, exchange.Sound opening := by
    intro id exchange hfind
    simp only [oneServer, Gateway.oneExchange, Dict.find?_insert] at hfind
    split at hfind
    · cases hfind
      exact ⟨_, SimulatedExchange.sound_init _ _ _ _ _ _⟩
    · cases hfind
  refine ⟨y, hrests, (livesUntil_iff_clocksAgree rfl (by decide) (by decide) hsound (by decide +kernel)
    hrests).mpr ?_⟩
  norm_num

/-- A selection dated on a machine that has been up for an hour is cancelled by a sweep at the time
of the selection, though it was selected for thirty seconds. -/
theorem cancelled_upForAnHour : ∃ y, RestsAt Gateway.typedRuntime ⟨"binance", true⟩ thinOrder
        (AdaptiveOrderSelectorV2.select {} thinBook 3600000000000) oneServer y firstOrder ∧
      ¬ LivesUntil Gateway.typedRuntime y firstOrder (1704067200 + ({} : Params).gtdSeconds) := by
  have hcancelled : ((thinServer 3600000000000).bind fun y =>
      (y.exchanges.find? "binance").map fun exchange =>
        ((exchange.orders.get 0).status,
          ((Exchange.Sweep.checkBook Gateway.typedRuntime.numerics
            { SimulatedExchange.flatMarket 100 with now := 1704067200 } { exchange := exchange }
            .limits).exchange.orders.get 0).status)) = some (.pending, .cancelled) := by
    decide +kernel
  obtain ⟨y, hy, hfound⟩ := Option.bind_eq_some_iff.mp hcancelled
  obtain ⟨exchange, hexchange, hstatus⟩ := Option.map_eq_some_iff.mp hfound
  obtain ⟨hpending, hswept⟩ := Prod.mk.inj hstatus
  refine ⟨y, restsAt_thinServer hy, ?_⟩
  rintro ⟨exchange', hexchange', hlives⟩
  obtain rfl := Option.some.inj (hexchange'.symm.trans hexchange)
  have hearly := (hlives [] { SimulatedExchange.flatMarket 100 with now := 1704067200 } hpending).2
  exact hearly (by norm_num) hswept

end OrderExecutor

end TradingSim.Bot
