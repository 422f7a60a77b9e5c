import Mathlib.Data.List.Forall2
import TradingSim.Bot.Callbacks
import TradingSim.Shm.MarketSlots

/-!
# The fills that the bot shares

The receiver passes every order of a `fill` or `fills_batch` frame to one handler, which pushes a
record into the ring of fills. The record has room for a symbol number, a side and three prices. The
signal engine reads each record as a fill of its default exchange and looks the number up in its own
list of symbols, which is sorted.
-/

namespace TradingSim.Shm

open Foundations
open TradingSim.Bot (OrderUpdate SignalReceiver)
open Exchange (Side OrderStatus)

/-- An order of a frame, with the receiver's clock when it handles it. -/
structure OrderReport extends OrderUpdate where
  id : String
  handledAt : ℕ
  deriving DecidableEq

/-- What tells the orders of all exchanges apart. -/
def OrderReport.key (o : OrderReport) : String × String := (o.exchange, o.id)

/-- A frame for the receiver. The answer to a repeated request is a `fill`, an `order_cancelled` reports its
order, and other frames report none. -/
inductive ReceiverFrame where
  | fill (o : OrderReport)
  | fillsBatch (orders : List OrderReport)
  | orderCancelled (o : OrderReport) (cancelled : o.status = .cancelled)
  | other

def ReceiverFrame.reported : ReceiverFrame → List OrderReport
  | .fill o => [o]
  | .fillsBatch orders => orders
  | .orderCancelled o _ => [o]
  | .other => []

/-- The orders of a frame that reach `handle_fill_order`. -/
def ReceiverFrame.handled : ReceiverFrame → List OrderReport
  | .fill o => [o]
  | .fillsBatch orders => orders
  | .orderCancelled _ _ | .other => []

/-- A record in the ring. -/
structure FillMsg where
  timestamp : ℕ
  symbolId : ℕ
  side : ℕ
  qty : ℚ
  price : ℚ
  fee : ℚ
  exchangeId : ℕ
  deriving DecidableEq

/-- A trade as the signal engine stores it. -/
structure StoredTrade where
  timestamp : ℚ
  symbol : String
  exchange : String
  side : Side
  quantity : ℚ
  entryPrice : ℚ
  fee : ℚ
  status : OrderStatus
  deriving DecidableEq

/-- The configuration of both sides: the symbols of the bot in their order, the symbols of the signal
engine, its default exchange, and the size of the ring. -/
structure FillConfig where
  botSymbols : List String
  engineSymbols : List String
  defaultExchange : String
  capacity : ℕ

namespace FillConfig

variable (c : FillConfig)

/-- The id of a symbol in the receiver. -/
def symbolId (sym : String) : ℕ :=
  (SignalReceiver.registerSymbols {} c.botSymbols).symbolId sym

def hasId (sym : String) : Bool := c.symbolId sym ≠ 0xFFFF

/-- The record of an order. -/
def fillMsg (o : OrderReport) : FillMsg where
  timestamp := o.handledAt
  symbolId := c.symbolId o.symbol % 2 ^ 8
  side := if o.side = .sell then 1 else 0
  qty := single o.filledQuantity
  price := single o.filledPrice
  fee := single o.fee
  exchangeId := 3

/-- The symbol of a record's number. -/
def symbolName (symbolId : ℕ) : String :=
  ((sortedSymbols c.engineSymbols)[symbolId]?).getD ("#" ++ toString symbolId)

/-- `_on_shm_fills`, for one record. -/
def storedTrade (f : FillMsg) : StoredTrade where
  timestamp := f.timestamp / 10 ^ 9
  symbol := c.symbolName f.symbolId
  exchange := c.defaultExchange
  side := if f.side = 1 then .sell else .buy
  quantity := f.qty
  entryPrice := f.price
  fee := f.fee
  status := .filled

end FillConfig

/-- The ring and what the signal engine has stored from it. -/
structure FillChannel where
  ring : List FillMsg := []
  stored : List StoredTrade := []

/-- A frame arrives at the bot, or the signal engine polls the ring. -/
inductive FillEvent where
  | frame (frame : ReceiverFrame)
  | poll

/-- The frames of a run. -/
def FillEvent.frames : FillEvent → List ReceiverFrame
  | .frame delivered => [delivered]
  | .poll => []

namespace FillChannel

variable (c : FillConfig) (x : FillChannel)

/-- `handle_fill_order`, as far as the ring goes: a full ring drops the record. -/
def handleFillOrder (o : OrderReport) : FillChannel :=
  if c.hasId o.symbol then
    if x.ring.length < c.capacity then { x with ring := x.ring ++ [c.fillMsg o] } else x
  else x

def step (x : FillChannel) : FillEvent → FillChannel
  | .frame frame => frame.handled.foldl (handleFillOrder c) x
  | .poll => { ring := x.ring.drop 256, stored := x.stored ++ (x.ring.take 256).map c.storedTrade }

/-- What is stored once the records in the ring are polled, too. -/
def allStored : List StoredTrade := x.stored ++ x.ring.map c.storedTrade

/-- The orders of a list whose symbol has an id. -/
def withId (orders : List OrderReport) : List OrderReport :=
  orders.filter fun o => c.hasId o.symbol

/-- The ring has room for what a frame pushes. -/
def HasRoom (x : FillChannel) : FillEvent → Prop
  | .frame frame => x.ring.length + (withId c frame.handled).length ≤ c.capacity
  | .poll => True

instance (x : FillChannel) (e : FillEvent) : Decidable (x.HasRoom c e) := by
  unfold HasRoom
  split <;> infer_instance

/-- An executed fill of the default exchange. -/
def executed (o : OrderReport) : Bool :=
  o.status = .filled ∧ 0 < o.filledQuantity ∧ o.exchange = c.defaultExchange

/-- The orders that the frames report for symbols with an id. -/
def reported (events : List FillEvent) : List OrderReport :=
  withId c ((events.flatMap FillEvent.frames).flatMap ReceiverFrame.reported)

/-- The orders with an id that reach the handler. -/
def handled (events : List FillEvent) : List OrderReport :=
  withId c ((events.flatMap FillEvent.frames).flatMap ReceiverFrame.handled)

/-- A trade is the fill of an order, its numbers rounded to single precision. -/
structure Records (o : OrderReport) (trade : StoredTrade) : Prop where
  symbol : trade.symbol = o.symbol
  exchange : trade.exchange = o.exchange
  side : trade.side = o.side
  status : trade.status = o.status
  quantity : trade.quantity = single o.filledQuantity
  entryPrice : trade.entryPrice = single o.filledPrice
  fee : trade.fee = single o.fee

/-- The stored trades are the executed fills that the frames report, each once, in their order. -/
def StoresExecuted (events : List FillEvent) : Prop :=
  List.Forall₂ Records (firstsBy OrderReport.key ((reported c events).filter (executed c)))
    ((run (step c) {} events).allStored c)

/-- Both sides give the symbol of an order the same number. -/
def Numbered (o : OrderReport) : Prop := c.symbolName (c.symbolId o.symbol % 2 ^ 8) = o.symbol

instance (o : OrderReport) : Decidable (Numbered c o) := inferInstanceAs (Decidable (_ = _))

variable {c}

/-- With room in the ring, every order of a frame that has an id is pushed. -/
theorem allStored_foldl (orders : List OrderReport) (x : FillChannel)
    (hroom : x.ring.length + (withId c orders).length ≤ c.capacity) :
    (orders.foldl (handleFillOrder c) x).allStored c =
      x.allStored c ++ (withId c orders).map fun o => c.storedTrade (c.fillMsg o) := by
  induction orders generalizing x with
  | nil => rw [List.foldl_nil, withId, List.filter_nil, List.map_nil, List.append_nil]
  | cons o rest ih =>
    rw [List.foldl_cons]
    by_cases hid : c.hasId o.symbol = true
    · have hwith : withId c (o :: rest) = o :: withId c rest := List.filter_cons_of_pos hid
      rw [hwith, List.length_cons] at hroom
      have hpush : handleFillOrder c x o = { x with ring := x.ring ++ [c.fillMsg o] } := by
        rw [handleFillOrder, if_pos hid, if_pos (by omega)]
      rw [hpush, ih _ (by simp only [List.length_append, List.length_singleton]; omega), hwith]
      simp [allStored]
    · have hwith : withId c (o :: rest) = withId c rest := List.filter_cons_of_neg hid
      rw [hwith] at hroom ⊢
      rw [handleFillOrder, if_neg hid]
      exact ih x hroom

theorem allStored_step (x : FillChannel) (e : FillEvent) (hroom : x.HasRoom c e) :
    (step c x e).allStored c = x.allStored c ++
      (e.frames.flatMap fun frame => withId c frame.handled).map fun o =>
        c.storedTrade (c.fillMsg o) := by
  cases e with
  | frame frame =>
    rw [FillEvent.frames, List.flatMap_singleton]
    exact allStored_foldl frame.handled x hroom
  | poll =>
    rw [FillEvent.frames, List.flatMap_nil, List.map_nil, List.append_nil]
    simp only [step, allStored]
    rw [List.append_assoc, ← List.map_append, List.take_append_drop]

theorem allStored_run {events : List FillEvent} (hroom : Along (step c) (HasRoom c) {} events) :
    (run (step c) {} events).allStored c =
      (handled c events).map fun o => c.storedTrade (c.fillMsg o) := by
  rw [run_appends (allStored c) _ allStored_step hroom]
  simp only [allStored, handled, withId, List.map_nil, List.nil_append, List.map_flatMap,
    List.filter_flatMap, List.flatMap_assoc]

/-- A cancelled order is no executed fill. -/
theorem filter_reported (frame : ReceiverFrame) :
    frame.reported.filter (executed c) = frame.handled.filter (executed c) := by
  cases frame with
  | fill o => rfl
  | fillsBatch orders => rfl
  | orderCancelled o cancelled => simp [ReceiverFrame.reported, ReceiverFrame.handled, executed,
      cancelled]
  | other => rfl

theorem executed_reported (events : List FillEvent) :
    (reported c events).filter (executed c) = (handled c events).filter (executed c) := by
  have hswap : ∀ orders, (withId c orders).filter (executed c) =
      (orders.filter (executed c)).filter fun o => c.hasId o.symbol := by
    intro orders
    rw [withId, List.filter_filter, List.filter_filter]
    simp only [Bool.and_comm]
  rw [reported, handled, hswap, hswap]
  simp only [List.filter_flatMap, filter_reported]

/-- The trade of an order is its fill exactly if both sides number its symbol alike and it is a
filled order of the default exchange. -/
theorem records_iff (o : OrderReport) : Records o (c.storedTrade (c.fillMsg o)) ↔
      Numbered c o ∧ o.status = .filled ∧ o.exchange = c.defaultExchange := by
  constructor
  · intro h
    exact ⟨h.symbol, h.status.symm, h.exchange.symm⟩
  · rintro ⟨hnumbered, hstatus, hexchange⟩
    refine ⟨hnumbered, hexchange.symm, ?_, hstatus.symm, rfl, rfl, rfl⟩
    cases hside : o.side <;> simp [FillConfig.storedTrade, FillConfig.fillMsg, hside]

/-- While the ring is not full, the stored trades are the executed fills exactly if every order of a
`fill` or `fills_batch` frame is one, of a symbol that both sides number alike, and none is reported
twice. -/
theorem storesExecuted_iff (c : FillConfig) (events : List FillEvent)
    (hroom : Along (step c) (HasRoom c) {} events) : StoresExecuted c events ↔
      (∀ o ∈ handled c events, executed c o = true ∧ Numbered c o) ∧
        ((handled c events).map OrderReport.key).Nodup := by
  unfold StoresExecuted
  rw [allStored_run hroom, executed_reported]
  set orders := handled c events
  constructor
  · intro h
    have hlength : (firstsBy OrderReport.key (orders.filter (executed c))).length = orders.length := by
      rw [h.length_eq, List.length_map]
    have hfirsts := firstsBy_sublist OrderReport.key (orders.filter (executed c))
    have hall : orders.filter (executed c) = orders := by
      apply List.filter_sublist.eq_of_length
      exact le_antisymm List.filter_sublist.length_le (hlength ▸ hfirsts.length_le)
    rw [hall] at h hlength hfirsts
    have hself := hfirsts.eq_of_length hlength
    rw [hself, List.forall₂_map_right_iff, List.forall₂_same] at h
    refine ⟨fun o ho => ⟨List.filter_eq_self.mp hall o ho, ((records_iff o).mp (h o ho)).1⟩, ?_⟩
    exact (firstsBy_eq_self_iff OrderReport.key orders).mp hself
  · rintro ⟨heach, hnodup⟩
    rw [List.filter_eq_self.mpr fun o ho => (heach o ho).1,
      (firstsBy_eq_self_iff OrderReport.key orders).mpr hnodup, List.forall₂_map_right_iff,
      List.forall₂_same]
    intro o ho
    obtain ⟨hexecuted, hnumbered⟩ := heach o ho
    have hfilled := of_decide_eq_true hexecuted
    exact (records_iff o).mpr ⟨hnumbered, hfilled.1, hfilled.2.2⟩

/-- One exchange and two symbols, which both sides list in sorted order. -/
def twoSymbols : FillConfig where
  botSymbols := ["BTC/USDT", "ETH/USDT"]
  engineSymbols := ["BTC/USDT", "ETH/USDT"]
  defaultExchange := "binance"
  capacity := 4096

/-- An order that bought one coin at some price. -/
def filledOrder (id symbol : String) (price : ℚ) : OrderReport where
  id := id
  symbol := symbol
  exchange := "binance"
  side := .buy
  status := .filled
  filledQuantity := 1
  filledPrice := price
  handledAt := 0

/-- The acknowledgement of a limit order is stored as a filled trade of quantity zero. -/
theorem not_storesExecuted_pending :
    let pending := { filledOrder "o1" "BTC/USDT" 0 with status := .pending, filledQuantity := 0 }
    let events := [.frame (.fill pending), .poll]
    (run (step twoSymbols) {} events).stored.map (fun t => (t.symbol, t.quantity, t.status)) =
      [("BTC/USDT", 0, .filled)] ∧ ¬ StoresExecuted twoSymbols events := by
  constructor
  · decide +kernel
  · intro h
    exact absurd h.length_eq (by decide +kernel)

/-- Two fills, the second of them in a batch after the ring was polled. -/
theorem storesExecuted_twoFills : StoresExecuted twoSymbols
      [.frame (.fill (filledOrder "o1" "BTC/USDT" 100)), .poll,
        .frame (.fillsBatch [filledOrder "o2" "ETH/USDT" 10]), .frame .other, .poll] :=
  (storesExecuted_iff twoSymbols _ (by decide +kernel)).mpr (by decide +kernel)

end FillChannel

end TradingSim.Shm
