import TradingSim.Bot.PositionManager
import TradingSim.Feed.Server
import TradingSim.Gateway.OrderHandler

/-!
# The bot's order executor

The executor writes an order as a JSON text with format strings into a buffer of fixed size. A text
that does not fit is not sent. The exchange decodes the text and reads the arguments of the order
from it.
-/

namespace TradingSim.Bot

open Foundations
open Exchange (Side OrderType nearestEven)
open Feed (BookEntry)
open Gateway (member numberArg)
open Json (Token)

def bestBid (book : BookEntry) : ℚ := (book.bids.head?.map (·.price)).getD 0

def bestAsk (book : BookEntry) : ℚ := (book.asks.head?.map (·.price)).getD 0

def spread (book : BookEntry) : ℚ := bestAsk book - bestBid book

def midPrice (book : BookEntry) : ℚ := (bestBid book + bestAsk book) / 2

namespace OrderTypeSelector

/-- `OrderTypeSelector::select`, on the confidence of a signal. -/
def select (confidence : ℚ) (book : BookEntry) : Exchange.OrderType :=
  let spreadBps := if 0 < midPrice book then spread book / midPrice book * 10000 else 999
  if 80 ≤ confidence ∧ spreadBps < 5 then .market
  else if confidence < 70 ∨ 10 < spreadBps then .limit
  else .market

/-- `OrderTypeSelector::limit_price`, with an offset of one basis point. -/
def limitPrice (side : Side) (book : BookEntry) : ℚ :=
  let mid := midPrice book
  let offset := mid * 1 / 10000
  match side with
  | .buy => mid - offset
  | .sell => mid + offset

end OrderTypeSelector

inductive OrderKind
  | market
  | limitIoc
  | limitFok
  | limitGtd
  | postOnly
  deriving DecidableEq

/-- The time in force that a kind of order asks for. -/
def OrderKind.timeInForce : OrderKind → String
  | .limitIoc => "IOC"
  | .limitFok => "FOK"
  | .limitGtd => "GTD"
  | _ => "GTC"

/-- The format `%.{places}f`. -/
def printFixed (places : ℕ) (x : ℚ) : Token :=
  .fixed (x < 0) (nearestEven (x * 10 ^ places)).natAbs places

/-- What is handed to the socket: an object's members, and whether its brace was closed. -/
structure WireOrder where
  members : List (String × Token)
  closed : Bool
  deriving DecidableEq

namespace WireOrder

/-- The characters of the text. -/
def text (w : WireOrder) : List Char :=
  '{' :: (Json.renderMembers w.members ++ if w.closed then ['}'] else [])

/-- The object that the exchange decodes. -/
def data (w : WireOrder) : Option (Dict String Json) := Json.readObject w.text

/-- The number that the exchange reads under a name and passes to `submit_order`. -/
def reads (w : WireOrder) (name : String) : Option ℚ :=
  w.data.bind fun data => (numberArg (member data name)).join

end WireOrder

/-- The number of bytes that members take with the opening brace. -/
def bytes (members : List (String × Token)) : ℕ :=
  (('{' :: Json.renderMembers members).map Char.utf8Size).sum

/-- An order that the bot asks the executor to send. The confidence is the signal's. -/
structure OrderSubmission where
  signal : Signal
  confidence : ℚ
  quantity : ℚ
  book : BookEntry

/-- The part of the executor that orders depend on. -/
structure OrderExecutor where
  exchangeId : String
  connected : Bool := true

namespace OrderExecutor

/-- The word for the direction of an order. -/
def sideText (signal : Signal) : String := if signal.direction = .long then "BUY" else "SELL"

/-- The price of an order without an explicit kind. -/
def price? (o : OrderSubmission) : Option ℚ :=
  if OrderTypeSelector.select o.confidence o.book = .limit then
    some (OrderTypeSelector.limitPrice o.signal.side o.book)
  else none

/-- The members of an order without an explicit kind, up to its price. -/
def plainMembers (ex : OrderExecutor) (o : OrderSubmission) : List (String × Token) := [
  ("type", .text "order"),
  ("exchange", .text ex.exchangeId),
  ("symbol", .text o.signal.symbol),
  ("side", .text (sideText o.signal)),
  ("quantity", printFixed 8 o.quantity),
  ("order_type", .text
    (if OrderTypeSelector.select o.confidence o.book = .market then "MARKET" else "LIMIT")),
  ("stop_loss", printFixed 2 o.signal.stopLoss),
  ("take_profit", printFixed 2 o.signal.takeProfit),
  ("client_order_id", .text o.signal.clientOrderId)]

/-- The members of an order without an explicit kind: the price is left out if little room is
left in the buffer. -/
def orderMembers (ex : OrderExecutor) (o : OrderSubmission) : List (String × Token) :=
  match price? o with
  | none => ex.plainMembers o
  | some price =>
    if bytes (ex.plainMembers o) < 512 - 32 then
      ex.plainMembers o ++ [("price", printFixed 2 price)]
    else ex.plainMembers o

/-- `submit_order` without an explicit kind. The brace is left out if there is no room for it. -/
def submitOrder (ex : OrderExecutor) (o : OrderSubmission) : Option WireOrder :=
  if !ex.connected then none
  else if !o.signal.isActionable then none
  else if 512 ≤ bytes (ex.orderMembers o) then none
  else some {
    members := ex.orderMembers o
    closed := bytes (ex.orderMembers o) < 512 - 2 }

/-- The price of an order with an explicit kind. -/
def kindPrice (o : OrderSubmission) (limitPrice : ℚ) : ℚ :=
  if 0 < limitPrice then limitPrice else o.signal.entryPrice

/-- The members of an order with an explicit kind, up to its expiry. -/
def kindMembers (ex : OrderExecutor) (o : OrderSubmission) (kind : OrderKind) (limitPrice : ℚ) :
    List (String × Token) := [
  ("type", .text "order"),
  ("exchange", .text ex.exchangeId),
  ("symbol", .text o.signal.symbol),
  ("side", .text (sideText o.signal)),
  ("quantity", printFixed 8 o.quantity),
  ("order_type", .text "LIMIT"),
  ("price", printFixed 2 (kindPrice o limitPrice)),
  ("stop_loss", printFixed 2 o.signal.stopLoss),
  ("take_profit", printFixed 2 o.signal.takeProfit),
  ("time_in_force", .text kind.timeInForce),
  ("post_only", .bool (kind = .postOnly)),
  ("client_order_id", .text o.signal.clientOrderId)]

/-- The members of an order with an explicit kind. -/
def expiringMembers (ex : OrderExecutor) (o : OrderSubmission) (kind : OrderKind) (limitPrice : ℚ)
    (expireNs : ℤ) : List (String × Token) :=
  if kind = .limitGtd ∧ 0 < expireNs ∧ bytes (ex.kindMembers o kind limitPrice) < 640 - 32 then
    ex.kindMembers o kind limitPrice ++ [("expire_ms", .int (expireNs.tdiv 1000000))]
  else ex.kindMembers o kind limitPrice

/-- `submit_order` with an explicit kind, a limit price and an expiry. -/
def submitOrderOfKind (ex : OrderExecutor) (o : OrderSubmission) (kind : OrderKind) (limitPrice : ℚ)
    (expireNs : ℤ) : Option WireOrder :=
  if kind = .market then ex.submitOrder o
  else if !ex.connected then none
  else if !o.signal.isActionable then none
  else if 640 - 2 ≤ bytes (ex.expiringMembers o kind limitPrice expireNs) then none
  else some {
    members := ex.expiringMembers o kind limitPrice expireNs
    closed := true }

/-- A call of `submit_order`: without an explicit kind, or with a kind, a limit price and an
expiry. -/
inductive Call
  | plain (o : OrderSubmission)
  | ofKind (o : OrderSubmission) (kind : OrderKind) (limitPrice : ℚ) (expireNs : ℤ)

def Call.order : Call → OrderSubmission
  | .plain o => o
  | .ofKind o _ _ _ => o

/-- What a call hands to the socket. -/
def send (ex : OrderExecutor) : Call → Option WireOrder
  | .plain o => ex.submitOrder o
  | .ofKind o kind limitPrice expireNs => ex.submitOrderOfKind o kind limitPrice expireNs

/-- What is sent are the members of one of the two formats, with the brace if there was room. -/
theorem submitOrder_eq_some {ex : OrderExecutor} {o : OrderSubmission} {w : WireOrder}
    (h : ex.submitOrder o = some w) :
    w.members = ex.orderMembers o ∧ w.closed = decide (bytes (ex.orderMembers o) < 510) := by
  unfold submitOrder at h
  split at h
  · cases h
  · split at h
    · cases h
    · split at h
      · cases h
      · cases h
        exact ⟨rfl, rfl⟩

theorem submitOrderOfKind_eq_some {ex : OrderExecutor} {o : OrderSubmission} {kind : OrderKind}
    (hkind : kind ≠ .market) {limitPrice : ℚ} {expireNs : ℤ} {w : WireOrder}
    (h : ex.submitOrderOfKind o kind limitPrice expireNs = some w) :
    w.members = ex.expiringMembers o kind limitPrice expireNs ∧ w.closed = true := by
  rw [submitOrderOfKind, if_neg hkind] at h
  split at h
  · cases h
  · split at h
    · cases h
    · split at h
      · cases h
      · cases h
        exact ⟨rfl, rfl⟩

end OrderExecutor

/-! ### Decoding -/

theorem plain_clientOrderId {signal : Signal} (hsymbol : Json.Plain signal.symbol) :
    Json.Plain signal.clientOrderId := by
  have hstart : Json.Plain "hft_" := by decide
  have hsep : Json.Plain "_" := by decide
  exact ((hstart.append hsymbol).append hsep).append (Json.plain_toString_int _)

namespace OrderExecutor

variable {ex : OrderExecutor} {o : OrderSubmission}

theorem plain_sideText (signal : Signal) : Json.Plain (sideText signal) := by
  unfold sideText
  split
  · decide
  · decide

theorem wellFormed_plainMembers (hexchange : Json.Plain ex.exchangeId)
    (hsymbol : Json.Plain o.signal.symbol) : Json.MembersWellFormed (ex.plainMembers o) := by
  have hid := plain_clientOrderId hsymbol
  have htype : Json.Plain
      (if OrderTypeSelector.select o.confidence o.book = .market then "MARKET" else "LIMIT") := by
    split <;> decide
  have hnames : ∀ name ∈ (ex.plainMembers o).map Prod.fst, Json.Plain name := by
    simp only [plainMembers, List.map_cons, List.map_nil]
    decide
  have htokens : ∀ token ∈ (ex.plainMembers o).map Prod.snd, token.WellFormed := by
    simp only [plainMembers, List.map_cons, List.map_nil, List.forall_mem_cons, Token.WellFormed,
      printFixed]
    exact ⟨by decide, hexchange, hsymbol, plain_sideText o.signal, by decide, htype, by decide,
      by decide, hid, fun _ h => absurd h List.not_mem_nil⟩
  exact .of_names_of_tokens hnames htokens

theorem wellFormed_kindMembers (hexchange : Json.Plain ex.exchangeId)
    (hsymbol : Json.Plain o.signal.symbol) (kind : OrderKind) (limitPrice : ℚ) :
    Json.MembersWellFormed (ex.kindMembers o kind limitPrice) := by
  have hid := plain_clientOrderId hsymbol
  have htif : Json.Plain kind.timeInForce := by
    cases kind <;> decide
  have hnames : ∀ name ∈ (ex.kindMembers o kind limitPrice).map Prod.fst, Json.Plain name := by
    simp only [kindMembers, List.map_cons, List.map_nil]
    decide
  have htokens : ∀ token ∈ (ex.kindMembers o kind limitPrice).map Prod.snd, token.WellFormed := by
    simp only [kindMembers, List.map_cons, List.map_nil, List.forall_mem_cons, Token.WellFormed,
      printFixed]
    exact ⟨by decide, hexchange, hsymbol, plain_sideText o.signal, by decide, by decide, by decide,
      by decide, by decide, htif, trivial, hid, fun _ h => absurd h List.not_mem_nil⟩
  exact .of_names_of_tokens hnames htokens

theorem wellFormed_orderMembers (hexchange : Json.Plain ex.exchangeId)
    (hsymbol : Json.Plain o.signal.symbol) : Json.MembersWellFormed (ex.orderMembers o) := by
  have hplain := wellFormed_plainMembers (o := o) hexchange hsymbol
  unfold orderMembers
  split
  · exact hplain
  · split
    · have hname : Json.Plain "price" := by decide
      exact hplain.concat hname (by decide : 0 < 2)
    · exact hplain

theorem wellFormed_expiringMembers (hexchange : Json.Plain ex.exchangeId)
    (hsymbol : Json.Plain o.signal.symbol) (kind : OrderKind) (limitPrice : ℚ) (expireNs : ℤ) :
    Json.MembersWellFormed (ex.expiringMembers o kind limitPrice expireNs) := by
  have hkind := wellFormed_kindMembers hexchange hsymbol kind limitPrice
  unfold expiringMembers
  split
  · have hname : Json.Plain "expire_ms" := by decide
    exact hkind.concat hname trivial
  · exact hkind

/-- No name is written twice, and something is written. -/
theorem nodup_orderMembers (ex : OrderExecutor) (o : OrderSubmission) :
    ((ex.orderMembers o).map Prod.fst).Nodup ∧ ex.orderMembers o ≠ [] := by
  unfold orderMembers
  split
  · exact ⟨by simp only [plainMembers, List.map_cons, List.map_nil]; decide, List.cons_ne_nil _ _⟩
  · split
    · exact ⟨by simp only [plainMembers, List.cons_append, List.nil_append, List.map_cons,
        List.map_nil]; decide, List.cons_ne_nil _ _⟩
    · exact ⟨by simp only [plainMembers, List.map_cons, List.map_nil]; decide,
        List.cons_ne_nil _ _⟩

theorem nodup_expiringMembers (ex : OrderExecutor) (o : OrderSubmission) (kind : OrderKind)
    (limitPrice : ℚ) (expireNs : ℤ) :
    ((ex.expiringMembers o kind limitPrice expireNs).map Prod.fst).Nodup ∧
      ex.expiringMembers o kind limitPrice expireNs ≠ [] := by
  unfold expiringMembers
  split
  · exact ⟨by simp only [kindMembers, List.cons_append, List.nil_append, List.map_cons,
      List.map_nil]; decide, List.cons_ne_nil _ _⟩
  · exact ⟨by simp only [kindMembers, List.map_cons, List.map_nil]; decide, List.cons_ne_nil _ _⟩

end OrderExecutor

/-- The value that an exchange finds under a name of a decoded message. -/
def decoded (members : List (String × Token)) (name : String) : Json :=
  ((members.find? fun entry => entry.1 = name).map fun entry => entry.2.value).getD .null

/-- A message that can be decoded is decoded member by member if its brace was closed, and not at
all otherwise. -/
theorem WireOrder.data_eq {w : WireOrder} (hwell : Json.MembersWellFormed w.members)
    (hne : w.members ≠ []) : w.data = if w.closed then
        some (Dict.ofList Prod.fst Prod.snd (w.members.map fun entry => (entry.1, entry.2.value)))
      else none := by
  obtain ⟨hclosed, hopen⟩ := Json.readObject_render hne hwell
  unfold WireOrder.data WireOrder.text
  split
  · exact hclosed
  · rw [List.append_nil]
    exact hopen

/-- What is found under a name of a decoded message. -/
theorem member_ofList {members : List (String × Token)} (hnodup : (members.map Prod.fst).Nodup)
    (name : String) :
    member (Dict.ofList Prod.fst Prod.snd (members.map fun entry => (entry.1, entry.2.value))) name =
      decoded members name := by
  have hkeys : ((members.map fun entry => (entry.1, entry.2.value)).map Prod.fst).Nodup := by
    rw [List.map_map]
    exact hnodup
  rw [member, Dict.find?_ofList_of_nodup Prod.fst Prod.snd hkeys, List.find?_map, Option.map_map]
  rfl

theorem WireOrder.reads_eq {w : WireOrder} (hwell : Json.MembersWellFormed w.members)
    (hnodup : (w.members.map Prod.fst).Nodup) (hne : w.members ≠ []) (name : String) :
    w.reads name = if w.closed then (numberArg (decoded w.members name)).join else none := by
  rw [WireOrder.reads, w.data_eq hwell hne]
  split
  · rw [Option.bind_some, member_ofList hnodup]
  · rfl

end TradingSim.Bot
