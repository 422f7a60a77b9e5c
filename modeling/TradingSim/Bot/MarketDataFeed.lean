import Mathlib.Algebra.Order.Field.Rat
import Mathlib.Data.List.Infix
import TradingSim.Foundations.Dict
import TradingSim.Foundations.Run

/-!
# Tickers of the real markets

The messages of three venues become tickers. Binance sends book and trades apart, and the feed keeps what the
one kind of message lacks from the last one of the other kind; a price that has not come yet is zero. A Bybit
message may lack what has not changed, and nothing is kept for that.
-/

namespace TradingSim.Bot.MarketDataFeed

open Foundations (Dict Along along_imp along_congr along_input_iff)

/-! ### Messages -/

/-- The data of a Binance message, without what only candles have. -/
structure BinanceData where
  s : Option String := none
  b : Option ℚ := none
  a : Option ℚ := none
  p : Option ℚ := none
  T : Option ℤ := none

/-- An entry of the data of an OKX ticker message. -/
structure OkxData where
  instId : Option String := none
  bidPx : Option ℚ := none
  askPx : Option ℚ := none
  last : Option ℚ := none
  vol24h : Option ℚ := none
  ts : Option ℤ := none

/-- The data of a Bybit ticker message. -/
structure BybitData where
  bid1Price : Option ℚ := none
  ask1Price : Option ℚ := none
  lastPrice : Option ℚ := none
  volume24h : Option ℚ := none
  ts : Option ℤ := none

inductive Message
  | binance (stream : Option String) (data : BinanceData)
  | okx (channel : Option String) (data : List OkxData)
  | bybit (topic : Option String) (data : BybitData)

structure NormalizedTicker where
  exchange : String
  symbol : String
  bid : ℚ
  ask : ℚ
  last : ℚ
  volume : ℚ
  timestamp : ℤ

/-- What is kept for a symbol of Binance. -/
structure TickerState where
  bid : Option ℚ := none
  ask : Option ℚ := none
  last : Option ℚ := none

/-- `_ticker_state`. -/
abbrev TickerStates := Dict String TickerState

/-! ### Handlers

Each one is given the time in milliseconds, and returns the ticker for `on_ticker`. -/

/-- Whether a text occurs in another one. -/
def occursIn (part text : String) : Bool := decide (part.toList <:+: text.toList)

/-- Whether a text starts with another one. -/
def startsWith (text start : String) : Bool := decide (start.toList <+: text.toList)

/-- A text without a part, wherever it occurs; some letters are still to be skipped. -/
def removeAll (part : List Char) : List Char → ℕ → List Char
  | [], _ => []
  | c :: rest, 0 =>
    if part <+: c :: rest then removeAll part rest (part.length - 1) else c :: removeAll part rest 0
  | _ :: rest, skip + 1 => removeAll part rest skip

def handleBinanceMsg (states : TickerStates) (now : ℤ) (stream : Option String) (data : BinanceData) :
    Option NormalizedTicker × TickerStates :=
  let stream := stream.getD ""
  if occursIn "@bookTicker" stream then
    let symbol := data.s.getD ""
    let state := (states.find? ("binance:" ++ symbol)).getD {}
    let bid := data.b.getD 0
    let ask := data.a.getD 0
    (some
      { exchange := "binance"
        symbol := symbol
        bid := bid
        ask := ask
        last := state.last.getD 0
        volume := 0
        timestamp := data.T.getD now },
      states.insert ("binance:" ++ symbol) { state with bid := some bid, ask := some ask })
  else if occursIn "@aggTrade" stream then
    let symbol := data.s.getD ""
    let state := (states.find? ("binance:" ++ symbol)).getD {}
    let last := data.p.getD 0
    (some
      { exchange := "binance"
        symbol := symbol
        bid := state.bid.getD 0
        ask := state.ask.getD 0
        last := last
        volume := 0
        timestamp := data.T.getD now },
      states.insert ("binance:" ++ symbol) { state with last := some last })
  else (none, states)

def handleOkxMsg (now : ℤ) (channel : Option String) : List OkxData → Option NormalizedTicker
  | [] => none
  | d :: _ =>
    if channel.getD "" = "tickers" then
      some
        { exchange := "okx"
          symbol := d.instId.getD ""
          bid := d.bidPx.getD 0
          ask := d.askPx.getD 0
          last := d.last.getD 0
          volume := d.vol24h.getD 0
          timestamp := d.ts.getD now }
    else none

def handleBybitMsg (now : ℤ) (topic : Option String) (data : BybitData) : Option NormalizedTicker :=
  let topic := topic.getD ""
  if startsWith topic "tickers." then
    some
      { exchange := "bybit"
        symbol := String.ofList (removeAll "tickers.".toList topic.toList 0)
        bid := data.bid1Price.getD 0
        ask := data.ask1Price.getD 0
        last := data.lastPrice.getD 0
        volume := data.volume24h.getD 0
        timestamp := data.ts.getD now }
  else none

/-- A message, by the handler of its venue. -/
def handle (states : TickerStates) (now : ℤ) : Message → Option NormalizedTicker × TickerStates
  | .binance stream data => handleBinanceMsg states now stream data
  | .okx channel data => (handleOkxMsg now channel data, states)
  | .bybit topic data => (handleBybitMsg now topic data, states)

example : (handleBybitMsg 0 (some "tickers.BTCUSDT") {}).map NormalizedTicker.symbol = some "BTCUSDT" := by
  decide +kernel

/-! ### What has been received -/

inductive PriceField
  | bid
  | ask
  | last
  deriving DecidableEq

def NormalizedTicker.price (ticker : NormalizedTicker) : PriceField → ℚ
  | .bid => ticker.bid
  | .ask => ticker.ask
  | .last => ticker.last

abbrev Prices := PriceField → Option ℚ

/-- What a ticker or trade message brings: for which venue and symbol, the fields that messages of its kind
have, and the prices that it carries for them. -/
structure Update where
  exchange : String
  symbol : String
  fields : PriceField → Bool
  prices : Prices

/-- A book message of Binance. -/
def bookUpdate (data : BinanceData) : Update where
  exchange := "binance"
  symbol := data.s.getD ""
  fields
    | .bid => true
    | .ask => true
    | .last => false
  prices
    | .bid => data.b
    | .ask => data.a
    | .last => none

/-- A trade message of Binance. -/
def tradeUpdate (data : BinanceData) : Update where
  exchange := "binance"
  symbol := data.s.getD ""
  fields
    | .bid => false
    | .ask => false
    | .last => true
  prices
    | .bid => none
    | .ask => none
    | .last => data.p

/-- A message with all fields. -/
def tickerUpdate (exchange symbol : String) (bid ask last : Option ℚ) : Update where
  exchange := exchange
  symbol := symbol
  fields _ := true
  prices
    | .bid => bid
    | .ask => ask
    | .last => last

def update : Message → Option Update
  | .binance stream data =>
    if occursIn "@bookTicker" (stream.getD "") then some (bookUpdate data)
    else if occursIn "@aggTrade" (stream.getD "") then some (tradeUpdate data) else none
  | .okx _ [] => none
  | .okx channel (d :: _) =>
    if channel.getD "" = "tickers" then some (tickerUpdate "okx" (d.instId.getD "") d.bidPx d.askPx d.last)
    else none
  | .bybit topic data =>
    if startsWith (topic.getD "") "tickers." then
      some (tickerUpdate "bybit" (String.ofList (removeAll "tickers.".toList (topic.getD "").toList 0))
        data.bid1Price data.ask1Price data.lastPrice) else none

/-- The last price that has come for each field of a venue and symbol. -/
abbrev Received := String → String → Prices

def receive (received : Received) (message : Message) : Received :=
  match update message with
  | none => received
  | some u => fun exchange symbol field =>
    if exchange = u.exchange ∧ symbol = u.symbol then (u.prices field).or (received exchange symbol field)
    else received exchange symbol field

/-! ### What a handler does -/

def TickerState.price (state : TickerState) : Prices
  | .bid => state.bid
  | .ask => state.ask
  | .last => state.last

/-- What the feed keeps for a symbol of Binance. -/
def kept (states : TickerStates) (symbol : String) : Prices :=
  ((states.find? ("binance:" ++ symbol)).getD {}).price

theorem kept_insert (states : TickerStates) (symbol other : String) (state : TickerState) :
    kept (states.insert ("binance:" ++ symbol) state) other =
      if other = symbol then state.price else kept states other := by
  by_cases h : other = symbol
  · rw [if_pos h, h, kept, Dict.find?_insert_self, Option.getD_some]
  · have hkey : "binance:" ++ other ≠ "binance:" ++ symbol := mt (String.append_right_inj _).mp h
    rw [if_neg h, kept, Dict.find?_insert_of_ne _ hkey, kept]

/-- The ticker of an update: a price of the message, or zero, for a field of its kind, and what is kept for
the others; a Binance message changes what is kept. -/
structure Handled (states : TickerStates) (u : Update) (ticker : NormalizedTicker) (states' : TickerStates) :
    Prop where
  exchange : ticker.exchange = u.exchange
  symbol : ticker.symbol = u.symbol
  price (field : PriceField) : ticker.price field =
    if u.fields field = true then (u.prices field).getD 0 else (kept states u.symbol field).getD 0
  kept (symbol : String) (field : PriceField) : kept states' symbol field =
    if (u.exchange = "binance" ∧ symbol = u.symbol) ∧ u.fields field = true then
      some ((u.prices field).getD 0)
    else kept states symbol field

theorem handled_tickerUpdate {states : TickerStates} {exchange symbol : String} {bid ask last : Option ℚ}
    (hexchange : exchange ≠ "binance") {ticker : NormalizedTicker} (h : ticker.exchange = exchange)
    (h' : ticker.symbol = symbol) (hbid : ticker.bid = bid.getD 0) (hask : ticker.ask = ask.getD 0)
    (hlast : ticker.last = last.getD 0) :
    Handled states (tickerUpdate exchange symbol bid ask last) ticker states := by
  refine ⟨h, h', ?_, ?_⟩
  · rintro (_ | _ | _)
    · exact hbid
    · exact hask
    · exact hlast
  · intro other field
    exact (if_neg fun hthis => hexchange hthis.1.1).symm

/-- A message that is no ticker or trade does nothing, and one that is makes a ticker. -/
theorem handle_cases (states : TickerStates) (now : ℤ) (message : Message) :
    (update message = none ∧ handle states now message = (none, states)) ∨
    ∃ u ticker states', update message = some u ∧ handle states now message = (some ticker, states') ∧
      Handled states u ticker states' := by
  cases message with
  | binance stream data =>
    by_cases hbook : occursIn "@bookTicker" (stream.getD "") = true
    · refine Or.inr ⟨_, _, _, if_pos hbook, if_pos hbook, rfl, rfl, ?_, ?_⟩
      · rintro (_ | _ | _) <;> rfl
      · intro symbol field
        rw [kept_insert]
        by_cases hsymbol : symbol = data.s.getD ""
        · cases field <;> simp [hsymbol, bookUpdate, TickerState.price, kept]
        · simp [hsymbol, bookUpdate]
    by_cases htrade : occursIn "@aggTrade" (stream.getD "") = true
    · refine Or.inr ⟨_, _, _, (if_neg hbook).trans (if_pos htrade), (if_neg hbook).trans (if_pos htrade),
        rfl, rfl, ?_, ?_⟩
      · rintro (_ | _ | _) <;> rfl
      · intro symbol field
        rw [kept_insert]
        by_cases hsymbol : symbol = data.s.getD ""
        · cases field <;> simp [hsymbol, tradeUpdate, TickerState.price, kept]
        · simp [hsymbol, tradeUpdate]
    · refine Or.inl ⟨?_, ?_⟩
      · rw [update, if_neg hbook, if_neg htrade]
      · rw [handle, handleBinanceMsg, if_neg hbook, if_neg htrade]
  | okx channel data =>
    cases data with
    | nil => exact Or.inl ⟨rfl, rfl⟩
    | cons d rest =>
      by_cases hchannel : channel.getD "" = "tickers"
      · exact Or.inr ⟨_, _, states, if_pos hchannel, congrArg (·, states) (if_pos hchannel),
          handled_tickerUpdate (by decide) rfl rfl rfl rfl rfl⟩
      · refine Or.inl ⟨if_neg hchannel, ?_⟩
        rw [handle, handleOkxMsg, if_neg hchannel]
  | bybit topic data =>
    by_cases htopic : startsWith (topic.getD "") "tickers." = true
    · exact Or.inr ⟨_, _, states, if_pos htopic, congrArg (·, states) (if_pos htopic),
        handled_tickerUpdate (by decide) rfl rfl rfl rfl rfl⟩
    · refine Or.inl ⟨if_neg htopic, ?_⟩
      rw [handle, handleBybitMsg, if_neg htopic]

/-- Only Binance has messages without all fields, and those carry no price for the others. -/
theorem eq_binance_of_update {message : Message} {u : Update} (h : update message = some u) {field : PriceField}
    (hfield : u.fields field = false) : u.exchange = "binance" ∧ u.prices field = none := by
  cases message with
  | binance stream data =>
    rw [update] at h
    split_ifs at h with hbook htrade
    · obtain rfl := Option.some.inj h
      cases field with
      | bid => cases hfield
      | ask => cases hfield
      | last => exact ⟨rfl, rfl⟩
    · obtain rfl := Option.some.inj h
      cases field with
      | bid => exact ⟨rfl, rfl⟩
      | ask => exact ⟨rfl, rfl⟩
      | last => cases hfield
  | okx channel data =>
    cases data with
    | nil => cases h
    | cons d rest =>
      rw [update] at h
      split_ifs at h
      obtain rfl := Option.some.inj h
      cases hfield
  | bybit topic data =>
    rw [update] at h
    split_ifs at h
    obtain rfl := Option.some.inj h
    cases hfield

/-! ### Runs -/

/-- The feed, with the last prices that have come. -/
structure System where
  states : TickerStates := Dict.empty
  received : Received := fun _ _ _ => none

namespace System

/-- A message at a time. -/
def step (s : System) (input : ℤ × Message) : System where
  states := (handle s.states input.1 input.2).2
  received := receive s.received input.2

/-- What is kept is what has come last. -/
def Coherent (s : System) : Prop :=
  ∀ symbol field, kept s.states symbol field = s.received "binance" symbol field

/-- The ticker of a message has, for a field that the message carries or that its kind has not, the last
price that has come for it, and zero if none has. -/
def Carries (s : System) (input : ℤ × Message) : Prop :=
  ∀ u ticker, update input.2 = some u → (handle s.states input.1 input.2).1 = some ticker →
    ∀ field, (u.prices field).isSome = true ∨ u.fields field = false →
      ticker.price field = (receive s.received input.2 ticker.exchange ticker.symbol field).getD 0

/-- The ticker of a message has the last price that has come for every field, and one has come. -/
def Latest (s : System) (input : ℤ × Message) : Prop :=
  ∀ ticker, (handle s.states input.1 input.2).1 = some ticker →
    ∀ field, receive s.received input.2 ticker.exchange ticker.symbol field = some (ticker.price field)

/-- A message carries a price for every field of its kind, unless it is one of Bybit. -/
def Complete (message : Message) : Prop :=
  ∀ u, update message = some u → u.exchange ≠ "bybit" →
    ∀ field, u.fields field = true → (u.prices field).isSome = true

/-- Every price of a ticker that its message does not carry has come before; if the message might have
carried it, it was zero. -/
def Supplied (s : System) (input : ℤ × Message) : Prop :=
  ∀ u, update input.2 = some u → ∀ field, u.prices field = none →
    if u.fields field = true then s.received u.exchange u.symbol field = some 0
    else s.received u.exchange u.symbol field ≠ none

variable {s : System} {input : ℤ × Message} {u : Update}

/-- What has come for the symbol of a message, after it. -/
theorem receive_self (received : Received) {message : Message} (hupdate : update message = some u)
    (field : PriceField) : receive received message u.exchange u.symbol field =
      (u.prices field).or (received u.exchange u.symbol field) := by
  rw [receive, hupdate]
  exact if_pos ⟨rfl, rfl⟩

theorem price_eq (h : s.Coherent) (hupdate : update input.2 = some u) {ticker : NormalizedTicker}
    {states' : TickerStates} (hhandled : Handled s.states u ticker states') (field : PriceField) :
    ticker.price field = if u.fields field = true then (u.prices field).getD 0
      else (s.received u.exchange u.symbol field).getD 0 := by
  rw [hhandled.price]
  by_cases hfield : u.fields field = true
  · rw [if_pos hfield, if_pos hfield]
  · rw [Bool.not_eq_true] at hfield
    rw [hfield, if_neg Bool.false_ne_true, if_neg Bool.false_ne_true, h,
      (eq_binance_of_update hupdate hfield).1]

/-- What is kept stays what has come last, if a Binance message leaves out only prices that are zero. -/
theorem coherent_step (h : s.Coherent)
    (hzero : ∀ u, update input.2 = some u → u.exchange = "binance" → ∀ field, u.fields field = true →
      (u.prices field).or (s.received u.exchange u.symbol field) = some ((u.prices field).getD 0)) :
    (s.step input).Coherent := by
  intro symbol field
  rcases handle_cases s.states input.1 input.2 with ⟨hupdate, hhandle⟩ |
      ⟨u, ticker, states', hupdate, hhandle, hhandled⟩
  · simp only [step, hhandle, receive, hupdate]
    exact h symbol field
  · simp only [step, hhandle, hhandled.kept]
    by_cases hsymbol : u.exchange = "binance" ∧ symbol = u.symbol
    · obtain ⟨hbinance, rfl⟩ := hsymbol
      rw [← hbinance, receive_self _ hupdate]
      by_cases hfield : u.fields field = true
      · rw [if_pos ⟨⟨rfl, rfl⟩, hfield⟩, hzero u hupdate hbinance field hfield]
      · have hnone := (eq_binance_of_update hupdate (Bool.not_eq_true _ ▸ hfield)).2
        rw [if_neg fun hthis => hfield hthis.2, hnone, Option.none_or, h, hbinance]
    · have hother : ¬ ("binance" = u.exchange ∧ symbol = u.symbol) := fun hthis =>
        hsymbol ⟨hthis.1.symm, hthis.2⟩
      rw [if_neg fun hthis => hsymbol hthis.1, receive, hupdate]
      simp only [if_neg hother]
      exact h symbol field

theorem coherent_start : Coherent {} := by
  intro symbol field
  cases field <;> rfl

/-- What a message makes a ticker of. -/
theorem emits (s : System) (input : ℤ × Message) {ticker : NormalizedTicker}
    (hticker : (handle s.states input.1 input.2).1 = some ticker) :
    ∃ u states', update input.2 = some u ∧ Handled s.states u ticker states' := by
  rcases handle_cases s.states input.1 input.2 with ⟨-, hhandle⟩ |
      ⟨u, ticker', states', hupdate, hhandle, hhandled⟩
  · rw [hhandle] at hticker
    cases hticker
  · rw [hhandle] at hticker
    obtain rfl := Option.some.inj hticker
    exact ⟨u, states', hupdate, hhandled⟩

theorem carries_of_coherent (h : s.Coherent) (input : ℤ × Message) : s.Carries input := by
  intro u ticker hupdate hticker field hcovered
  obtain ⟨u', states', hupdate', hhandled⟩ := emits s input hticker
  rw [hupdate] at hupdate'
  obtain rfl := Option.some.inj hupdate'
  rw [price_eq h hupdate hhandled, hhandled.exchange, hhandled.symbol, receive_self _ hupdate]
  by_cases hfield : u.fields field = true
  · rw [if_pos hfield]
    obtain ⟨price, hprice⟩ := Option.isSome_iff_exists.mp (hcovered.resolve_right (by simp [hfield]))
    rw [hprice, Option.some_or]
  · have hnone := (eq_binance_of_update hupdate (Bool.not_eq_true _ ▸ hfield)).2
    rw [if_neg hfield, hnone, Option.none_or]

/-- Every ticker has, for a price that its message carries or that the feed keeps for it, the last one that
has come, if no venue but Bybit leaves out what its messages have. -/
theorem tickers_carry (inputs : List (ℤ × Message)) (h : ∀ input ∈ inputs, Complete input.2) :
    Along step Carries {} inputs := by
  refine along_imp Coherent ?_ (fun s input hcoherent _ => carries_of_coherent hcoherent input) coherent_start
    ((along_input_iff step (fun input : ℤ × Message => Complete input.2) {} inputs).mpr h)
  intro s input hcoherent hcomplete
  refine coherent_step hcoherent fun u hupdate hbinance field hfield => ?_
  have hnot : u.exchange ≠ "bybit" := by
    rw [hbinance]
    decide
  obtain ⟨price, hprice⟩ := Option.isSome_iff_exists.mp (hcomplete u hupdate hnot field hfield)
  rw [hprice, Option.some_or, Option.getD_some]

/-- A ticker has the last prices exactly if those that its message does not carry have come before. -/
theorem latest_iff_supplied (h : s.Coherent) (input : ℤ × Message) : s.Latest input ↔ s.Supplied input := by
  constructor
  · intro hlatest u hupdate field hnone
    rcases handle_cases s.states input.1 input.2 with ⟨hnot, -⟩ |
        ⟨u', ticker, states', hupdate', hhandle, hhandled⟩
    · rw [hnot] at hupdate
      cases hupdate
    · rw [hupdate] at hupdate'
      obtain rfl := Option.some.inj hupdate'
      have hprice := hlatest ticker (by rw [hhandle]) field
      rw [hhandled.exchange, hhandled.symbol, receive_self _ hupdate, hnone, Option.none_or,
        price_eq h hupdate hhandled, hnone] at hprice
      by_cases hfield : u.fields field = true
      · rwa [if_pos hfield] at hprice ⊢
      · rw [if_neg hfield, hprice]
        exact Option.some_ne_none _
  · intro hsupplied ticker hticker field
    obtain ⟨u, states', hupdate, hhandled⟩ := emits s input hticker
    rw [hhandled.exchange, hhandled.symbol, receive_self _ hupdate, price_eq h hupdate hhandled]
    have hcome := hsupplied u hupdate field
    cases hprice : u.prices field with
    | some price =>
      have hfield : u.fields field = true := by
        by_contra hfield
        have hnone := (eq_binance_of_update hupdate (Bool.not_eq_true _ ▸ hfield)).2
        rw [hprice] at hnone
        cases hnone
      rw [if_pos hfield]
      rfl
    | none =>
      have hcome := hcome hprice
      by_cases hfield : u.fields field = true
      · rw [if_pos hfield] at hcome ⊢
        rw [hcome]
        rfl
      · rw [if_neg hfield] at hcome ⊢
        obtain ⟨price, hreceived⟩ := Option.ne_none_iff_exists'.mp hcome
        rw [hreceived]
        rfl

/-- Whatever the messages leave out, the tickers of a run have the last prices exactly if those that are left
out have come before. -/
theorem latest_iff (inputs : List (ℤ × Message)) : Along step Latest {} inputs ↔ Along step Supplied {} inputs := by
  refine along_congr Coherent ?_ (fun s input h => latest_iff_supplied h input) inputs coherent_start
  intro s input hcoherent hlatest
  have hsupplied := (latest_iff_supplied hcoherent input).mp hlatest
  refine coherent_step hcoherent fun u hupdate _ field hfield => ?_
  cases hprice : u.prices field with
  | some price => rfl
  | none =>
    have hcome := hsupplied u hupdate field hprice
    rw [if_pos hfield] at hcome
    rw [hcome]
    rfl

/-- A trade before any book message: bid and ask are zero. -/
theorem not_latest_first_trade : ¬ Along step Latest {}
    [(0, .binance (some "btcusdt@aggTrade") { s := some "BTCUSDT", p := some 50000, T := some 1 })] := by
  rw [latest_iff]
  rintro ⟨hsupplied, -⟩
  exact hsupplied _ rfl .bid rfl rfl

/-- The book after the trade, and a change of the last price at Bybit. -/
theorem tickers_carry_merged :
    (∀ input ∈ ([(0, .binance (some "btcusdt@aggTrade") { s := some "BTCUSDT", p := some 50000 }),
        (1, .binance (some "btcusdt@bookTicker") { s := some "BTCUSDT", b := some 49999, a := some 50001 }),
        (2, .bybit (some "tickers.BTCUSDT") { lastPrice := some 50002 })] : List (ℤ × Message)),
      Complete input.2) ∧
    Along step Carries {} [(0, .binance (some "btcusdt@aggTrade") { s := some "BTCUSDT", p := some 50000 }),
      (1, .binance (some "btcusdt@bookTicker") { s := some "BTCUSDT", b := some 49999, a := some 50001 }),
      (2, .bybit (some "tickers.BTCUSDT") { lastPrice := some 50002 })] := by
  have hcomplete : ∀ input ∈ ([(0, .binance (some "btcusdt@aggTrade") { s := some "BTCUSDT", p := some 50000 }),
      (1, .binance (some "btcusdt@bookTicker") { s := some "BTCUSDT", b := some 49999, a := some 50001 }),
      (2, .bybit (some "tickers.BTCUSDT") { lastPrice := some 50002 })] : List (ℤ × Message)),
      Complete input.2 := by
    simp only [List.forall_mem_cons]
    refine ⟨?_, ?_, ?_, fun _ h => by cases h⟩
    · intro u hupdate _ field hfield
      cases hupdate
      cases field <;> first | rfl | cases hfield
    · intro u hupdate _ field hfield
      cases hupdate
      cases field <;> first | rfl | cases hfield
    · intro u hupdate hnot
      cases hupdate
      exact absurd rfl hnot
  exact ⟨hcomplete, tickers_carry _ hcomplete⟩

end System

end TradingSim.Bot.MarketDataFeed
