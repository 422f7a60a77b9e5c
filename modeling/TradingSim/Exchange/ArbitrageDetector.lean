import Mathlib.Data.List.Nodup
import Mathlib.Tactic.Linarith
import Mathlib.Tactic.Positivity
import Mathlib.Tactic.Ring
import TradingSim.Exchange.Models
import TradingSim.Foundations.Run

/-!
# The arbitrage detector

A scan compares the best ask of each exchange with the best bid of each other one and reports the pairs
whose spread covers both fees and slippages, unless the pair is reported already. Opportunities are active
until they are closed or are too old. The counters move with the list of active opportunities.
-/

namespace TradingSim.Exchange.Detection

open Foundations

inductive ArbStatus where
  | «open»
  | closed
  | expired
  deriving DecidableEq

/-- A cross-exchange arbitrage opportunity. -/
structure ArbitrageOpportunity where
  symbol : String
  buyExchange : String
  sellExchange : String
  buyPrice : ℚ
  sellPrice : ℚ
  grossSpread : ℚ
  netSpread : ℚ
  spreadBps : ℚ
  buyQuantity : ℚ
  sellQuantity : ℚ
  maxQuantity : ℚ
  estimatedProfit : ℚ
  timestamp : ℤ
  status : ArbStatus := .open
  closedAt : ℤ := 0
  closeReason : String := ""
  deriving DecidableEq

/-- The settings of a detector. The exchanges are the keys of a dictionary. -/
structure Settings where
  exchanges : List String
  feePct : ℚ := 75 / 1000
  slippageBps : ℚ := 2
  minSpreadBps : ℚ := 5
  opportunityTtl : ℚ := 30
  exchanges_nodup : exchanges.Nodup

structure Stats where
  totalDetected : ℕ := 0
  totalClosed : ℕ := 0
  totalExpired : ℕ := 0
  totalEstimatedProfit : ℚ := 0
  bestSpreadBps : ℚ := 0
  deriving DecidableEq

/-- The state of a detector. -/
structure ArbitrageDetector where
  activeOpportunities : List ArbitrageOpportunity := []
  closedHistory : List ArbitrageOpportunity := []
  stats : Stats := {}
  deriving DecidableEq

/-- No level of a book offers a negative quantity. -/
def Stocked (ob : OrderBook) : Prop := ∀ level ∈ ob.bids ++ ob.asks, 0 ≤ level.quantity

/-- The symbols and the order books of an exchange at the time of a scan. -/
structure ExchangeView where
  symbols : List String
  getOrderBook : String → OrderBook
  stocked : ∀ symbol, Stocked (getOrderBook symbol)

/-- What a scan reads: the clock in whole seconds, the exchanges, and the symbols in the order in which the
set of them is gone through. -/
structure Reading (c : Settings) where
  now : ℤ
  exchange : String → ExchangeView
  symbols : List String
  mem_symbols : ∀ symbol, symbol ∈ symbols ↔ ∃ id ∈ c.exchanges, symbol ∈ (exchange id).symbols

/-- The best prices of an exchange and the quantities they are offered for. -/
structure Quote where
  exchange : String
  bestBid : ℚ
  bestAsk : ℚ
  bidQty : ℚ
  askQty : ℚ
  deriving DecidableEq

/-- The closed history keeps the last thousand. -/
def pushClosed (history opps : List ArbitrageOpportunity) : List ArbitrageOpportunity :=
  (history ++ opps).drop ((history ++ opps).length - 1000)

section Scan

variable (c : Settings)

/-- The books of a symbol that have both sides, by exchange. -/
def collectOrderBooks (r : Reading c) (symbol : String) : List (String × OrderBook) :=
  c.exchanges.filterMap fun id =>
    let ob := (r.exchange id).getOrderBook symbol
    if ob.bids ≠ [] ∧ ob.asks ≠ [] then some (id, ob) else none

/-- The best prices of the books. -/
def buildPriceList (books : List (String × OrderBook)) : List Quote :=
  books.map fun (id, ob) =>
    { exchange := id
      bestBid := (ob.bids.head?.map OrderBookLevel.price).getD 0
      bestAsk := (ob.asks.head?.map OrderBookLevel.price).getD 0
      bidQty := (ob.bids.head?.map OrderBookLevel.quantity).getD 0
      askQty := (ob.asks.head?.map OrderBookLevel.quantity).getD 0 }

/-- Whether buying on one exchange and selling on another is profitable. -/
def checkExchangePair (symbol : String) (buyer seller : Quote) (now : ℤ) : Option ArbitrageOpportunity :=
  let buyPrice := buyer.bestAsk
  let sellPrice := seller.bestBid
  if sellPrice ≤ buyPrice ∨ buyPrice ≤ 0 then none
  else
    let buyFee := buyPrice * c.feePct / 100
    let sellFee := sellPrice * c.feePct / 100
    let buySlip := buyPrice * c.slippageBps / 10000
    let sellSlip := sellPrice * c.slippageBps / 10000
    let netSpread := sellPrice - buyPrice - buyFee - sellFee - buySlip - sellSlip
    if netSpread ≤ 0 then none
    else
      let spreadBps := netSpread / buyPrice * 10000
      if spreadBps < c.minSpreadBps then none
      else
        let maxQty := min buyer.askQty seller.bidQty
        some
          { symbol := symbol
            buyExchange := buyer.exchange
            sellExchange := seller.exchange
            buyPrice := buyPrice
            sellPrice := sellPrice
            grossSpread := sellPrice - buyPrice
            netSpread := netSpread
            spreadBps := spreadBps
            buyQuantity := buyer.askQty
            sellQuantity := seller.bidQty
            maxQuantity := maxQty
            estimatedProfit := netSpread * maxQty
            timestamp := now }

/-- What makes two opportunities the same. -/
def ArbitrageOpportunity.key (o : ArbitrageOpportunity) : String × String × String :=
  (o.symbol, o.buyExchange, o.sellExchange)

/-- Whether an opportunity is active already. -/
def isDuplicateOpp (d : ArbitrageDetector) (opp : ArbitrageOpportunity) : Bool :=
  d.activeOpportunities.any fun o => o.key = opp.key

/-- Count a new opportunity. -/
def recordStats (s : Stats) (opp : ArbitrageOpportunity) : Stats :=
  { s with
    totalDetected := s.totalDetected + 1
    totalEstimatedProfit := s.totalEstimatedProfit + opp.estimatedProfit
    bestSpreadBps := max s.bestSpreadBps opp.spreadBps }

/-- The new opportunities of a scan so far, and the detector. -/
abbrev Progress := List ArbitrageOpportunity × ArbitrageDetector

/-- One pair of exchanges. -/
def scanPair (symbol : String) (now : ℤ) (s : Progress) (pair : (Quote × ℕ) × (Quote × ℕ)) : Progress :=
  let ((buyer, i), (seller, j)) := pair
  if i = j then s
  else
    match checkExchangePair c symbol buyer seller now with
    | none => s
    | some opp =>
      if isDuplicateOpp s.2 opp then s
      else
        (s.1 ++ [opp],
          { s.2 with
            activeOpportunities := s.2.activeOpportunities ++ [opp]
            stats := recordStats s.2.stats opp })

/-- One symbol: every exchange as the buyer with every exchange as the seller. -/
def scanSymbol (r : Reading c) (s : Progress) (symbol : String) : Progress :=
  let books := collectOrderBooks c r symbol
  if books.length < 2 then s
  else
    let exchangePrices := (buildPriceList books).zipIdx
    (exchangePrices.product exchangePrices).foldl (scanPair c symbol r.now) s

/-- An opportunity is older than it may be. -/
def tooOld (now : ℤ) (opp : ArbitrageOpportunity) : Bool := c.opportunityTtl < now - opp.timestamp

def ArbitrageOpportunity.expire (now : ℤ) (opp : ArbitrageOpportunity) : ArbitrageOpportunity :=
  { opp with status := .expired, closedAt := now, closeReason := "TTL expired" }

/-- Expire the opportunities that are too old. -/
def expireOld (now : ℤ) (d : ArbitrageDetector) : ArbitrageDetector :=
  let old := d.activeOpportunities.filter (tooOld c now)
  { activeOpportunities := d.activeOpportunities.filter fun opp => !tooOld c now opp
    closedHistory := pushClosed d.closedHistory (old.map (·.expire now))
    stats := { d.stats with totalExpired := d.stats.totalExpired + old.length } }

/-- Scan the exchanges: the new opportunities, and the detector afterwards. -/
def scan (r : Reading c) (d : ArbitrageDetector) : List ArbitrageOpportunity × ArbitrageDetector :=
  let found := r.symbols.foldl (scanSymbol c r) ([], d)
  -- A new opportunity that is too old at once is expired in place.
  (found.1.map fun opp => if tooOld c r.now opp then opp.expire r.now else opp, expireOld c r.now found.2)

/-- Close the first active opportunity of a symbol and two exchanges. -/
def closeOpportunity (symbol buyEx sellEx reason : String) (now : ℤ) (d : ArbitrageDetector) :
    ArbitrageDetector :=
  match d.activeOpportunities.find? fun o => o.key = (symbol, buyEx, sellEx) with
  | none => d
  | some opp =>
    { activeOpportunities := d.activeOpportunities.eraseP fun o => o.key = (symbol, buyEx, sellEx)
      closedHistory := pushClosed d.closedHistory
        [{ opp with status := .closed, closedAt := now, closeReason := reason }]
      stats := { d.stats with totalClosed := d.stats.totalClosed + 1 } }

end Scan

section Soundness

/-- The profit of buying the quantity on the one exchange and selling it on the other, with a fee and the
slippage on each side. -/
def ArbitrageOpportunity.executionProfit (c : Settings) (o : ArbitrageOpportunity) : ℚ :=
  let bought := o.buyPrice * o.maxQuantity
  let sold := o.sellPrice * o.maxQuantity
  let cost := bought + bought * c.feePct / 100 + bought * c.slippageBps / 10000
  let proceeds := sold - sold * c.feePct / 100 - sold * c.slippageBps / 10000
  proceeds - cost

/-- An opportunity is between two exchanges and its estimate is what executing it yields: no loss, and at
least the minimal spread of what is bought. -/
structure Sound (c : Settings) (o : ArbitrageOpportunity) : Prop where
  distinct : o.buyExchange ≠ o.sellExchange
  estimate : o.executionProfit c = o.estimatedProfit
  nonneg : 0 ≤ o.estimatedProfit
  spread : c.minSpreadBps / 10000 * (o.buyPrice * o.maxQuantity) ≤ o.estimatedProfit

variable {c : Settings}

/-- What two quotes of different exchanges make is sound. -/
theorem sound_of_checkExchangePair {symbol : String} {buyer seller : Quote} {now : ℤ}
    {opp : ArbitrageOpportunity} (hne : buyer.exchange ≠ seller.exchange) (hask : 0 ≤ buyer.askQty)
    (hbid : 0 ≤ seller.bidQty) (h : checkExchangePair c symbol buyer seller now = some opp) :
    Sound c opp := by
  simp only [checkExchangePair] at h
  split_ifs at h with hprices hnet hbps
  cases h
  rw [not_or, not_le, not_le] at hprices
  rw [not_le] at hnet
  rw [not_lt] at hbps
  have hqty : 0 ≤ min buyer.askQty seller.bidQty := le_min hask hbid
  refine ⟨hne, ?_, mul_nonneg hnet.le hqty, ?_⟩
  · simp only [ArbitrageOpportunity.executionProfit]
    ring
  · -- The spread in basis points, times the price, is the net spread.
    have hspread := mul_le_mul_of_nonneg_right hbps hprices.2.le
    rw [div_mul_eq_mul_div, div_mul_cancel₀ _ hprices.2.ne'] at hspread
    have hscaled := mul_le_mul_of_nonneg_right hspread hqty
    linarith

example : (checkExchangePair ⟨["binance", "okx"], 75 / 1000, 2, 5, 30, by decide⟩ "BTC/USDT"
    ⟨"binance", 99, 100, 1, 2⟩ ⟨"okx", 101, 102, 3, 1⟩ 0).map ArbitrageOpportunity.estimatedProfit =
      some (16181 / 10000) := by decide +kernel

/-- An exchange has one quote for a symbol. -/
theorem nodup_quotes (r : Reading c) (symbol : String) :
    ((buildPriceList (collectOrderBooks c r symbol)).map Quote.exchange).Nodup := by
  have hnames : ((buildPriceList (collectOrderBooks c r symbol)).map Quote.exchange).Sublist
      c.exchanges := by
    rw [buildPriceList, collectOrderBooks, List.map_map]
    induction c.exchanges with
    | nil => exact List.Sublist.refl _
    | cons id rest ih =>
      rw [List.filterMap_cons]
      split
      · exact ih.cons id
      · rename_i book hbook
        dsimp only at hbook
        split_ifs at hbook
        cases hbook
        exact ih.cons_cons id
  exact c.exchanges_nodup.sublist hnames

theorem quote_nonneg {r : Reading c} {symbol : String} {quote : Quote}
    (h : quote ∈ buildPriceList (collectOrderBooks c r symbol)) : 0 ≤ quote.askQty ∧ 0 ≤ quote.bidQty := by
  obtain ⟨_, hob, rfl⟩ := List.mem_map.mp h
  obtain ⟨name, _, hread⟩ := List.mem_filterMap.mp hob
  dsimp only at hread
  split_ifs at hread
  cases hread
  have hhead (levels : List OrderBookLevel) (hlevels : ∀ level ∈ levels, 0 ≤ level.quantity) :
      0 ≤ (levels.head?.map OrderBookLevel.quantity).getD 0 := by
    cases levels with
    | nil => exact le_rfl
    | cons level rest => exact hlevels level List.mem_cons_self
  have hstocked := (r.exchange name).stocked symbol
  constructor
  · exact hhead _ fun level hlevel => hstocked level (List.mem_append_right _ hlevel)
  · exact hhead _ fun level hlevel => hstocked level (List.mem_append_left _ hlevel)

/-- The counters of a detector tell what became of the opportunities, no two active ones are the same, and
all are sound. -/
structure Accounted (c : Settings) (d : ArbitrageDetector) : Prop where
  detected : d.stats.totalDetected =
    d.stats.totalClosed + d.stats.totalExpired + d.activeOpportunities.length
  unique : (d.activeOpportunities.map ArbitrageOpportunity.key).Nodup
  active : ∀ o ∈ d.activeOpportunities, Sound c o
  closed : ∀ o ∈ d.closedHistory, Sound c o

/-- A detector in the middle of a scan, with what the scan has found so far. -/
structure Found (c : Settings) (s : Progress) : Prop where
  accounted : Accounted c s.2
  found : ∀ o ∈ s.1, Sound c o

theorem Found.scanPair {s : Progress} (h : Found c s) (symbol : String) (now : ℤ)
    {pair : (Quote × ℕ) × (Quote × ℕ)}
    (hpair : pair.1.2 ≠ pair.2.2 → pair.1.1.exchange ≠ pair.2.1.exchange)
    (hask : 0 ≤ pair.1.1.askQty) (hbid : 0 ≤ pair.2.1.bidQty) :
    Found c (scanPair c symbol now s pair) := by
  obtain ⟨⟨buyer, i⟩, ⟨seller, j⟩⟩ := pair
  rw [Detection.scanPair]
  split_ifs with hsame
  · exact h
  · cases hopp : checkExchangePair c symbol buyer seller now with
    | none => exact h
    | some opp =>
      have hsound : Sound c opp := sound_of_checkExchangePair (hpair hsame) hask hbid hopp
      dsimp only
      split_ifs with hduplicate
      · exact h
      · have hfresh : opp.key ∉ s.2.activeOpportunities.map ArbitrageOpportunity.key := by
          intro hmem
          apply hduplicate
          obtain ⟨o, ho, hkey⟩ := List.mem_map.mp hmem
          exact List.any_eq_true.mpr ⟨o, ho, decide_eq_true hkey⟩
        refine ⟨⟨?_, ?_, ?_, h.accounted.closed⟩, ?_⟩
        · have hdetected := h.accounted.detected
          simp only [recordStats, List.length_append, List.length_singleton]
          omega
        · rw [List.map_append, List.map_singleton, List.nodup_append_comm]
          exact List.nodup_cons.mpr ⟨hfresh, h.accounted.unique⟩
        · intro o ho
          rcases List.mem_append.mp ho with hold | hnew
          · exact h.accounted.active o hold
          · rwa [List.mem_singleton.mp hnew]
        · intro o ho
          rcases List.mem_append.mp ho with hold | hnew
          · exact h.found o hold
          · rwa [List.mem_singleton.mp hnew]

theorem Found.scanSymbol {s : Progress} (h : Found c s) (r : Reading c) (symbol : String) :
    Found c (scanSymbol c r s symbol) := by
  rw [Detection.scanSymbol]
  split_ifs
  · exact h
  · apply List.foldlRecOn (motive := Found c) _ _ h
    intro s hs pair hpair
    obtain ⟨⟨buyer, i⟩, ⟨seller, j⟩⟩ := pair
    obtain ⟨hbuyer, hseller⟩ := List.pair_mem_product.mp hpair
    apply hs.scanPair
    · -- Different places in the list are those of different exchanges.
      intro hne hsame
      obtain ⟨-, hi, hbuyerAt⟩ := List.mem_zipIdx hbuyer
      obtain ⟨-, hj, hsellerAt⟩ := List.mem_zipIdx hseller
      simp only [Nat.sub_zero, Nat.zero_add] at hi hj hbuyerAt hsellerAt
      let names := (buildPriceList (collectOrderBooks c r symbol)).map Quote.exchange
      have hi' : i < names.length := by simpa [names] using hi
      have hj' : j < names.length := by simpa [names] using hj
      have hat : names[i] = names[j] := by
        simp only [names, List.getElem_map, ← hbuyerAt, ← hsellerAt]
        exact hsame
      exact hne ((List.Nodup.getElem_inj_iff (nodup_quotes r symbol)).mp hat)
    · exact (quote_nonneg (List.fst_mem_of_mem_zipIdx hbuyer)).1
    · exact (quote_nonneg (List.fst_mem_of_mem_zipIdx hseller)).2

theorem Sound.expire {o : ArbitrageOpportunity} (h : Sound c o) (now : ℤ) : Sound c (o.expire now) :=
  ⟨h.distinct, h.estimate, h.nonneg, h.spread⟩

theorem forall_mem_pushClosed {p : ArbitrageOpportunity → Prop} {history opps : List ArbitrageOpportunity}
    (hhistory : ∀ o ∈ history, p o) (hopps : ∀ o ∈ opps, p o) : ∀ o ∈ pushClosed history opps, p o := by
  intro o ho
  rcases List.mem_append.mp (List.mem_of_mem_drop ho) with hold | hnew
  · exact hhistory o hold
  · exact hopps o hnew

theorem Accounted.expireOld {d : ArbitrageDetector} (h : Accounted c d) (now : ℤ) :
    Accounted c (expireOld c now d) where
  detected := by
    have hdetected := h.detected
    have hlength := List.length_eq_length_filter_add (l := d.activeOpportunities) (tooOld c now)
    simp only [Detection.expireOld]
    omega
  unique := h.unique.sublist (List.filter_sublist.map _)
  active o ho := h.active o (List.mem_of_mem_filter ho)
  closed := by
    simp only [Detection.expireOld]
    apply forall_mem_pushClosed h.closed
    intro o ho
    obtain ⟨old, hold, rfl⟩ := List.mem_map.mp ho
    exact (h.active old (List.mem_of_mem_filter hold)).expire now

theorem Accounted.closeOpportunity {d : ArbitrageDetector} (h : Accounted c d)
    (symbol buyEx sellEx reason : String) (now : ℤ) :
    Accounted c (closeOpportunity symbol buyEx sellEx reason now d) := by
  rw [Detection.closeOpportunity]
  split
  · exact h
  · rename_i opp hfind
    have hmem : opp ∈ d.activeOpportunities := List.mem_of_find?_eq_some hfind
    have hkey := List.find?_some hfind
    have hlength : (d.activeOpportunities.eraseP fun o => o.key = (symbol, buyEx, sellEx)).length =
        d.activeOpportunities.length - 1 := List.length_eraseP_of_mem hmem hkey
    have hpos := List.length_pos_of_mem hmem
    have hsound := h.active opp hmem
    refine ⟨?_, h.unique.sublist (List.eraseP_sublist.map _), ?_, ?_⟩
    · have hdetected := h.detected
      dsimp only
      omega
    · exact fun o ho => h.active o (List.mem_of_mem_eraseP ho)
    · dsimp only
      apply forall_mem_pushClosed h.closed
      intro o ho
      rw [List.mem_singleton.mp ho]
      exact ⟨hsound.distinct, hsound.estimate, hsound.nonneg, hsound.spread⟩

/-- A scan keeps the account of what was found, and leaves nothing active for longer than it may be. -/
theorem Accounted.scan {d : ArbitrageDetector} (h : Accounted c d) (r : Reading c) :
    Accounted c (scan c r d).2 ∧ (∀ o ∈ (scan c r d).1, Sound c o) ∧
      ∀ o ∈ (scan c r d).2.activeOpportunities, (r.now - o.timestamp : ℚ) ≤ c.opportunityTtl := by
  have hinit : Found c ([], d) := ⟨h, List.forall_mem_nil _⟩
  have hfound : Found c (r.symbols.foldl (scanSymbol c r) ([], d)) :=
    List.foldlRecOn (motive := Found c) _ _ hinit fun s hs symbol _ => hs.scanSymbol r symbol
  refine ⟨hfound.accounted.expireOld r.now, ?_, ?_⟩
  · intro o ho
    obtain ⟨opp, hopp, rfl⟩ := List.mem_map.mp ho
    split_ifs
    · exact (hfound.found opp hopp).expire r.now
    · exact hfound.found opp hopp
  · intro o ho
    have hfresh := List.of_mem_filter ho
    simpa [tooOld] using hfresh

end Soundness

/-- What is done with a detector. -/
inductive DetectorOp (c : Settings) where
  | scan (r : Reading c)
  | closeOpportunity (symbol buyEx sellEx reason : String) (now : ℤ)

/-- The detector after an operation. -/
def perform (c : Settings) (d : ArbitrageDetector) : DetectorOp c → ArbitrageDetector
  | .scan r => (scan c r d).2
  | .closeOpportunity symbol buyEx sellEx reason now => closeOpportunity symbol buyEx sellEx reason now d

/-- After any operations on a new detector the opportunities are accounted for, and a scan reports sound
ones and leaves none active that is too old. -/
theorem accounted_run (c : Settings) (ops : List (DetectorOp c)) :
    Accounted c (run (perform c) {} ops) ∧ ∀ r : Reading c,
      (∀ o ∈ (scan c r (run (perform c) {} ops)).1, Sound c o) ∧
        ∀ o ∈ (scan c r (run (perform c) {} ops)).2.activeOpportunities,
          (r.now - o.timestamp : ℚ) ≤ c.opportunityTtl := by
  have hinit : Accounted c {} := ⟨rfl, List.nodup_nil, List.forall_mem_nil _, List.forall_mem_nil _⟩
  have hstep (d : ArbitrageDetector) (op : DetectorOp c) (h : Accounted c d) :
      Accounted c (perform c d op) := by
    cases op with
    | scan r => exact (h.scan r).1
    | closeOpportunity symbol buyEx sellEx reason now => exact h.closeOpportunity ..
  have hrun : Accounted c (run (perform c) {} ops) := run_invariant hstep ops hinit
  exact ⟨hrun, fun r => (hrun.scan r).2⟩

end TradingSim.Exchange.Detection
