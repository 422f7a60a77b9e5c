import TradingSim.Exchange.Rounding
import TradingSim.Foundations.Run
import TradingSim.Market.Ticks

/-!
# Order books along a run

A book is drawn around the current price and later moved in place: every price is scaled by one
ratio and rounded, every quantity by one draw. Scaling by a positive ratio and rounding keep the
order of the prices, so a book stays sorted and uncrossed, and a quantity of the grid is never
rounded away.
-/

namespace TradingSim.Market

open Foundations
open Exchange

/-- The library rounds as the source does, and its uniform draws lie in the unit interval. -/
structure Library.Standard {σ : Type} (L : Library σ) : Prop where
  decimal : L.numerics = Numerics.decimal
  nonneg : ∀ rng, 0 ≤ (L.random rng).1
  lt_one : ∀ rng, (L.random rng).1 < 1

/-- A level's quantity is on the grid of four decimals. -/
def Recorded (level : OrderBookLevel) : Prop := ∃ x, level.quantity = roundHalfEven x 4

/-- A level keeps having a quantity if it had one. -/
def KeepsQuantity (before after : OrderBookLevel) : Prop := 0 < before.quantity → 0 < after.quantity

/-- Bids do not rise and asks do not fall from level to level, and the best ones do not cross. -/
structure WellFormed (book : OrderBook) : Prop where
  bids_sorted : book.bids.Pairwise fun a b => b.price ≤ a.price
  asks_sorted : book.asks.Pairwise fun a b => a.price ≤ b.price
  uncrossed : ∀ bid ∈ book.bids.head?, ∀ ask ∈ book.asks.head?, bid.price ≤ ask.price

/-- A book has the levels that it was drawn with, and no level has lost its quantity. -/
structure KeepsLevels (drawn book : OrderBook) : Prop where
  bids_length : book.bids.length = drawn.bids.length
  asks_length : book.asks.length = drawn.asks.length
  bids : List.Forall₂ KeepsQuantity drawn.bids book.bids
  asks : List.Forall₂ KeepsQuantity drawn.asks book.asks

/-- What a cached book satisfies: it has as many bids as asks, on the grid. -/
structure Maintained (drawn book : OrderBook) : Prop extends
    WellFormed book, KeepsLevels drawn book where
  sides : book.bids.length = book.asks.length
  bids_recorded : ∀ bid ∈ book.bids, Recorded bid
  asks_recorded : ∀ ask ∈ book.asks, Recorded ask

/-- A relation between neighbours carries over to a list that is related element by element. -/
theorem pairwise_of_forall₂ {α : Type} {r : α → α → Prop} {before after : α → α → Prop}
    (hstep : ∀ a a' b b', r a a' → r b b' → before a b → after a' b') {l l' : List α}
    (h : List.Forall₂ r l l') (hl : l.Pairwise before) : l'.Pairwise after := by
  induction h with
  | nil => exact List.Pairwise.nil
  | cons ha hrest ih =>
    obtain ⟨hhead, htail⟩ := List.pairwise_cons.mp hl
    refine List.pairwise_cons.mpr ⟨?_, ih htail⟩
    intro b' hb'
    obtain ⟨n, hn, rfl⟩ := List.getElem_of_mem hb'
    have hn' : n < _ := hrest.length_eq ▸ hn
    exact hstep _ _ _ _ ha (hrest.get hn' hn) (hhead _ (List.getElem_mem hn'))

/-- The first elements of lists that are related element by element are related. -/
theorem head?_of_forall₂ {α β : Type} {r : α → β → Prop} {l : List α} {l' : List β}
    (h : List.Forall₂ r l l') {b : β} (hb : b ∈ l'.head?) : ∃ a ∈ l.head?, r a b := by
  cases h with
  | nil => cases hb
  | cons ha _ =>
    cases hb
    exact ⟨_, rfl, ha⟩

namespace MarketSimulator

variable {σ : Type} {L : Library σ} {c : MarketConfig}

/-- A level after a move: its price scaled and rounded, its quantity multiplied by a draw. -/
def Moved (ratio : ℚ) (before after : OrderBookLevel) : Prop :=
  after.price = roundPriceWith roundHalfEven (before.price * ratio) ∧
    ∃ perturb, 9 / 10 ≤ perturb ∧ after.quantity = roundHalfEven (before.quantity * perturb) 4

/-- An update in place moves every level of a book. -/
theorem moved_perturbLevels (hL : L.Standard) (ratio : ℚ) (bids asks : List OrderBookLevel) (rng : σ)
    (hsides : bids.length = asks.length) :
    List.Forall₂ (Moved ratio) bids (perturbLevels L ratio bids asks rng).1.1 ∧
      List.Forall₂ (Moved ratio) asks (perturbLevels L ratio bids asks rng).1.2 := by
  induction bids generalizing asks rng with
  | nil =>
    cases asks with
    | nil => exact ⟨List.Forall₂.nil, List.Forall₂.nil⟩
    | cons ask asks => cases hsides
  | cons bid bids ih =>
    cases asks with
    | nil => cases hsides
    | cons ask asks =>
      obtain ⟨hbids, hasks⟩ := ih asks (L.random rng).2 (Nat.succ.inj hsides)
      have hperturb : (9 / 10 : ℚ) ≤ 9 / 10 + (L.random rng).1 * (2 / 10) := by
        have hu := hL.nonneg rng
        linarith
      have hmoved : ∀ level : OrderBookLevel, Moved ratio level
          { price := L.numerics.roundPrice (level.price * ratio)
            quantity := L.numerics.round
              (level.quantity * (9 / 10 + (L.random rng).1 * (2 / 10))) 4 } := by
        intro level
        rw [hL.decimal]
        exact ⟨rfl, _, hperturb, rfl⟩
      exact ⟨List.Forall₂.cons (hmoved bid) hbids, List.Forall₂.cons (hmoved ask) hasks⟩

variable (books : String × String → Option OrderBook) {ratio : ℚ}

/-- Moved levels keep the order of their prices. -/
theorem Moved.price_le (hratio : 0 ≤ ratio) {a a' b b' : OrderBookLevel}
    (ha : Moved ratio a a') (hb : Moved ratio b b') (h : a.price ≤ b.price) : a'.price ≤ b'.price := by
  rw [ha.1, hb.1]
  exact roundPriceWith_mono (mul_le_mul_of_nonneg_right h hratio)

/-- A moved level keeps a recorded quantity. -/
theorem Moved.keepsQuantity {before after : OrderBookLevel}
    (h : Moved ratio before after) (hrecorded : Recorded before) : KeepsQuantity before after := by
  obtain ⟨-, perturb, hperturb, hafter⟩ := h
  obtain ⟨x, hx⟩ := hrecorded
  intro hpos
  rw [hafter, hx]
  rw [hx] at hpos
  exact roundHalfEven_scale_pos hpos hperturb

theorem Moved.recorded {before after : OrderBookLevel} (h : Moved ratio before after) : Recorded after :=
  let ⟨_, _, _, hafter⟩ := h
  ⟨_, hafter⟩

theorem recorded_of_moved {before after : List OrderBookLevel}
    (h : List.Forall₂ (Moved ratio) before after) : ∀ level ∈ after, Recorded level := by
  intro level hlevel
  obtain ⟨n, hn, rfl⟩ := List.getElem_of_mem hlevel
  exact (h.get (h.length_eq ▸ hn) hn).recorded

theorem keepsQuantity_of_moved {drawn before after : List OrderBookLevel}
    (hkeeps : List.Forall₂ KeepsQuantity drawn before) (hmoved : List.Forall₂ (Moved ratio) before after)
    (hrecorded : ∀ level ∈ before, Recorded level) : List.Forall₂ KeepsQuantity drawn after := by
  induction hkeeps generalizing after with
  | nil =>
    cases hmoved
    exact List.Forall₂.nil
  | cons hkeep _ ih =>
    cases hmoved with
    | cons hmove hrest =>
      obtain ⟨hhead, htail⟩ := List.forall_mem_cons.mp hrecorded
      apply List.Forall₂.cons
      · exact fun hpos => hmove.keepsQuantity hhead (hkeep hpos)
      · exact ih hrest htail

theorem Maintained.of_moved {drawn before after : OrderBook} (hratio : 0 ≤ ratio)
    (h : Maintained drawn before) (hbids : List.Forall₂ (Moved ratio) before.bids after.bids)
    (hasks : List.Forall₂ (Moved ratio) before.asks after.asks) : Maintained drawn after where
  bids_sorted := by
    apply pairwise_of_forall₂ _ hbids h.bids_sorted
    exact fun _ _ _ _ ha hb hle => hb.price_le hratio ha hle
  asks_sorted := by
    apply pairwise_of_forall₂ _ hasks h.asks_sorted
    exact fun _ _ _ _ ha hb hle => ha.price_le hratio hb hle
  uncrossed := by
    intro bid hbid ask hask
    obtain ⟨bid', hbid', hmovedBid⟩ := head?_of_forall₂ hbids hbid
    obtain ⟨ask', hask', hmovedAsk⟩ := head?_of_forall₂ hasks hask
    exact hmovedBid.price_le hratio hmovedAsk (h.uncrossed bid' hbid' ask' hask')
  bids_length := hbids.length_eq.symm.trans h.bids_length
  asks_length := hasks.length_eq.symm.trans h.asks_length
  bids := keepsQuantity_of_moved h.bids hbids h.bids_recorded
  asks := keepsQuantity_of_moved h.asks hasks h.asks_recorded
  sides := hbids.length_eq.symm.trans (h.sides.trans hasks.length_eq)
  bids_recorded := recorded_of_moved hbids
  asks_recorded := recorded_of_moved hasks

/-- Levels drawn around a price are on the grid, the bids not above its tick and the asks not
below. -/
structure DrawnAround (midPrice : ℚ) (count : ℕ) (bids asks : List OrderBookLevel) : Prop where
  bids_length : bids.length = count
  asks_length : asks.length = count
  bids : ∀ bid ∈ bids, bid.price ≤ roundPriceWith roundHalfEven midPrice ∧ Recorded bid
  asks : ∀ ask ∈ asks, roundPriceWith roundHalfEven midPrice ≤ ask.price ∧ Recorded ask

/-- Levels are drawn on both sides of the middle. -/
theorem drawnAround_drawLevels (hL : L.Standard) {midPrice halfSpread : ℚ} (hspread : 0 ≤ halfSpread)
    (count i : ℕ) (rng : σ) : DrawnAround midPrice count (drawLevels L midPrice halfSpread i count rng).1.1
      (drawLevels L midPrice halfSpread i count rng).1.2 := by
  induction count generalizing i rng with
  | zero => exact ⟨rfl, rfl, List.forall_mem_nil _, List.forall_mem_nil _⟩
  | succ count ih =>
    have hoffset : ∀ rng : σ, 0 ≤ halfSpread * (1 + i * (1 + (L.random rng).1 * (3 / 10))) := by
      intro rng
      have hu := hL.nonneg rng
      positivity
    let rng₁ := (L.random rng).2
    let rng₂ := (L.random rng₁).2
    let rng₃ := (L.uniform (1 / 10) 5 rng₂).2
    obtain ⟨hbidsLength, hasksLength, hbids, hasks⟩ :=
      ih (i + 1) (L.random (L.random rng₃).2).2
    refine ⟨congrArg (· + 1) hbidsLength, congrArg (· + 1) hasksLength, ?_, ?_⟩
    · apply List.forall_mem_cons.mpr ⟨⟨?_, ?_⟩, hbids⟩
      · rw [hL.decimal]
        exact roundPriceWith_mono (sub_le_self _ (hoffset rng))
      · rw [hL.decimal]
        exact ⟨_, rfl⟩
    · apply List.forall_mem_cons.mpr ⟨⟨?_, ?_⟩, hasks⟩
      · rw [hL.decimal]
        exact roundPriceWith_mono (le_add_of_nonneg_right (hoffset rng₁))
      · rw [hL.decimal]
        exact ⟨_, rfl⟩

theorem pairwise_sortBids (levels : List OrderBookLevel) :
    (sortBids levels).Pairwise fun a b => b.price ≤ a.price := by
  have : Std.Total fun a b : OrderBookLevel => b.price ≤ a.price := ⟨fun a b => le_total _ _⟩
  exact List.pairwise_insertionSort _ levels

theorem pairwise_sortAsks (levels : List OrderBookLevel) :
    (sortAsks levels).Pairwise fun a b => a.price ≤ b.price := by
  have : Std.Total fun a b : OrderBookLevel => a.price ≤ b.price := ⟨fun a b => le_total _ _⟩
  exact List.pairwise_insertionSort _ levels

theorem keepsLevels_refl (book : OrderBook) : KeepsLevels book book where
  bids_length := rfl
  asks_length := rfl
  bids := List.forall₂_same.mpr fun _ _ => id
  asks := List.forall₂_same.mpr fun _ _ => id

/-- A fresh book around a price that is not negative is maintained. -/
theorem maintained_generateFullOb (hL : L.Standard) (m : MarketSimulator σ) (pair : String × String)
    {midPrice : ℚ} (hmid : 0 ≤ midPrice) :
    Maintained (generateFullOb L c m pair midPrice).1 (generateFullOb L c m pair midPrice).1 := by
  have hspread : 0 ≤ midPrice * max 1 (c.volatility pair.2 * 10) / 10000 := by
    positivity
  obtain ⟨hbidsLength, hasksLength, hbids, hasks⟩ :=
    drawnAround_drawLevels hL hspread c.orderBookDepth 0 m.rng
  have hbids' : ∀ bid ∈ (generateFullOb L c m pair midPrice).1.bids, _ :=
    fun bid hbid => hbids bid ((List.mem_insertionSort _).mp hbid)
  have hasks' : ∀ ask ∈ (generateFullOb L c m pair midPrice).1.asks, _ :=
    fun ask hask => hasks ask ((List.mem_insertionSort _).mp hask)
  refine { toKeepsLevels := keepsLevels_refl _, bids_sorted := pairwise_sortBids _,
           asks_sorted := pairwise_sortAsks _, uncrossed := ?_, sides := ?_,
           bids_recorded := fun bid hbid => (hbids' bid hbid).2,
           asks_recorded := fun ask hask => (hasks' ask hask).2 }
  · intro bid hbid ask hask
    exact (hbids' bid (List.mem_of_mem_head? hbid)).1.trans
      (hasks' ask (List.mem_of_mem_head? hask)).1
  · exact ((List.length_insertionSort _ _).trans hbidsLength).trans
      ((List.length_insertionSort _ _).trans hasksLength).symm

/-- A book that is moved in place stays maintained. -/
theorem maintained_incrementalUpdateOb (hL : L.Standard) (m : MarketSimulator σ) {midPrice : ℚ}
    (hmid : 0 ≤ midPrice) {drawn cached : OrderBook} (h : Maintained drawn cached)
    {updated : OrderBook × σ} (hupdated : incrementalUpdateOb L m cached midPrice = some updated) :
    Maintained drawn updated.1 := by
  unfold incrementalUpdateOb at hupdated
  split at hupdated
  · rename_i bid _ ask _ hbids hasks
    simp only at hupdated
    split_ifs at hupdated with hold
    cases hupdated
    have hratio : 0 ≤ midPrice / ((bid.price + ask.price) / 2) := div_nonneg hmid (not_le.mp hold).le
    obtain ⟨hmovedBids, hmovedAsks⟩ := moved_perturbLevels hL
      (midPrice / ((bid.price + ask.price) / 2)) cached.bids cached.asks m.rng h.sides
    exact Maintained.of_moved hratio h hmovedBids hmovedAsks
  · cases hupdated

/-- The simulator with other cached books. -/
def withBooks (books : String × String → Option OrderBook) (m : MarketSimulator σ) :
    MarketSimulator σ := { m with obCache := books }

variable (m : MarketSimulator σ)

theorem maybeTriggerNews_withBooks :
    maybeTriggerNews L c (m.withBooks books) = (maybeTriggerNews L c m).withBooks books := by
  unfold maybeTriggerNews
  simp only
  rw [apply_ite (withBooks books), apply_ite (withBooks books)]
  rfl

theorem generateSymbolCandles_withBooks (zShared sqrtCpy : ℚ)
    (books : String × String → Option OrderBook) (m : MarketSimulator σ) (symbol : String) :
    generateSymbolCandles L c zShared sqrtCpy (m.withBooks books) symbol =
      (generateSymbolCandles L c zShared sqrtCpy m symbol).withBooks books := by
  have hexchanges : ∀ (basePrice newBasePrice ret : ℚ) (m : MarketSimulator σ),
      c.exchanges.foldl (generateExchangeCandle L c symbol basePrice newBasePrice ret)
          { m with obCache := books } =
        { c.exchanges.foldl (generateExchangeCandle L c symbol basePrice newBasePrice ret) m with
          obCache := books } :=
    fun _ _ _ _ => List.foldl_hom (withBooks books) fun _ _ => rfl
  unfold generateSymbolCandles
  simp only [withBooks]
  rw [hexchanges _ _ _ { m with rng := (L.gauss m.rng).2 }]
  rfl

/-- A tick up to its candles. -/
def drawSymbols (L : Library σ) (c : MarketConfig) (m : MarketSimulator σ) : MarketSimulator σ :=
  let (zShared, rng) := L.gauss m.rng
  let sqrtCpy := L.sqrt (365 * 24 * 3600 / c.timeframeSeconds)
  c.symbols.foldl (generateSymbolCandles L c zShared sqrtCpy) { m with rng := rng }

/-- The rest of a tick. -/
def finishTick (L : Library σ) (c : MarketConfig) (m : MarketSimulator σ) : MarketSimulator σ :=
  let m := advanceClock c m
  if m.candleCount % fundingInterval = 0 then updateFundingRates L c m else m

/-- Drawing the candles does not look at the books. -/
theorem drawSymbols_withBooks :
    drawSymbols L c (m.withBooks books) = (drawSymbols L c m).withBooks books := by
  unfold drawSymbols
  simp only
  rw [← List.foldl_hom (withBooks books) fun m symbol =>
    generateSymbolCandles_withBooks _ _ books m symbol]
  rfl

theorem finishTick_withBooks : finishTick L c (m.withBooks books) = (finishTick L c m).withBooks books := by
  have hfunding : ∀ m : MarketSimulator σ,
      updateFundingRates L c (m.withBooks books) = (updateFundingRates L c m).withBooks books :=
    fun _ => List.foldl_hom (withBooks books) fun _ _ => rfl
  unfold finishTick
  simp only
  rw [apply_ite (withBooks books), ← hfunding]
  rfl

/-- A tick neither looks at the cached books nor changes them. -/
theorem generateCandlesInner_withBooks :
    generateCandlesInner L c (m.withBooks books) = (generateCandlesInner L c m).withBooks books :=
  calc generateCandlesInner L c (m.withBooks books)
      = finishTick L c (drawSymbols L c (ageNews (maybeTriggerNews L c (m.withBooks books)))) := rfl
    _ = finishTick L c (drawSymbols L c ((ageNews (maybeTriggerNews L c m)).withBooks books)) := by
      rw [maybeTriggerNews_withBooks]
      rfl
    _ = (generateCandlesInner L c m).withBooks books := by
      rw [drawSymbols_withBooks, finishTick_withBooks]
      rfl

/-- A tick leaves the cached books alone. -/
theorem generateCandlesInner_obCache : (generateCandlesInner L c m).obCache = m.obCache := by
  have hbooks := congrArg obCache (generateCandlesInner_withBooks (L := L) (c := c) m.obCache m)
  exact hbooks

/-- The cached book that a read moves in place. -/
def updatedInPlace (L : Library σ) (m : MarketSimulator σ) (pair : String × String) :
    Option (OrderBook × σ) :=
  (m.obCache pair).bind fun cached => incrementalUpdateOb L m cached (m.getPrice pair)

theorem init_obCache (rng : σ) : (init L c rng).obCache = fun _ => none := by
  unfold init
  induction c.warmupCandles with
  | zero => rfl
  | succ n ih =>
    rw [Function.iterate_succ_apply', generateCandlesInner_obCache]
    exact ih

end MarketSimulator

/-- An event of the market: a tick, a change of the weekend mode or the read of a book. -/
inductive MarketEvent where
  | tick
  | weekendMode (on : Bool)
  | read (pair : String × String)

/-- The market with the books as they were last drawn. -/
structure BookHistory (σ : Type) where
  market : MarketSimulator σ
  drawn : String × String → OrderBook := fun pair => { symbol := pair.2, exchange := pair.1 }

namespace BookHistory

variable {σ : Type} (L : Library σ) (c : MarketConfig)

/-- The book that a read returns. -/
def readBook (x : BookHistory σ) (pair : String × String) : OrderBook :=
  (x.market.generateOrderBook L c pair).1

/-- The returned book as it was drawn: before an in-place update that is long ago. -/
def drawnBook (x : BookHistory σ) (pair : String × String) : OrderBook :=
  if x.market.getPrice pair ≠ 0 ∧ (x.market.updatedInPlace L pair).isSome then x.drawn pair
  else x.readBook L c pair

def step (x : BookHistory σ) : MarketEvent → BookHistory σ
  | .tick => { x with market := x.market.generateCandlesInner L c }
  | .weekendMode on => { x with market := { x.market with weekendMode := on } }
  | .read pair =>
    { market := (x.market.generateOrderBook L c pair).2
      -- a symbol without a price yet has an empty book, which is not cached
      drawn := if x.market.getPrice pair = 0 then x.drawn
        else Function.update x.drawn pair (x.drawnBook L c pair) }

/-- The market before any book was read. -/
def init (rng : σ) : BookHistory σ := { market := MarketSimulator.init L c rng }

/-- The last close of a pair whose book is read is positive. -/
def PositiveClose (x : BookHistory σ) : MarketEvent → Prop
  | .read pair => ∀ candle ∈ (x.market.candleHistory pair).getLast?, 0 < candle.closeP
  | _ => True

instance (x : BookHistory σ) (e : MarketEvent) : Decidable (x.PositiveClose e) := by
  cases e <;> unfold PositiveClose <;> infer_instance

/-- The book that a read returns is well formed and keeps the levels it was drawn with. -/
def ReadsWellFormed (x : BookHistory σ) (e : MarketEvent) : Prop :=
  ∀ pair, e = .read pair →
    WellFormed (x.readBook L c pair) ∧ KeepsLevels (x.drawnBook L c pair) (x.readBook L c pair)

/-- Every cached book is maintained. -/
def BooksMaintained (x : BookHistory σ) : Prop :=
  ∀ pair book, x.market.obCache pair = some book → Maintained (x.drawn pair) book

variable {L c}

variable {x : BookHistory σ} {pair : String × String}

/-- A price read from candles with a positive last close is not negative. -/
theorem getPrice_nonneg (h : x.PositiveClose (.read pair)) : 0 ≤ x.market.getPrice pair := by
  unfold MarketSimulator.getPrice
  split
  · rename_i candle hcandle
    exact (h candle hcandle).le
  · exact le_refl 0

/-- A book that is read at a price is maintained. -/
theorem maintained_readBook (hL : L.Standard) (hbooks : x.BooksMaintained)
    (hclose : x.PositiveClose (.read pair)) (hprice : x.market.getPrice pair ≠ 0) :
    Maintained (x.drawnBook L c pair) (x.readBook L c pair) := by
  have hmid := getPrice_nonneg hclose
  unfold drawnBook readBook MarketSimulator.generateOrderBook MarketSimulator.updatedInPlace
  simp only [hprice, ne_eq, not_false_eq_true, true_and, if_false]
  cases hcached : x.market.obCache pair with
  | none => exact MarketSimulator.maintained_generateFullOb hL x.market pair hmid
  | some cached =>
    rw [Option.bind_some]
    cases hupdated :
        MarketSimulator.incrementalUpdateOb L x.market cached (x.market.getPrice pair) with
    | none => exact MarketSimulator.maintained_generateFullOb hL x.market pair hmid
    | some updated =>
      exact MarketSimulator.maintained_incrementalUpdateOb hL x.market hmid
        (hbooks pair cached hcached) hupdated

/-- Without a price the book that is read is empty. -/
theorem readBook_of_price_zero (hprice : x.market.getPrice pair = 0) :
    x.readBook L c pair = { symbol := pair.2, exchange := pair.1 } := by
  unfold readBook MarketSimulator.generateOrderBook
  rw [if_pos hprice]

/-- Every event keeps the cached books maintained. -/
theorem booksMaintained_step (hL : L.Standard) {e : MarketEvent}
    (hbooks : x.BooksMaintained) (hclose : x.PositiveClose e) : (x.step L c e).BooksMaintained := by
  cases e with
  | tick =>
    intro pair book hbook
    simp only [step, MarketSimulator.generateCandlesInner_obCache] at hbook
    exact hbooks pair book hbook
  | weekendMode on => exact hbooks
  | read pair =>
    intro pair' book hbook
    by_cases hprice : x.market.getPrice pair = 0
    · simp only [step, MarketSimulator.generateOrderBook, if_pos hprice] at hbook ⊢
      exact hbooks pair' book hbook
    · have hread := maintained_readBook (c := c) hL hbooks hclose hprice
      simp only [step, if_neg hprice]
      by_cases hpair : pair' = pair
      · subst hpair
        rw [Function.update_self]
        have hcached : (x.market.generateOrderBook L c pair').2.obCache pair' =
            some (x.readBook L c pair') := by
          unfold readBook MarketSimulator.generateOrderBook
          simp only [if_neg hprice, Function.update_self]
        rw [step, hcached] at hbook
        exact Option.some.inj hbook ▸ hread
      · rw [Function.update_of_ne hpair]
        have hcached : (x.market.generateOrderBook L c pair).2.obCache pair' =
            x.market.obCache pair' := by
          unfold MarketSimulator.generateOrderBook
          simp only [if_neg hprice, Function.update_of_ne hpair]
        rw [step, hcached] at hbook
        exact hbooks pair' book hbook

/-- Maintained books are read well formed. -/
theorem readsWellFormed_of_maintained (hL : L.Standard) {e : MarketEvent}
    (hbooks : x.BooksMaintained) (hclose : x.PositiveClose e) : x.ReadsWellFormed L c e := by
  rintro pair rfl
  by_cases hprice : x.market.getPrice pair = 0
  · rw [drawnBook, if_neg (fun h => h.1 hprice), readBook_of_price_zero hprice]
    exact ⟨⟨List.Pairwise.nil, List.Pairwise.nil, fun _ h => by cases h⟩,
      MarketSimulator.keepsLevels_refl _⟩
  · have hread := maintained_readBook (c := c) hL hbooks hclose hprice
    exact ⟨hread.toWellFormed, hread.toKeepsLevels⟩

/-- Every book read in a run whose closes are positive is well formed: sorted, not crossed, with
the levels it was drawn with, none of which has lost its quantity. -/
theorem books_wellFormed (L : Library σ) (c : MarketConfig) (hL : L.Standard) (rng : σ)
    (events : List MarketEvent)
    (hcloses : Along (step L c) (fun x e => x.PositiveClose e) (init L c rng) events) :
    Along (step L c) (ReadsWellFormed L c) (init L c rng) events := by
  have hinit : (init L c rng).BooksMaintained := by
    intro pair book hbook
    rw [init, MarketSimulator.init_obCache] at hbook
    cases hbook
  exact along_imp BooksMaintained (fun _ _ => booksMaintained_step hL)
    (fun _ _ => readsWellFormed_of_maintained hL) hinit hcloses

/-- A library whose uniform draws are one half and whose normal draws are zero. Its `exp` and `sqrt`
are right at the arguments that a market without drift takes them at. -/
def halfLibrary : Library Unit where
  numerics := Numerics.decimal
  exp := fun x => 1 + x
  sqrt := fun x => if x = 14400 then 120 else 4 / 5
  random := fun _ => (1 / 2, ())
  gauss := fun _ => (0, ())
  below := fun _ _ => (0, ())

theorem centTimeframe_pos : 0 < 2190 := by decide

/-- One symbol below one dollar on one exchange. -/
def centMarket : MarketConfig where
  symbols := ["DOGE/USDT"]
  exchanges := ["binance"]
  initialPrices := fun _ => 1 / 4
  volatility := fun _ => 4 / 5
  symbolCorr := fun _ => 3 / 5
  timeframeSeconds := 2190
  drift := 0
  warmupCandles := 1
  orderBookDepth := 1
  symbols_nodup := by decide
  exchanges_nodup := List.nodup_singleton "binance"
  symbols_ne_nil := by decide
  exchanges_ne_nil := oneExchange_ne_nil
  timeframe_pos := centTimeframe_pos
  separator_free := oneExchange_separator_free

/-- A book drawn and then moved in place after a tick is well formed. -/
theorem books_wellFormed_centMarket :
    Along (step halfLibrary centMarket) (ReadsWellFormed halfLibrary centMarket)
      (init halfLibrary centMarket ())
      [.read ("binance", "DOGE/USDT"), .tick, .read ("binance", "DOGE/USDT")] := by
  have hlibrary : halfLibrary.Standard := by
    refine ⟨rfl, fun _ => ?_, fun _ => ?_⟩ <;> norm_num [halfLibrary]
  exact books_wellFormed halfLibrary centMarket hlibrary () _ (by decide +kernel)

end BookHistory

end TradingSim.Market
