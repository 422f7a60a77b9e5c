import TradingSim.Exchange.ArbitrageDetector
import TradingSim.Market.OrderBooks

/-!
# The quantities of the market's books

The levels of a book are drawn with quantities that are not negative, and moving a book in place keeps them
so. What the arbitrage detector reads from the market is therefore stocked.
-/

namespace TradingSim.Market

open Foundations
open Exchange (OrderBook OrderBookLevel roundHalfEven roundHalfEven_mono roundHalfEven_grid)
open Exchange.Detection (Stocked)

variable {σ : Type} {L : Library σ} {c : MarketConfig}

/-- Rounding keeps a number from below zero. -/
theorem roundHalfEven_nonneg {x : ℚ} (h : 0 ≤ x) (n : ℕ) : 0 ≤ roundHalfEven x n := by
  have hzero : roundHalfEven 0 n = 0 := by simpa using roundHalfEven_grid 0 n
  have hle : roundHalfEven 0 n ≤ roundHalfEven x n := roundHalfEven_mono n h
  rwa [hzero] at hle

/-- Drawn levels have quantities. -/
theorem stocked_drawLevels (hL : L.Standard) (hexp : ∀ x, 0 ≤ L.exp x) (midPrice halfSpread : ℚ)
    (count i : ℕ) (rng : σ) :
    (∀ level ∈ (MarketSimulator.drawLevels L midPrice halfSpread i count rng).1.1, 0 ≤ level.quantity) ∧
      ∀ level ∈ (MarketSimulator.drawLevels L midPrice halfSpread i count rng).1.2, 0 ≤ level.quantity := by
  induction count generalizing i rng with
  | zero => exact ⟨List.forall_mem_nil _, List.forall_mem_nil _⟩
  | succ count ih =>
    let rng₁ := (L.random (L.random rng).2).2
    let rng₂ := (L.uniform (1 / 10) 5 rng₁).2
    obtain ⟨hbids, hasks⟩ := ih (i + 1) (L.random (L.random rng₂).2).2
    have hqty (state : σ) : 0 ≤ (L.uniform (1 / 10) 5 rng₁).1 * L.exp (-(i : ℚ) * (15 / 100)) *
        (1 / 2 + (L.random state).1) := by
      have hbase : 0 ≤ (L.uniform (1 / 10) 5 rng₁).1 := by
        have hu := hL.nonneg rng₁
        simp only [Library.uniform]
        linarith
      have hdecay := hexp (-(i : ℚ) * (15 / 100))
      have hu := hL.nonneg state
      positivity
    constructor
    · apply List.forall_mem_cons.mpr ⟨?_, hbids⟩
      rw [hL.decimal]
      exact roundHalfEven_nonneg (hqty rng₂) 4
    · apply List.forall_mem_cons.mpr ⟨?_, hasks⟩
      rw [hL.decimal]
      exact roundHalfEven_nonneg (hqty (L.random rng₂).2) 4

/-- Perturbed levels keep quantities. -/
theorem stocked_perturbLevels (hL : L.Standard) (ratio : ℚ) {bids asks : List OrderBookLevel} (rng : σ)
    (hbids : ∀ level ∈ bids, 0 ≤ level.quantity) (hasks : ∀ level ∈ asks, 0 ≤ level.quantity) :
    (∀ level ∈ (MarketSimulator.perturbLevels L ratio bids asks rng).1.1, 0 ≤ level.quantity) ∧
      ∀ level ∈ (MarketSimulator.perturbLevels L ratio bids asks rng).1.2, 0 ≤ level.quantity := by
  induction bids generalizing asks rng with
  | nil => exact ⟨hbids, hasks⟩
  | cons bid bids ih =>
    cases asks with
    | nil => exact ⟨hbids, hasks⟩
    | cons ask asks =>
      obtain ⟨hbid, hbids⟩ := List.forall_mem_cons.mp hbids
      obtain ⟨hask, hasks⟩ := List.forall_mem_cons.mp hasks
      obtain ⟨hrestBids, hrestAsks⟩ := ih (L.random rng).2 hbids hasks
      have hu := hL.nonneg rng
      have hperturb : 0 ≤ 9 / 10 + (L.random rng).1 * (2 / 10) := by positivity
      constructor
      · apply List.forall_mem_cons.mpr ⟨?_, hrestBids⟩
        rw [hL.decimal]
        exact roundHalfEven_nonneg (mul_nonneg hbid hperturb) 4
      · apply List.forall_mem_cons.mpr ⟨?_, hrestAsks⟩
        rw [hL.decimal]
        exact roundHalfEven_nonneg (mul_nonneg hask hperturb) 4

namespace MarketSimulator

def BooksStocked (m : MarketSimulator σ) : Prop := ∀ pair book, m.obCache pair = some book → Stocked book

/-- A drawn book is stocked. -/
theorem stocked_generateFullOb (hL : L.Standard) (hexp : ∀ x, 0 ≤ L.exp x) (m : MarketSimulator σ)
    (pair : String × String) (midPrice : ℚ) : Stocked (generateFullOb L c m pair midPrice).1 := by
  obtain ⟨hbids, hasks⟩ := stocked_drawLevels hL hexp midPrice
    (midPrice * max 1 (c.volatility pair.2 * 10) / 10000) c.orderBookDepth 0 m.rng
  intro level hlevel
  rcases List.mem_append.mp hlevel with hbid | hask
  · exact hbids level ((List.mem_insertionSort _).mp hbid)
  · exact hasks level ((List.mem_insertionSort _).mp hask)

/-- A book that is moved in place stays stocked. -/
theorem stocked_incrementalUpdateOb (hL : L.Standard) {m : MarketSimulator σ} {cached : OrderBook}
    (hcached : Stocked cached) {midPrice : ℚ} {updated : OrderBook × σ}
    (h : incrementalUpdateOb L m cached midPrice = some updated) : Stocked updated.1 := by
  unfold incrementalUpdateOb at h
  split at h
  · rename_i bid _ ask _ _ _
    simp only at h
    split_ifs at h with hold
    cases h
    obtain ⟨hmovedBids, hmovedAsks⟩ := stocked_perturbLevels hL
      (midPrice / ((bid.price + ask.price) / 2)) m.rng
      (fun level hlevel => hcached level (List.mem_append_left _ hlevel))
      (fun level hlevel => hcached level (List.mem_append_right _ hlevel))
    intro level hlevel
    rcases List.mem_append.mp hlevel with hbid | hask
    · exact hmovedBids level hbid
    · exact hmovedAsks level hask
  · cases h

end MarketSimulator

namespace BookHistory

/-- A book that is read is stocked. -/
theorem stocked_readBook (hL : L.Standard) (hexp : ∀ x, 0 ≤ L.exp x) {x : BookHistory σ}
    (hbooks : x.market.BooksStocked) (pair : String × String) : Stocked (x.readBook L c pair) := by
  by_cases hprice : x.market.getPrice pair = 0
  · rw [readBook_of_price_zero hprice]
    exact List.forall_mem_nil _
  · unfold readBook MarketSimulator.generateOrderBook
    simp only [hprice, if_false]
    cases hcached : x.market.obCache pair with
    | none => exact MarketSimulator.stocked_generateFullOb hL hexp x.market pair _
    | some cached =>
      rw [Option.bind_some]
      cases hupdated :
          MarketSimulator.incrementalUpdateOb L x.market cached (x.market.getPrice pair) with
      | none => exact MarketSimulator.stocked_generateFullOb hL hexp x.market pair _
      | some updated =>
        exact MarketSimulator.stocked_incrementalUpdateOb hL (hbooks pair cached hcached) hupdated

/-- Every event keeps the cached books stocked. -/
theorem booksStocked_step (hL : L.Standard) (hexp : ∀ x, 0 ≤ L.exp x) {x : BookHistory σ}
    (hbooks : x.market.BooksStocked) (e : MarketEvent) : (x.step L c e).market.BooksStocked := by
  cases e with
  | tick =>
    intro pair book hbook
    simp only [step, MarketSimulator.generateCandlesInner_obCache] at hbook
    exact hbooks pair book hbook
  | weekendMode on => exact hbooks
  | read pair =>
    have hread := stocked_readBook (c := c) hL hexp hbooks pair
    intro pair' book hbook
    by_cases hprice : x.market.getPrice pair = 0
    · simp only [step, MarketSimulator.generateOrderBook, if_pos hprice] at hbook
      exact hbooks pair' book hbook
    · simp only [readBook, MarketSimulator.generateOrderBook, if_neg hprice] at hread
      simp only [step, MarketSimulator.generateOrderBook, if_neg hprice] at hbook
      by_cases hpair : pair' = pair
      · rw [hpair, Function.update_self] at hbook
        rwa [← Option.some.inj hbook]
      · rw [Function.update_of_ne hpair] at hbook
        exact hbooks pair' book hbook

/-- Whatever the market went through, a book that is read offers no negative quantity. -/
theorem stocked_readBook_run (hL : L.Standard) (hexp : ∀ x, 0 ≤ L.exp x) (rng : σ)
    (events : List MarketEvent) (pair : String × String) :
    Stocked ((run (step L c) (init L c rng) events).readBook L c pair) := by
  have hinit : (init L c rng).market.BooksStocked := by
    intro pair book hbook
    rw [init, MarketSimulator.init_obCache] at hbook
    cases hbook
  have hstep (x : BookHistory σ) (e : MarketEvent) (h : x.market.BooksStocked) :
      (x.step L c e).market.BooksStocked := booksStocked_step hL hexp h e
  exact stocked_readBook hL hexp (run_invariant hstep events hinit) pair

/-- `halfLibrary` with an exponential that is nowhere negative. -/
def clippedLibrary : Library Unit := { halfLibrary with exp := fun x => max 0 (1 + x) }

/-- A book that is moved in place after a tick. -/
theorem stocked_readBook_centMarket :
    Stocked ((run (step clippedLibrary centMarket) (init clippedLibrary centMarket ())
      [.read ("binance", "DOGE/USDT"), .tick]).readBook clippedLibrary centMarket ("binance", "DOGE/USDT")) := by
  have hlibrary : clippedLibrary.Standard := by
    refine ⟨rfl, fun _ => ?_, fun _ => ?_⟩ <;> norm_num [clippedLibrary, halfLibrary]
  exact stocked_readBook_run hlibrary (fun _ => le_max_left _ _) () _ _

end BookHistory

end TradingSim.Market
