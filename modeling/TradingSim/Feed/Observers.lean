import TradingSim.Feed.GapRecovery

/-!
# Observers of the market

Snapshots, sync states and single book reads only look at the market. A read book is cached and
perturbed, though, and both take draws from the generator that moves the prices, so an observer
changes the candles of every later tick. Only where no read book has a price yet, nothing is drawn.
-/

namespace TradingSim.Feed

open Foundations
open Market
open Exchange (Numerics)
open Session (stillMarket)

/-- A read of books, a snapshot or a sync state. -/
def Event.observes : Event → Bool
  | .snapshot _ => true
  | .syncState _ _ => true
  | .readBook _ => true
  | _ => false

namespace Server

variable {σ : Type} {L : Library σ} {c : MarketConfig}

/-- The books that an observation reads: all of them for a client that is connected. -/
def observedPairs (c : MarketConfig) (s : Server σ) : Event → List (String × String)
  | .snapshot client => if (s.clientSubscriptions.find? client).isSome then c.pairs else []
  | .syncState client _ => if (s.clientSubscriptions.find? client).isSome then c.pairs else []
  | .readBook pair => [pair]
  | _ => []

/-- No book that an event observes has a price yet. -/
def Unpriced (c : MarketConfig) (s : Server σ) (e : Event) : Prop :=
  ∀ pair ∈ s.observedPairs c e, s.market.getPrice pair = 0

instance (s : Server σ) (e : Event) : Decidable (s.Unpriced c e) :=
  inferInstanceAs (Decidable (∀ pair ∈ s.observedPairs c e, s.market.getPrice pair = 0))

/-- Reading books without a price changes nothing. -/
theorem generateOrderBooks_of_unpriced (m : MarketSimulator σ) (pairs : List (String × String))
    (h : ∀ pair ∈ pairs, m.getPrice pair = 0) : (m.generateOrderBooks L c pairs).2 = m := by
  induction pairs with
  | nil => rfl
  | cons pair rest ih =>
    obtain ⟨hpair, hrest⟩ := List.forall_mem_cons.mp h
    have hread : (m.generateOrderBook L c pair).2 = m := by
      unfold MarketSimulator.generateOrderBook
      rw [if_pos hpair]
    change ((m.generateOrderBook L c pair).2.generateOrderBooks L c rest).2 = m
    rw [hread]
    exact ih hrest

/-- An observation of books without a price leaves the server alone. -/
theorem step_of_unpriced {s : Server σ} {e : Event} (hobserves : e.observes = true)
    (h : s.Unpriced c e) : (s.step L c e).1 = s := by
  have hall : s.observedPairs c e = c.pairs → (s.readBooks L c).2 = s.market := by
    intro hpairs
    apply generateOrderBooks_of_unpriced
    rw [← hpairs]
    exact h
  cases e with
  | snapshot client =>
    simp only [step]
    cases hclient : s.clientSubscriptions.find? client with
    | none => rfl
    | some subs =>
      have hmarket := hall (by rw [observedPairs, hclient]; rfl)
      simp only [snapshotTo, sendMarketSnapshot, hmarket]
  | syncState client lastTs =>
    simp only [step]
    cases hclient : s.clientSubscriptions.find? client with
    | none => rfl
    | some subs =>
      have hmarket := hall (by rw [observedPairs, hclient]; rfl)
      simp only [sendSyncState, hmarket]
  | readBook pair =>
    have hmarket := generateOrderBooks_of_unpriced (L := L) (c := c) s.market [pair] h
    change { s with market := (s.market.generateOrderBook L c pair).2 } = s
    change (s.market.generateOrderBook L c pair).2 = s.market at hmarket
    rw [hmarket]
  | connect => cases hobserves
  | disconnect client => cases hobserves
  | subscribe client symbols => cases hobserves
  | unsubscribe client symbols => cases hobserves
  | loop => cases hobserves

/-- Observations of books without a price can be left out of a run. -/
theorem run_unobserved {s : Server σ} {events : List Event}
    (h : Along (fun s e => (step L c s e).1) (Unpriced c) s events) :
    run (fun s e => (step L c s e).1) s (events.filter fun e => !e.observes) =
      run (fun s e => (step L c s e).1) s events := by
  apply run_filter
  apply along_imp (fun _ => True) (fun _ _ _ _ => trivial) _ trivial h
  intro s e _ hunpriced hkeep
  exact step_of_unpriced (by simpa using hkeep) hunpriced

/-- Runs that differ in their observations only have the same candles, as long as no observed book
has a price. -/
theorem candles_eq_of_unpriced (L : Library σ) (c : MarketConfig) (rng : σ) {events events' : List Event}
    (hsame : (events.filter fun e => !e.observes) = events'.filter fun e => !e.observes)
    (h : Along (fun s e => (step L c s e).1) (Unpriced c) (init L c rng) events)
    (h' : Along (fun s e => (step L c s e).1) (Unpriced c) (init L c rng) events')
    (pair : String × String) :
    (run (fun s e => (step L c s e).1) (init L c rng) events).market.candleHistory pair =
      (run (fun s e => (step L c s e).1) (init L c rng) events').market.candleHistory pair := by
  rw [← run_unobserved h, ← run_unobserved h', hsame]

/-- A snapshot before the first tick moves nothing. -/
theorem candles_eq_beforeTick : (run (fun s e => (step (Session.tapedLibrary []) stillMarket s e).1)
        (init (Session.tapedLibrary []) stillMarket 0)
        [.connect, .snapshot 0, .loop, .loop]).market.candleHistory ("binance", "BTC/USDT") =
      (run (fun s e => (step (Session.tapedLibrary []) stillMarket s e).1)
        (init (Session.tapedLibrary []) stillMarket 0)
        [.connect, .loop, .loop]).market.candleHistory ("binance", "BTC/USDT") :=
  candles_eq_of_unpriced (Session.tapedLibrary []) stillMarket 0 rfl (by decide +kernel)
    (by decide +kernel) ("binance", "BTC/USDT")

/-- A library whose sixteenth draw is one where it is a normal draw. The others are zero, the uniform
draws one half. -/
def shockLibrary : Library ℕ where
  numerics := Numerics.decimal
  exp := fun x => 1 + x
  sqrt := fun x => if x = 14400 then 120 else 4 / 5
  random := fun position => (1 / 2, position + 1)
  gauss := fun position => (if position = 15 then 1 else 0, position + 1)
  below := fun _ position => (0, position + 1)

/-- Without a snapshot between two ticks the second one closes at 100, with it at 100.06. -/
theorem not_candles_eq_afterSnapshot : ¬ ∀ events events' : List Event,
      (events.filter fun e => !e.observes) = (events'.filter fun e => !e.observes) → ∀ pair,
          (run (fun s e => (step shockLibrary stillMarket s e).1) (init shockLibrary stillMarket 0)
              events).market.candleHistory pair =
            (run (fun s e => (step shockLibrary stillMarket s e).1) (init shockLibrary stillMarket 0)
              events').market.candleHistory pair := by
  intro h
  have hcandles := congrArg (List.map Candle.closeP)
    (h [.connect, .loop, .loop, .loop] [.connect, .loop, .loop, .snapshot 0, .loop] rfl
      ("binance", "BTC/USDT"))
  revert hcandles
  decide +kernel

end Server

end TradingSim.Feed
