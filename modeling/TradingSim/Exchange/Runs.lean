import TradingSim.Exchange.Operations

/-!
# Runs of an exchange

What holds after every sequence of calls on a new exchange, whatever the prices, the fees, the
leverage and the rounding: money is conserved, the position book is a map whose signed quantities
are those of the fills, and orders go through their life once.

OCO groups are exclusive in runs in which no sweep executes an iceberg of a group in part.
-/

namespace TradingSim.Exchange

open Foundations

namespace SimulatedExchange

variable (N : Numerics) (exchangeId currency : String)
  (feePct slippageBps initialBalance leverage : ℚ)

/-- The exchange after a sequence of calls on a new one. -/
def after (calls : List (MarketView × Operation)) : SimulatedExchange :=
  run (step N) (init exchangeId feePct slippageBps initialBalance leverage currency) calls

theorem sound_after (calls : List (MarketView × Operation)) :
    (after N exchangeId currency feePct slippageBps initialBalance leverage calls).Sound initialBalance :=
  (sound_init exchangeId feePct slippageBps initialBalance leverage currency).run calls

/-! ### Money -/

theorem sum_margin (l : Ledger) : (l.openPositions.map (·.margin)).sum = l.lockedMargin := by
  rw [Ledger.openPositions, List.map_map]
  rfl

/-- Money is conserved as long as no residual was left unbooked. -/
theorem ledger_conserved (calls : List (MarketView × Operation))
    (hbooked : (after N exchangeId currency feePct slippageBps initialBalance leverage
      calls).ledger.dropped = []) :
    let l := (after N exchangeId currency feePct slippageBps initialBalance leverage calls).ledger
    l.account.balance + l.insuranceFund + (l.openPositions.map (·.margin)).sum =
      initialBalance + l.account.totalPnl - l.account.totalFees + l.funding.sum := by
  intro l
  have hmoney := (sound_after N exchangeId currency feePct slippageBps initialBalance leverage
    calls).ledger.money
  have hlost : l.lostMargin = 0 := by rw [Ledger.lostMargin, hbooked]; rfl
  rw [Ledger.unexplained, hlost] at hmoney
  rw [sum_margin]
  linarith

/-- A market that quotes one price for every symbol it lists. -/
def flatMarket (price : ℚ) : MarketView where
  symbols := ["BTC"]
  price := fun _ => price
  book := fun _ => none
  now := 0

/-- A round trip with a profit, a fee on each leg and a funding payment in between. -/
def roundTrip : List (MarketView × Operation) :=
  [(flatMarket 100, .submitOrder { symbol := "BTC", side := .buy, quantity := 2 }),
    (flatMarket 110, .chargeFunding (1 / 100)),
    (flatMarket 120, .submitOrder { symbol := "BTC", side := .sell, quantity := 1 })]

theorem ledger_conserved_roundTrip :
    let l := (after Numerics.decimal "binance" "USDT" (1 / 10) 5 10000 10 roundTrip).ledger
    l.account.balance + l.insuranceFund + (l.openPositions.map (·.margin)).sum =
      10000 + l.account.totalPnl - l.account.totalFees + l.funding.sum :=
  ledger_conserved Numerics.decimal "binance" "USDT" (1 / 10) 5 10000 10 roundTrip
    (by decide +kernel)

/-! ### Positions -/

/-- The account's list and the index hold the same positions, one a symbol and none empty,
and each symbol's signed position is what its fills have executed, up to the residuals that
were left unbooked. -/
theorem position_book_valid (calls : List (MarketView × Operation)) :
    let l := (after N exchangeId currency feePct slippageBps initialBalance leverage calls).ledger
    (∀ r, r ∈ l.account.positions ↔ ∃ symbol, l.positionsBySymbol.find? symbol = some r) ∧
      (∀ symbol r, l.positionsBySymbol.find? symbol = some r →
        (l.objects.get r).symbol = symbol) ∧
      (l.openPositions.map (·.symbol)).Nodup ∧ (∀ p ∈ l.openPositions, 0 < p.quantity) ∧
      (∀ symbol, l.signedPosition symbol = l.executed symbol - l.discarded symbol) ∧
      ∀ residual ∈ l.dropped, 0 < residual.quantity ∧ residual.quantity ≤ 1 / 10 ^ 12 := by
  intro l
  have hsound := (sound_after N exchangeId currency feePct slippageBps initialBalance leverage
    calls).ledger
  obtain ⟨hvalid, -, hposition⟩ := hsound
  refine ⟨?_, ?_, ?_, ?_, ?_, hvalid.small⟩
  · intro r
    constructor
    · exact fun hr => ⟨_, (hvalid.indexed _ r).mpr ⟨hr, rfl⟩⟩
    · exact fun ⟨symbol, hfind⟩ => ((hvalid.indexed symbol r).mp hfind).1
  · exact fun symbol r hfind => ((hvalid.indexed symbol r).mp hfind).2
  · rw [Ledger.openPositions, List.map_map]
    exact hvalid.nodup.map_on fun r hr r' hr' hsymbol => hvalid.unique hr hr' hsymbol
  · intro p hp
    obtain ⟨r, hr, rfl⟩ := List.mem_map.mp hp
    exact hvalid.positive r hr
  · intro symbol
    linarith [hposition symbol]

/-! ### Orders -/

/-- Between calls an accepted order rests in exactly one book if and only if it is pending,
under its id, ids are distinct, and an order that has reached a final status keeps it and its
executed quantity for good. -/
theorem order_lifecycle (calls later : List (MarketView × Operation)) :
    let t := (after N exchangeId currency feePct slippageBps initialBalance leverage calls).orders
    let t' := (after N exchangeId currency feePct slippageBps initialBalance leverage
      (calls ++ later)).orders
    (∀ r ∈ t.accepted, ((∃! book, ∃ k, (t.pending book).find? k = some r) ↔
        (t.get r).status = .pending)) ∧
      (∀ r ∈ t.accepted, ∀ book k, (t.pending book).find? k = some r → k = (t.get r).id) ∧
      (∀ r ∈ t.accepted, ∀ r' ∈ t.accepted, r ≠ r' → (t.get r).id ≠ (t.get r').id) ∧
      ∀ r, t.objects.Live r → (t.get r).status ≠ .pending →
        (t'.get r).status = (t.get r).status ∧
          (t'.get r).filledQuantity = (t.get r).filledQuantity := by
  intro t t'
  have hvalid : t.Consistent := (sound_after N exchangeId currency feePct slippageBps
    initialBalance leverage calls).orders
  have hevolves : t.Evolves t' := by
    have hrun := (sound_after N exchangeId currency feePct slippageBps initialBalance leverage
      calls).evolves (N := N) later
    rw [after, ← run_append] at hrun
    exact hrun
  refine ⟨?_, ?_, ?_, ?_⟩
  · intro r hr
    constructor
    · intro ⟨book, ⟨k, hfind⟩, _⟩
      exact (hvalid.booked book k r hfind).2.2.2.mpr not_false
    · intro hpending
      obtain ⟨book, hfind⟩ := hvalid.resting r hr hpending
      refine ⟨book, ⟨_, hfind⟩, ?_⟩
      intro book' ⟨k', hfind'⟩
      have hbook := (hvalid.booked book _ r hfind).2.2.1.2.1
      have hbook' := (hvalid.booked book' k' r hfind').2.2.1.2.1
      exact Option.some.inj (hbook'.symm.trans hbook)
  · exact fun r _ book k hfind => (hvalid.booked book k r hfind).2.1.symm
  · intro r hr r' hr' hne hid
    exact hne (hvalid.idUnique r r' (hvalid.acceptedIssued r hr) (hvalid.acceptedIssued r' hr') hid)
  · exact fun r hlive hdone => (hevolves r hlive).2.frozen hdone

end SimulatedExchange

end TradingSim.Exchange
