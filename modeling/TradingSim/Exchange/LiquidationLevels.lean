import TradingSim.Exchange.Liquidation
import TradingSim.Exchange.Rounding

/-!
# Liquidation levels

A position is to be liquidated when its loss per unit reaches the margin that backs it, less the
maintenance margin. `_compute_liq_prices` rounds the price of that loss to whole cents at every
magnitude of the price, although `round_price` keeps eight decimals below one dollar.
-/

namespace TradingSim.Exchange

/-- The loss per unit of a position at a market price. -/
def Position.unitLoss (position : Position) (currentPrice : ℚ) : ℚ :=
  if position.isLong then position.entryPrice - currentPrice
  else currentPrice - position.entryPrice

/-- The loss per unit that a position may make: its margin, less the maintenance margin. -/
def Position.maximalLoss (position : Position) (leverage : ℕ) : ℚ :=
  position.entryPrice / leverage - 5 / 1000 * position.entryPrice

/-- The price at which a position makes that loss. -/
def Position.exactLevel (position : Position) (leverage : ℕ) : ℚ :=
  if position.isLong then position.entryPrice - position.maximalLoss leverage
  else position.entryPrice + position.maximalLoss leverage

/-- What a number can be rounded to: a whole number of cents within half a cent of it, up to the error
of binary floats. -/
structure RoundsTo (exact level : ℚ) : Prop where
  sign : 0 ≤ exact → 0 ≤ level
  cents : ∃ cents : ℤ, |level - cents / 100| ≤ |exact| / 2 ^ 50 ∧
    |(cents : ℚ) / 100 - exact| ≤ 1 / 200 + |exact| / 2 ^ 50

/-- The rounding to two decimals is that of floats, or a more exact one. -/
def Numerics.RoundsCents (N : Numerics) : Prop := ∀ exact, RoundsTo exact (N.round exact 2)

/-- The level is within one percent of the entry price of the exact one, and on the losing side of the
entry. -/
def Position.RightLevel (position : Position) (leverage : ℕ) (level : ℚ) : Prop :=
  |level - position.exactLevel leverage| ≤ position.entryPrice / 100 ∧
    if position.isLong then level < position.entryPrice else position.entryPrice < level

/-- Whole cents are fine enough for the level of a position: all that it can be rounded to is right. -/
def Position.CentsSuffice (position : Position) (leverage : ℕ) : Prop :=
  ∀ level, RoundsTo (position.exactLevel leverage) level → position.RightLevel leverage level

namespace SimulatedExchange

/-- The check liquidates the whole position at this price. -/
def LiquidatedAt (N : Numerics) (x : SimulatedExchange) (position : Position) (currentPrice : ℚ) : Prop :=
  x.checkPositionTriggers N position currentPrice = some (.liquidation, position.quantity)

instance (N : Numerics) (x : SimulatedExchange) (position : Position) (currentPrice : ℚ) :
    Decidable (x.LiquidatedAt N position currentPrice) := inferInstanceAs (Decidable (_ = _))

/-- The position is liquidated exactly from a loss on that is within one percent of the entry price of
the maximal one, and not at its entry. -/
def LiquidatesAtLoss (N : Numerics) (x : SimulatedExchange) (position : Position) (leverage : ℕ) : Prop :=
  (∃ loss, |loss - position.maximalLoss leverage| ≤ position.entryPrice / 100 ∧
    ∀ currentPrice, 0 < currentPrice →
      (x.LiquidatedAt N position currentPrice ↔ loss ≤ position.unitLoss currentPrice)) ∧
  ¬ x.LiquidatedAt N position position.entryPrice

variable {N : Numerics} {x : SimulatedExchange} {position : Position} {leverage : ℕ}

theorem liquidatedAt_iff (currentPrice : ℚ) :
    x.LiquidatedAt N position currentPrice ↔ reachesLiquidation position currentPrice
      (x.computeLiqPrices N position x.ledger.account.effectiveLeverage).1 = true := by
  unfold LiquidatedAt checkPositionTriggers
  simp only
  by_cases hfull : reachesLiquidation position currentPrice
      (x.computeLiqPrices N position x.ledger.account.effectiveLeverage).1 = true
  · rw [if_pos hfull]
    exact iff_of_true rfl hfull
  · rw [if_neg hfull]
    refine iff_of_false ?_ hfull
    split
    · intro h
      cases (Prod.mk.inj (Option.some.inj h)).1
    · unfold checkSlTp
      split <;> split <;> try split
      all_goals
        intro h
        cases h

/-- The level is the exact one, rounded to cents. -/
theorem computeLiqPrices_fst (hmargin : x.maintenanceMarginRate = 5 / 1000)
    (hleverage : x.ledger.account.leverage = leverage) (hpositive : 1 ≤ leverage) :
    (x.computeLiqPrices N position x.ledger.account.effectiveLeverage).1 =
      N.round (position.exactLevel leverage) 2 := by
  have hlev : (0 : ℚ) < leverage := Nat.cast_pos.mpr hpositive
  have heffective : x.ledger.account.effectiveLeverage = leverage := by
    unfold Account.effectiveLeverage
    rw [hleverage, if_pos hlev]
  unfold computeLiqPrices Position.exactLevel Position.maximalLoss
  rw [heffective, hmargin]
  split
  · change N.round _ 2 = N.round _ 2
    congr 1
    ring
  · change N.round _ 2 = N.round _ 2
    congr 1
    ring

end SimulatedExchange

/-! ### Levels and losses -/

theorem exists_loss_iff_of_below {entry level exact tolerance : ℚ} (hlevel : 0 ≤ level)
    (hexact : 0 ≤ exact) (htolerance : 0 ≤ tolerance) : (∃ loss, |loss - (entry - exact)| ≤ tolerance ∧
      ∀ price, 0 < price → (price ≤ level ↔ loss ≤ entry - price)) ↔
    |level - exact| ≤ tolerance := by
  constructor
  · intro ⟨loss, hnear, hiff⟩
    rw [abs_le] at hnear ⊢
    have hreached : entry - level ≤ loss := by
      by_contra hlt
      have hprice := (hiff (entry - loss) (by linarith)).mpr (by linarith)
      linarith
    constructor
    · linarith
    · rcases hlevel.eq_or_lt with hzero | hpos
      · linarith
      · have hloss := (hiff level hpos).mp le_rfl
        linarith
  · intro hnear
    refine ⟨entry - level, ?_, ?_⟩
    · rwa [sub_sub_sub_cancel_left, abs_sub_comm]
    · intro price _
      exact (sub_le_sub_iff_left entry).symm

theorem exists_loss_iff_of_above {entry level exact tolerance : ℚ} (hlevel : 0 ≤ level)
    (hexact : 0 ≤ exact) (htolerance : 0 ≤ tolerance) : (∃ loss, |loss - (exact - entry)| ≤ tolerance ∧
      ∀ price, 0 < price → (level ≤ price ↔ loss ≤ price - entry)) ↔
    |level - exact| ≤ tolerance := by
  constructor
  · intro ⟨loss, hnear, hiff⟩
    rw [abs_le] at hnear ⊢
    have hreached : loss ≤ level - entry := by
      by_contra hlt
      rw [not_le] at hlt
      have hloss := (hiff ((level + (loss + entry)) / 2) (by linarith)).mp (by linarith)
      linarith
    constructor
    · linarith
    · rcases hlevel.eq_or_lt with hzero | hpos
      · linarith
      · -- a smaller loss would be reached at a positive price below the level
        by_contra hfar
        have hbelow : max (loss + entry) (level / 2) < level := by
          rw [max_lt_iff]
          constructor
          · linarith
          · linarith
        have hprice : 0 < max (loss + entry) (level / 2) :=
          lt_of_lt_of_le (half_pos hpos) (le_max_right _ _)
        have hloss : loss ≤ max (loss + entry) (level / 2) - entry := by
          have := le_max_left (loss + entry) (level / 2)
          linarith
        exact absurd ((hiff _ hprice).mpr hloss) (not_le.mpr hbelow)
  · intro hnear
    refine ⟨level - entry, ?_, ?_⟩
    · rwa [sub_sub_sub_cancel_right]
    · intro price _
      exact (sub_le_sub_iff_right entry).symm

theorem Numerics.decimal_roundsCents : Numerics.decimal.RoundsCents := by
  intro exact
  have hnear := abs_nearestEven_sub_le (exact * 10 ^ 2)
  have herror : 0 ≤ |exact| / 2 ^ 50 := by positivity
  refine ⟨fun hsign => ?_, nearestEven (exact * 10 ^ 2), ?_, ?_⟩
  · exact div_nonneg (Int.cast_nonneg ((nearestEven_sign _).2 (by linarith))) (by norm_num)
  · change |roundHalfEven exact 2 - _| ≤ _
    rw [roundHalfEven]
    norm_num
    exact herror
  · have hscale : (nearestEven (exact * 10 ^ 2) : ℚ) / 100 - exact =
        (nearestEven (exact * 10 ^ 2) - exact * 10 ^ 2) / 100 := by ring
    rw [hscale, abs_div, abs_of_pos (by norm_num : (0 : ℚ) < 100)]
    linarith

namespace Position

variable {position : Position} {leverage : ℕ}

theorem exactLevel_nonneg (hentry : 0 < position.entryPrice) (hleverage : 1 ≤ leverage) :
    0 ≤ position.exactLevel leverage := by
  have hlev : (1 : ℚ) ≤ leverage := Nat.one_le_cast.mpr hleverage
  have hmargin : position.entryPrice / leverage ≤ position.entryPrice :=
    div_le_self hentry.le hlev
  have hbacked : 0 ≤ position.entryPrice / leverage := div_nonneg hentry.le (zero_le_one.trans hlev)
  unfold exactLevel maximalLoss
  split
  · linarith
  · linarith

/-- Whole cents are fine enough above one dollar. -/
theorem centsSuffice_of_le (hentry : 101 / 100 ≤ position.entryPrice) (hleverage : 1 ≤ leverage)
    (hmax : leverage ≤ 100) : position.CentsSuffice leverage := by
  intro level ⟨_, cents, hlevel, hcents⟩
  have hlev : (1 : ℚ) ≤ leverage := Nat.one_le_cast.mpr hleverage
  have hmargin : position.entryPrice / 100 ≤ position.entryPrice / leverage :=
    div_le_div_of_nonneg_left (by linarith) (by linarith) (by exact_mod_cast hmax)
  have hbacked : position.entryPrice / leverage ≤ position.entryPrice :=
    div_le_self (by linarith) hlev
  have hnonneg := position.exactLevel_nonneg (by linarith) hleverage
  rw [abs_of_nonneg hnonneg] at hlevel hcents
  have hhigh : position.exactLevel leverage ≤ 2 * position.entryPrice := by
    unfold exactLevel maximalLoss
    split
    · linarith
    · linarith
  rw [abs_le] at hlevel hcents
  constructor
  · rw [abs_le]
    constructor
    · linarith
    · linarith
  · unfold exactLevel maximalLoss at hlevel hcents hhigh
    split at hlevel
    · rename_i hlong
      rw [if_pos hlong] at hcents hhigh ⊢
      linarith
    · rename_i hshort
      rw [if_neg hshort] at hcents hhigh ⊢
      linarith

end Position

namespace SimulatedExchange

variable (x : SimulatedExchange) (position : Position) (leverage : ℕ)

/-- A position is liquidated at the loss that its margin allows, within one percent of its entry price,
exactly if its level is rounded to a right one. -/
theorem liquidatesAtLoss_iff_rightLevel (N : Numerics) (hround : N.RoundsCents)
    (hentry : 0 < position.entryPrice) (hpositive : 1 ≤ leverage)
    (hleverage : x.ledger.account.leverage = leverage) (hmargin : x.maintenanceMarginRate = 5 / 1000) :
    x.LiquidatesAtLoss N position leverage ↔
      position.RightLevel leverage (N.round (position.exactLevel leverage) 2) := by
  have hexact := position.exactLevel_nonneg hentry hpositive
  have htolerance : 0 ≤ position.entryPrice / 100 := by linarith
  have hlevel := (hround (position.exactLevel leverage)).sign hexact
  have hreaches : ∀ currentPrice, x.LiquidatedAt N position currentPrice ↔
      if position.isLong then currentPrice ≤ N.round (position.exactLevel leverage) 2
      else N.round (position.exactLevel leverage) 2 ≤ currentPrice := by
    intro currentPrice
    rw [liquidatedAt_iff, computeLiqPrices_fst hmargin hleverage hpositive]
    unfold reachesLiquidation
    split
    · exact decide_eq_true_iff
    · exact decide_eq_true_iff
  unfold LiquidatesAtLoss Position.RightLevel
  by_cases hlong : position.isLong = true
  · have hloss : position.maximalLoss leverage =
        position.entryPrice - position.exactLevel leverage := by
      unfold Position.exactLevel
      rw [if_pos hlong, sub_sub_cancel]
    simp only [hreaches, if_pos hlong, Position.unitLoss, hloss, not_le]
    exact and_congr_left' (exists_loss_iff_of_below hlevel hexact htolerance)
  · have hloss : position.maximalLoss leverage =
        position.exactLevel leverage - position.entryPrice := by
      unfold Position.exactLevel
      rw [if_neg hlong, add_sub_cancel_left]
    simp only [hreaches, if_neg hlong, Position.unitLoss, hloss, not_le]
    exact and_congr_left' (exists_loss_iff_of_above hlevel hexact htolerance)

/-- However floats round, a position is liquidated at the loss that its margin allows, within one
percent of its entry price, if whole cents are fine enough for its level; and only if its level can be
rounded to a right one. -/
theorem liquidatesAtLoss_of_centsSuffice (N : Numerics) (hround : N.RoundsCents)
    (hentry : 0 < position.entryPrice) (hpositive : 1 ≤ leverage)
    (hleverage : x.ledger.account.leverage = leverage) (hmargin : x.maintenanceMarginRate = 5 / 1000) :
    (position.CentsSuffice leverage → x.LiquidatesAtLoss N position leverage) ∧
    (x.LiquidatesAtLoss N position leverage →
      ∃ level, RoundsTo (position.exactLevel leverage) level ∧ position.RightLevel leverage level) := by
  rw [x.liquidatesAtLoss_iff_rightLevel position leverage N hround hentry hpositive hleverage hmargin]
  exact ⟨fun hsuffice => hsuffice _ (hround _), fun hright => ⟨_, hround _, hright⟩⟩

/-- A position of one unit without a stop loss or a take profit. -/
def unitPosition (side : Side) (entryPrice : ℚ) : Position where
  symbol := "BTC"
  exchange := "binance"
  side := side
  quantity := 1
  entryPrice := entryPrice
  stopLoss := 0
  takeProfit := 0
  openedAt := 0

/-- At ten thousand dollars and tenfold leverage a long position is liquidated where it should be. -/
theorem liquidatesAtLoss_long :
    (init "binance" (1 / 10) 5).LiquidatesAtLoss Numerics.decimal (unitPosition .buy 10000) 10 :=
  (liquidatesAtLoss_of_centsSuffice _ _ _ Numerics.decimal Numerics.decimal_roundsCents
    (by decide +kernel) (by decide) rfl rfl).1
    (Position.centsSuffice_of_le (by decide +kernel) (by decide) (by decide))

/-- At a tenth of a cent the level of a short position is rounded to zero: it is liquidated at its
entry, and at every other price. -/
theorem not_liquidatesAtLoss_short :
    (init "binance" (1 / 10) 5).LiquidatedAt Numerics.decimal (unitPosition .sell (1 / 1000)) (1 / 1000) ∧
      ¬ (init "binance" (1 / 10) 5).LiquidatesAtLoss Numerics.decimal (unitPosition .sell (1 / 1000))
        10 := by
  have hentry : (init "binance" (1 / 10) 5).LiquidatedAt Numerics.decimal
      (unitPosition .sell (1 / 1000)) (1 / 1000) := by decide +kernel
  exact ⟨hentry, fun h => h.2 hentry⟩

end SimulatedExchange

end TradingSim.Exchange
