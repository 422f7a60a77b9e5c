import TradingSim.Exchange.IcebergSlices
import TradingSim.Exchange.Rounding

/-!
# The economics of executions

An execution is priced from a reference, the market or a limit, which slippage and market impact move
by a share that grows with the quantity, and the part of a large order beyond the typical volume by
another. Its recorded price is positive, and with it fee and margin, exactly when they leave more
than one half of the smallest tick.
-/

namespace TradingSim.Exchange

open Foundations

/-! ### Prices -/

namespace PriceBasis

/-- The price that an execution starts from. -/
def reference : PriceBasis → ℚ
  | market midPrice => midPrice
  | limit price => price
  | resting price => price
  | trailing currentPrice => currentPrice

/-- The share of the reference that slippage and market impact take. -/
def impact (slippageBps quantity : ℚ) : PriceBasis → ℚ
  | market _ => slippageBps / 10000 + if 50 < quantity then quantity / 500000 else 0
  | limit _ => 0
  | resting _ => 0
  | trailing _ => slippageBps / 10000

/-- The share that is taken by the part of a submission beyond the typical volume. -/
def penalty (quantity : ℚ) : PriceBasis → ℚ
  | market _ => if quantity ≤ typicalVolume then 0 else (1 - typicalVolume / quantity) ^ 2 / 1000
  | limit _ => if quantity ≤ typicalVolume then 0 else (1 - typicalVolume / quantity) ^ 2 / 1000
  | resting _ => 0
  | trailing _ => 0

/-- What is left of the reference is more than one half of the smallest tick, by some margin. -/
def LeavesPrice (margin slippageBps : ℚ) (side : Side) (quantity : ℚ) (basis : PriceBasis) : Prop :=
  1 / (2 * 10 ^ 8) + margin < basis.reference * (1 + side.signed (basis.impact slippageBps quantity)) *
    (1 + side.signed (basis.penalty quantity))

variable {slippageBps quantity : ℚ} {side : Side} {basis : PriceBasis}

theorem basePrice_eq (slippageBps : ℚ) (side : Side) (quantity : ℚ) (basis : PriceBasis) :
    basis.basePrice slippageBps side quantity =
      basis.reference * (1 + side.signed (basis.impact slippageBps quantity)) := by
  have hnone : (1 : ℚ) + side.signed 0 = 1 := by rw [Side.signed_zero, add_zero]
  cases basis with
  | market _ => rfl
  | limit price => exact (mul_one price).symm.trans (congrArg _ hnone.symm)
  | resting price => exact (mul_one price).symm.trans (congrArg _ hnone.symm)
  | trailing _ => rfl

theorem averagePrice_eq (fillPrice : ℚ) (side : Side) (quantity : ℚ) :
    averagePrice fillPrice side quantity = fillPrice * (1 + side.signed
      (if quantity ≤ typicalVolume then 0 else (1 - typicalVolume / quantity) ^ 2 / 1000)) := by
  unfold averagePrice
  by_cases hsmall : quantity ≤ typicalVolume
  · rw [if_pos hsmall, if_pos hsmall, Side.signed_zero, add_zero, mul_one]
  · rw [if_neg hsmall, if_neg hsmall]

theorem exactPrice_eq (slippageBps : ℚ) (side : Side) (quantity : ℚ) (basis : PriceBasis) :
    basis.exactPrice slippageBps side quantity =
      basis.basePrice slippageBps side quantity * (1 + side.signed (basis.penalty quantity)) := by
  have hnone : (1 : ℚ) + side.signed 0 = 1 := by rw [Side.signed_zero, add_zero]
  cases basis with
  | market _ => exact averagePrice_eq _ side quantity
  | limit _ => exact averagePrice_eq _ side quantity
  | resting price => exact (mul_one price).symm.trans (congrArg _ hnone.symm)
  | trailing _ => exact (mul_one _).symm.trans (congrArg _ hnone.symm)

/-- The part beyond the typical volume takes at most a thousandth. -/
theorem penalty_bounds (hquantity : 0 < quantity) (basis : PriceBasis) :
    0 ≤ basis.penalty quantity ∧ basis.penalty quantity ≤ 1 / 1000 := by
  have hshare : ∀ p : ℚ, p = (if quantity ≤ typicalVolume then 0
      else (1 - typicalVolume / quantity) ^ 2 / 1000) → 0 ≤ p ∧ p ≤ 1 / 1000 := by
    intro p hp
    rw [hp]
    by_cases hsmall : quantity ≤ typicalVolume
    · rw [if_pos hsmall]
      norm_num
    · rw [if_neg hsmall]
      have htypical : (0 : ℚ) ≤ typicalVolume := by
        unfold typicalVolume
        norm_num
      have hlow : 0 ≤ typicalVolume / quantity := div_nonneg htypical hquantity.le
      have hhigh : typicalVolume / quantity ≤ 1 :=
        (div_le_one hquantity).mpr (not_le.mp hsmall).le
      have hsquare : (1 - typicalVolume / quantity) ^ 2 ≤ 1 :=
        pow_le_one₀ (sub_nonneg.mpr hhigh) (sub_le_self 1 hlow)
      exact ⟨by positivity, by linarith⟩
  cases basis with
  | market _ => exact hshare _ rfl
  | limit _ => exact hshare _ rfl
  | resting _ => exact ⟨le_refl 0, by norm_num [penalty]⟩
  | trailing _ => exact ⟨le_refl 0, by norm_num [penalty]⟩

theorem basePrice_pos (hquantity : 0 < quantity)
    (hexact : 0 < basis.exactPrice slippageBps side quantity) :
    0 < basis.basePrice slippageBps side quantity := by
  have hbounds := basis.penalty_bounds hquantity
  rw [exactPrice_eq] at hexact
  have hfactor : 0 < 1 + side.signed (basis.penalty quantity) := by
    cases side with
    | buy =>
      change 0 < 1 + basis.penalty quantity
      linarith [hbounds.1]
    | sell =>
      change 0 < 1 + -basis.penalty quantity
      linarith [hbounds.2]
  exact (mul_pos_iff_of_pos_right hfactor).mp hexact

end PriceBasis

/-! ### Executions -/

/-- The price tick errs in the sign of a price by some margin at most around one half of the smallest tick,
and rounding makes nothing negative. -/
structure Numerics.SignsWithin (N : Numerics) (margin : ℚ) : Prop where
  nonneg : 0 ≤ margin
  round : ∀ x n, 0 ≤ x → 0 ≤ N.round x n
  positive : ∀ price, 1 / (2 * 10 ^ 8) + margin < price → 0 < N.roundPrice price
  above : ∀ price, 0 < N.roundPrice price → 1 / (2 * 10 ^ 8) + -margin < price

theorem Numerics.decimal_signsWithin : Numerics.decimal.SignsWithin 0 where
  nonneg := le_rfl
  round := fun x n hx => div_nonneg
    (Int.cast_nonneg ((nearestEven_sign _).2 (mul_nonneg hx (by positivity)))) (by positivity)
  positive := fun price h => (roundPriceWith_pos_iff price).mpr ((add_zero _).symm.trans_lt h)
  above := fun price h => by
    rw [neg_zero, add_zero]
    exact (roundPriceWith_pos_iff price).mp h

/-- The execution has a positive price, and neither pays for its fee nor frees its margin. -/
structure Execution.PositiveEconomics (e : Execution) : Prop where
  filledPrice : 0 < e.order.filledPrice
  fee : 0 ≤ e.fee
  margin : 0 ≤ e.margin

theorem Account.effectiveLeverage_pos (account : Account) : 0 < account.effectiveLeverage := by
  unfold Account.effectiveLeverage
  split
  · assumption
  · exact one_pos

theorem Execution.Charged.positiveEconomics {N : Numerics} {margin : ℚ} (hN : N.SignsWithin margin)
    {d : Desk} {e : Execution} (h : e.Charged N d) (hfee : 0 ≤ d.feePct) :
    (e.basis.LeavesPrice margin d.slippageBps e.order.side e.order.filledQuantity → e.PositiveEconomics) ∧
      (e.PositiveEconomics →
        e.basis.LeavesPrice (-margin) d.slippageBps e.order.side e.order.filledQuantity) := by
  have hrecorded := h.recorded
  unfold PriceBasis.LeavesPrice
  rw [← PriceBasis.basePrice_eq, ← PriceBasis.exactPrice_eq]
  constructor
  · intro hleaves
    have hexact : 0 < e.basis.exactPrice d.slippageBps e.order.side e.order.filledQuantity := by
      have htick : (0 : ℚ) < 1 / (2 * 10 ^ 8) := by norm_num
      exact (add_pos_of_pos_of_nonneg htick hN.nonneg).trans hleaves
    have hnotional : 0 < e.notional := by
      rw [h.notional]
      exact mul_pos (PriceBasis.basePrice_pos h.quantity hexact) h.quantity
    have hcharge : 0 ≤ e.notional * d.feePct / 100 :=
      div_nonneg (mul_nonneg hnotional.le hfee) (by norm_num)
    refine ⟨hrecorded ▸ hN.positive _ hleaves, ?_, ?_⟩
    · rcases h.fee with hplain | hrounded
      · rw [hplain]
        exact hcharge
      · rw [hrounded]
        exact hN.round _ 4 hcharge
    · rw [h.margin]
      split
      · exact le_refl 0
      · exact div_nonneg hnotional.le (Account.effectiveLeverage_pos _).le
  · intro hpositive
    exact hN.above _ (hrecorded ▸ hpositive.filledPrice)

/-! ### Runs -/

/-- What executions explain of an order since some moment: what it was filled at, if it was filled. Only
an iceberg is filled without an execution of its own. -/
structure Order.Explained (start : Desk) (es : List Execution) (r : Ref) (o : Order) : Prop where
  unfilled : o.status ≠ .filled → o.filledPrice = 0
  filled : o.status = .filled →
    (start.objects.Live r ∧ (start.objects.get r).status = .filled ∧
      (start.objects.get r).filledPrice = o.filledPrice) ∨
    (o.orderType = .iceberg ∧ o.filledPrice = 0) ∨
    ∃ e ∈ es, e.order.id = o.id ∧ e.order.filledPrice = o.filledPrice

/-- What the executions since some moment explain of a desk: its audit log and every order. -/
structure Desk.Explained (N : Numerics) (d start : Desk) (es : List Execution) : Prop where
  feePct : d.feePct = start.feePct
  slippageBps : d.slippageBps = start.slippageBps
  charged : ∀ e ∈ es, ∃ d' : Desk, d'.feePct = start.feePct ∧ d'.slippageBps = start.slippageBps ∧
    e.Charged N d'
  fills : d.ledger.fills = start.ledger.fills ++ es.map Execution.fill
  orders : ∀ r, d.objects.Live r → (d.objects.get r).Explained start es r

namespace Order.Explained

variable {start : Desk} {es : List Execution} {r : Ref} {o o' : Order}

/-- Later executions keep what was explained. -/
theorem append (h : o.Explained start es r) (last : List Execution) :
    o.Explained start (es ++ last) r := by
  refine ⟨h.unfilled, fun hfilled => ?_⟩
  rcases h.filled hfilled with hbefore | hiceberg | ⟨e, he, heq⟩
  · exact Or.inl hbefore
  · exact Or.inr (Or.inl hiceberg)
  · exact Or.inr (Or.inr ⟨e, List.mem_append_left last he, heq⟩)

/-- An order that is not filled by its submission. -/
theorem entered (h : o.Entered) : o.Explained start es r :=
  ⟨fun _ => h.filledPrice, fun hfilled => absurd hfilled h.status⟩

theorem executed {e : Execution} (h : e.order.status = .filled) :
    e.order.Explained start (es ++ [e]) r := by
  refine ⟨fun hopen => absurd h hopen, fun _ => Or.inr (Or.inr ⟨e, ?_, rfl, rfl⟩)⟩
  exact List.mem_append_right es (List.mem_singleton_self e)

/-- Amendments write neither fills nor prices. -/
theorem amend (h : o.Explained start es r) (hamends : o.Amends o') : o'.Explained start es r := by
  constructor
  · intro hopen
    rw [hamends.filledPrice]
    apply h.unfilled
    rcases hamends.status with hsame | ⟨hpending, -⟩
    · exact hsame ▸ hopen
    · rw [hpending]
      decide
  · intro hfilled
    have hold : o.status = .filled := by
      rcases hamends.status with hsame | ⟨-, hopen⟩
      · exact hsame.symm.trans hfilled
      · exact absurd hfilled hopen
    rw [hamends.terms.orderType, hamends.filledPrice, hamends.terms.id]
    exact h.filled hold

end Order.Explained

/-- Every execution of a call takes its market price from the market that the call sees. -/
theorem Move.quoted {N : Numerics} {m : MarketView} {d d' : Desk} {es : List Execution}
    (hmove : Move N m d es d') : ∀ e ∈ es, e.basis.QuotedBy m e.order.symbol := by
  cases hmove with
  | fillEntered e stopLoss takeProfit hid hcharged hparent hbook hkind hbasis hquoted =>
    exact fun e' he' => List.mem_singleton.mp he' ▸ hquoted
  | execute r e hlive hpending hterms hkind hcharged hparent hbasis hquoted =>
    exact fun e' he' => List.mem_singleton.mp he' ▸ hquoted
  | slice r fields e hlive hpending htype hkind hhidden hid hplain horderType hside hcharged hparent
      hquantity price hbasis hprice =>
    intro e' he'
    rw [List.mem_singleton.mp he', hbasis]
    trivial
  | _ => exact fun e' he' => absurd he' List.not_mem_nil

namespace Desk.Explained

variable {N : Numerics} {m : MarketView} {start : Desk} {es last : List Execution} {d d' : Desk}

theorem book (h : d.Explained N start es) {e : Execution} (hcharged : e.Charged N d)
    (hfee : d'.feePct = d.feePct) (hslippage : d'.slippageBps = d.slippageBps)
    (hfills : d'.ledger.fills = d.ledger.fills ++ [e.fill])
    (horders : ∀ r, d'.objects.Live r → (d'.objects.get r).Explained start (es ++ [e]) r) :
    d'.Explained N start (es ++ [e]) := by
  refine ⟨hfee.trans h.feePct, hslippage.trans h.slippageBps, ?_, ?_, horders⟩
  · intro e' he'
    rcases List.mem_append.mp he' with hold | hnew
    · exact h.charged e' hold
    · rw [List.mem_singleton.mp hnew]
      exact ⟨d, h.feePct, h.slippageBps, hcharged⟩
  · rw [hfills, h.fills, List.map_append, List.append_assoc]
    rfl

theorem move (h : d.Explained N start es) (hmove : Move N m d last d') :
    d'.Explained N start (es ++ last) := by
  have hkept : ∀ e : Execution, ∀ r, d.objects.Live r →
      (d.objects.get r).Explained start (es ++ [e]) r := fun e r hr => (h.orders r hr).append [e]
  cases hmove with
  | enter o hid hentered =>
    rw [List.append_nil]
    exact ⟨h.feePct, h.slippageBps, h.charged, h.fills, Desk.forall_create _ h.orders fun _ => .entered hentered⟩
  | fillEntered e stopLoss takeProfit hid hcharged hparent hbook hkind hbasis hquoted =>
    exact h.book hcharged rfl rfl (Desk.fills_book N m _ e stopLoss takeProfit)
      (Desk.forall_create _ (hkept e) fun _ => .executed hcharged.status)
  | amend r o hlive hamends =>
    rw [List.append_nil]
    exact ⟨h.feePct, h.slippageBps, h.charged, h.fills,
      Desk.forall_rewrite _ h.orders hlive ((h.orders r hlive).amend hamends)⟩
  | execute r e hlive hpending hterms hkind hcharged hparent hbasis hquoted =>
    exact h.book hcharged rfl rfl (Desk.fills_book N m _ e none none)
      (Desk.forall_rewrite _ (hkept e) hlive (.executed hcharged.status))
  | slice r fields e hlive hpending htype hkind hhidden hid hplain horderType hside hcharged hparent
      hquantity price hbasis hprice =>
    have hshown : Order.Explained start (es ++ [e]) r { d.objects.get r with
        kind := .iceberg fields.afterSlice } :=
      ⟨(hkept e r hlive).unfilled, (hkept e r hlive).filled⟩
    exact h.book hcharged rfl rfl (Desk.fills_book N m _ e none none)
      (Desk.forall_create _ (Desk.forall_rewrite _ (hkept e) hlive hshown)
        fun _ => .executed hcharged.status)
  | refuseSlice o hid hentered hplain horderType =>
    rw [List.append_nil]
    exact ⟨h.feePct, h.slippageBps, h.charged, h.fills, Desk.forall_create _ h.orders fun _ => .entered hentered⟩
  | finish r fields hlive hpending htype hkind hhidden =>
    rw [List.append_nil]
    have hopen : (d.objects.get r).status ≠ .filled := by
      rw [hpending]
      decide
    have hnone := (h.orders r hlive).unfilled hopen
    refine ⟨h.feePct, h.slippageBps, h.charged, h.fills,
      Desk.forall_rewrite _ h.orders hlive ⟨fun _ => hnone, fun _ => Or.inr (Or.inl ?_)⟩⟩
    exact ⟨htype, hnone⟩
  | money l hstep hfills =>
    rw [List.append_nil]
    exact ⟨h.feePct, h.slippageBps, h.charged, hfills.trans h.fills, h.orders⟩

/-- The executions of a trace explain what it leads to. -/
theorem of_trace (htrace : Trace (AnyMove N) start es d)
    (hunfilled : ∀ r, start.objects.Live r → (start.objects.get r).status ≠ .filled →
      (start.objects.get r).filledPrice = 0) : d.Explained N start es := by
  apply htrace.history (fun es d => d.Explained N start es) fun _ _ _ _ h ⟨_, hmove⟩ => h.move hmove
  refine ⟨rfl, rfl, fun _ he => absurd he List.not_mem_nil, (List.append_nil _).symm, fun r hlive => ?_⟩
  exact ⟨hunfilled r hlive, fun hfilled => Or.inl ⟨hlive, hfilled, rfl⟩⟩

end Desk.Explained

namespace SimulatedExchange

variable (exchangeId currency : String) (feePct slippageBps initialBalance leverage : ℚ)

/-- One sale at the market of a cheap symbol. -/
def cheapSale (quantity : ℚ) : List (MarketView × Operation) :=
  [(flatMarket (1 / 100), .submitOrder { symbol := "DOGE", side := .sell, quantity := quantity })]

end SimulatedExchange

end TradingSim.Exchange
