import TradingSim.Bot.OrderExecutor
import TradingSim.Exchange.Rounding

/-!
# Prices on the wire

The exchange's price grid has two decimals from one dollar on and eight below. The executor prints
every price with two decimals, so a price below one dollar arrives as it was only if it is a whole
number of cents, and a smaller stop loss may arrive as zero, which means no stop at all.
-/

namespace TradingSim.Bot

open Foundations
open Exchange (nearestEven nearestEven_intCast nearestEven_sign roundHalfEven roundPriceWith)
open Gateway (numberArg)

/-- A price lies on the exchange's grid: `round_price` leaves it alone. -/
def OnGrid (x : ℚ) : Prop := roundPriceWith roundHalfEven x = x

instance (x : ℚ) : Decidable (OnGrid x) := inferInstanceAs (Decidable (_ = _))

/-- A whole number of cents. -/
def Cents (x : ℚ) : Prop := ∃ k : ℤ, x = k / 100

/-- Rounding to cents leaves exactly the whole numbers of cents alone. -/
theorem roundHalfEven_eq_self_iff (x : ℚ) : roundHalfEven x 2 = x ↔ Cents x := by
  unfold roundHalfEven Cents
  constructor
  · intro h
    exact ⟨nearestEven (x * 10 ^ 2), h.symm⟩
  · rintro ⟨k, rfl⟩
    have hscaled : (k : ℚ) / 100 * 10 ^ 2 = k := by ring
    rw [hscaled, nearestEven_intCast]
    norm_num

theorem cents_of_onGrid {x : ℚ} (hgrid : OnGrid x) (hx : 1 ≤ x) : Cents x := by
  rw [OnGrid, roundPriceWith, if_pos hx] at hgrid
  exact (roundHalfEven_eq_self_iff x).mp hgrid

/-- A printed number is decoded as the number rounded to its decimals. -/
theorem value_printFixed (places : ℕ) (x : ℚ) :
    (printFixed places x).value = .decimal (roundHalfEven x places) := by
  have hpow : (0 : ℚ) < 10 ^ places := by positivity
  have hsign := nearestEven_sign (x * 10 ^ places)
  simp only [printFixed, Json.Token.value, Json.signed, roundHalfEven]
  rcases lt_or_ge x 0 with hneg | hnonneg
  · have hle := hsign.1 (mul_neg_of_neg_of_pos hneg hpow)
    have habs : ((nearestEven (x * 10 ^ places)).natAbs : ℚ) = -(nearestEven (x * 10 ^ places)) := by
      rw [Nat.cast_natAbs, abs_of_nonpos hle, Int.cast_neg]
    rw [decide_eq_true hneg, if_pos rfl, habs, neg_div, neg_neg]
  · have hge := hsign.2 (mul_nonneg hnonneg hpow.le)
    have habs : ((nearestEven (x * 10 ^ places)).natAbs : ℚ) = nearestEven (x * 10 ^ places) := by
      rw [Nat.cast_natAbs, abs_of_nonneg hge]
    rw [decide_eq_false (not_lt.mpr hnonneg), habs]
    rfl

theorem numberArg_printFixed (x : ℚ) :
    (numberArg (printFixed 2 x).value).join = some (roundHalfEven x 2) := by
  rw [value_printFixed]
  rfl

namespace OrderExecutor

variable {ex : OrderExecutor} {o : OrderSubmission} {w : WireOrder}

/-- The limit price of a call: the selector's, or the explicit one or else the signal's entry price;
none for a market order. -/
def Call.price? : Call → Option ℚ
  | .plain o => OrderExecutor.price? o
  | .ofKind o kind limitPrice _ =>
    if kind = .market then OrderExecutor.price? o else some (kindPrice o limitPrice)

/-- The prices of a call: its limit price, stop loss and take profit. -/
def Call.prices (call : Call) : List ℚ :=
  call.price?.toList ++ [call.order.signal.stopLoss, call.order.signal.takeProfit]

/-- The exchange reads the prices of a call from a message as they were, and no stop loss as none. -/
structure PricesSurvive (w : WireOrder) (call : Call) : Prop where
  price : ∀ p, call.price? = some p → w.reads "price" = some p
  stopLoss : w.reads "stop_loss" = some call.order.signal.stopLoss
  takeProfit : w.reads "take_profit" = some call.order.signal.takeProfit
  stop_kept : call.order.signal.stopLoss ≠ 0 → w.reads "stop_loss" ≠ some 0

/-- An order without an explicit kind leaves room in the buffer for its price and its brace. -/
def PlainFits (ex : OrderExecutor) (o : OrderSubmission) : Prop :=
  (OrderExecutor.price? o ≠ none → bytes (ex.plainMembers o) < 480) ∧ bytes (ex.orderMembers o) < 510

/-- The text of a call leaves room for all of it. With an explicit kind it always does, if it is
sent. -/
def Call.Fits (ex : OrderExecutor) : Call → Prop
  | .plain o => ex.PlainFits o
  | .ofKind o kind _ _ => kind = .market → ex.PlainFits o

/-- If all of a text is there exactly under some condition, and prices are then read as rounded to
cents, they survive exactly under the condition and if they are whole numbers of cents. -/
theorem pricesSurvive_iff_of_reads {call : Call} {complete : Prop} (hreads : complete →
      (∀ p, call.price? = some p → w.reads "price" = some (roundHalfEven p 2)) ∧
        w.reads "stop_loss" = some (roundHalfEven call.order.signal.stopLoss 2) ∧
        w.reads "take_profit" = some (roundHalfEven call.order.signal.takeProfit 2))
    (hcut : ¬ complete → w.reads "stop_loss" = none ∨ ∃ p, call.price? = some p ∧ w.reads "price" = none) :
    PricesSurvive w call ↔ complete ∧ ∀ v ∈ call.prices, Cents v := by
  have hprices : (∀ v ∈ call.prices, Cents v) ↔ (∀ p, call.price? = some p → Cents p) ∧
      Cents call.order.signal.stopLoss ∧ Cents call.order.signal.takeProfit := by
    simp only [Call.prices, List.forall_mem_append, Option.mem_toList,
      List.forall_mem_cons]
    simp
  rw [hprices]
  constructor
  · intro h
    have hcomplete : complete := by
      by_contra hnot
      rcases hcut hnot with hstop | ⟨p, hp, hprice⟩
      · rw [h.stopLoss] at hstop
        cases hstop
      · rw [h.price p hp] at hprice
        cases hprice
    obtain ⟨hprice, hstop, htake⟩ := hreads hcomplete
    refine ⟨hcomplete, fun p hp => ?_, ?_, ?_⟩
    · exact (roundHalfEven_eq_self_iff p).mp (Option.some.inj ((hprice p hp).symm.trans (h.price p hp)))
    · exact (roundHalfEven_eq_self_iff _).mp (Option.some.inj (hstop.symm.trans h.stopLoss))
    · exact (roundHalfEven_eq_self_iff _).mp (Option.some.inj (htake.symm.trans h.takeProfit))
  · rintro ⟨hcomplete, hcentsPrice, hcentsStop, hcentsTake⟩
    obtain ⟨hprice, hstop, htake⟩ := hreads hcomplete
    rw [(roundHalfEven_eq_self_iff _).mpr hcentsStop] at hstop
    rw [(roundHalfEven_eq_self_iff _).mpr hcentsTake] at htake
    refine ⟨fun p hp => ?_, hstop, htake, fun hne hzero => ?_⟩
    · rw [hprice p hp, (roundHalfEven_eq_self_iff p).mpr (hcentsPrice p hp)]
    · rw [hstop] at hzero
      exact hne (Option.some.inj hzero)

/-- What the exchange finds in a message without an explicit kind. -/
theorem decoded_orderMembers (ex : OrderExecutor) (o : OrderSubmission) :
    decoded (ex.orderMembers o) "stop_loss" = (printFixed 2 o.signal.stopLoss).value ∧
      decoded (ex.orderMembers o) "take_profit" = (printFixed 2 o.signal.takeProfit).value ∧
      ∀ p, OrderExecutor.price? o = some p → decoded (ex.orderMembers o) "price" =
        if bytes (ex.plainMembers o) < 480 then (printFixed 2 p).value else .null := by
  unfold orderMembers
  cases hprice : OrderExecutor.price? o with
  | none =>
    refine ⟨?_, ?_, fun p hp => by cases hp⟩
    · simp [decoded, plainMembers]
    · simp [decoded, plainMembers]
  | some price =>
    dsimp only
    split
    · refine ⟨?_, ?_, fun p hp => ?_⟩
      · simp [decoded, plainMembers]
      · simp [decoded, plainMembers]
      · cases hp
        simp [decoded, plainMembers]
    · refine ⟨?_, ?_, fun p hp => ?_⟩
      · simp [decoded, plainMembers]
      · simp [decoded, plainMembers]
      · simp [decoded, plainMembers]

/-- What the exchange finds in a message with an explicit kind. -/
theorem decoded_expiringMembers (ex : OrderExecutor) (o : OrderSubmission) (kind : OrderKind)
    (limitPrice : ℚ) (expireNs : ℤ) : decoded (ex.expiringMembers o kind limitPrice expireNs) "stop_loss" =
        (printFixed 2 o.signal.stopLoss).value ∧
      decoded (ex.expiringMembers o kind limitPrice expireNs) "take_profit" =
        (printFixed 2 o.signal.takeProfit).value ∧
      decoded (ex.expiringMembers o kind limitPrice expireNs) "price" =
        (printFixed 2 (kindPrice o limitPrice)).value := by
  unfold expiringMembers
  split
  · simp [decoded, kindMembers]
  · simp [decoded, kindMembers]

theorem pricesSurvive_plain_iff {call : Call} (hexchange : Json.Plain ex.exchangeId)
    (hsymbol : Json.Plain call.order.signal.symbol)
    (hprice : call.price? = OrderExecutor.price? call.order) (hsent : ex.submitOrder call.order = some w) :
    PricesSurvive w call ↔ ex.PlainFits call.order ∧ ∀ v ∈ call.prices, Cents v := by
  obtain ⟨hmembers, hclosed⟩ := submitOrder_eq_some hsent
  obtain ⟨hnodup, hne⟩ := ex.nodup_orderMembers call.order
  obtain ⟨hstop, htake, hlimit⟩ := ex.decoded_orderMembers call.order
  have hreads : ∀ name, w.reads name = if bytes (ex.orderMembers call.order) < 510 then
      (numberArg (decoded (ex.orderMembers call.order) name)).join else none := by
    intro name
    rw [w.reads_eq (hmembers ▸ wellFormed_orderMembers hexchange hsymbol) (hmembers ▸ hnodup)
      (hmembers ▸ hne), hclosed, hmembers]
    simp
  apply pricesSurvive_iff_of_reads
  · rintro ⟨hroom, hfits⟩
    refine ⟨fun p hp => ?_, ?_, ?_⟩
    · rw [hprice] at hp
      have hroom' := hroom (by rw [hp]; exact Option.some_ne_none p)
      rw [hreads, if_pos hfits, hlimit p hp, if_pos hroom', numberArg_printFixed]
    · rw [hreads, if_pos hfits, hstop, numberArg_printFixed]
    · rw [hreads, if_pos hfits, htake, numberArg_printFixed]
  · intro hcut
    by_cases hfits : bytes (ex.orderMembers call.order) < 510
    · have hroom : ¬ (OrderExecutor.price? call.order ≠ none →
          bytes (ex.plainMembers call.order) < 480) := fun h => hcut ⟨h, hfits⟩
      rw [Classical.not_imp] at hroom
      obtain ⟨p, hp⟩ := Option.ne_none_iff_exists'.mp hroom.1
      refine Or.inr ⟨p, hprice.trans hp, ?_⟩
      rw [hreads, if_pos hfits, hlimit p hp, if_neg hroom.2]
      rfl
    · left
      rw [hreads, if_neg hfits]

/-- Prices on the exchange's grid are read from a message as they were exactly if the text had room
for all of it and those below one dollar are whole numbers of cents. -/
theorem pricesSurvive_iff {call : Call} (hexchange : Json.Plain ex.exchangeId)
    (hsymbol : Json.Plain call.order.signal.symbol) (hgrid : ∀ v ∈ call.prices, OnGrid v)
    (hsent : ex.send call = some w) :
    PricesSurvive w call ↔ call.Fits ex ∧ ∀ v ∈ call.prices, v < 1 → Cents v := by
  have hcents : (∀ v ∈ call.prices, v < 1 → Cents v) ↔ ∀ v ∈ call.prices, Cents v := by
    constructor
    · intro h v hv
      rcases lt_or_ge v 1 with hsmall | hlarge
      · exact h v hv hsmall
      · exact cents_of_onGrid (hgrid v hv) hlarge
    · exact fun h v hv _ => h v hv
  rw [hcents]
  cases call with
  | plain o =>
    have hplain : (Call.plain o).price? = OrderExecutor.price? (Call.plain o).order := rfl
    exact pricesSurvive_plain_iff hexchange hsymbol hplain hsent
  | ofKind o kind limitPrice expireNs =>
    by_cases hkind : kind = .market
    · have hsubmitted : ex.submitOrder o = some w := by
        rwa [send, submitOrderOfKind, if_pos hkind] at hsent
      have hprice : (Call.ofKind o kind limitPrice expireNs).price? = OrderExecutor.price? o :=
        if_pos hkind
      rw [pricesSurvive_plain_iff hexchange hsymbol hprice hsubmitted]
      simp [Call.Fits, Call.order, hkind]
    · obtain ⟨hmembers, hclosed⟩ := submitOrderOfKind_eq_some hkind hsent
      obtain ⟨hnodup, hne⟩ := ex.nodup_expiringMembers o kind limitPrice expireNs
      obtain ⟨hstop, htake, hlimit⟩ := ex.decoded_expiringMembers o kind limitPrice expireNs
      have hreads : ∀ name, w.reads name =
          (numberArg (decoded (ex.expiringMembers o kind limitPrice expireNs) name)).join := by
        intro name
        rw [w.reads_eq (hmembers ▸ wellFormed_expiringMembers hexchange hsymbol kind limitPrice
          expireNs) (hmembers ▸ hnodup) (hmembers ▸ hne), hclosed, hmembers, if_pos rfl]
      have hfits : (Call.ofKind o kind limitPrice expireNs).Fits ex := fun h => absurd h hkind
      apply pricesSurvive_iff_of_reads
      · intro _
        refine ⟨fun p hp => ?_, ?_, ?_⟩
        · have hp' : kindPrice o limitPrice = p := by
            simpa [Call.price?, hkind] using hp
          rw [hreads, hlimit, hp', numberArg_printFixed]
        · rw [hreads, hstop, numberArg_printFixed]
          rfl
        · rw [hreads, htake, numberArg_printFixed]
          rfl
      · exact fun hcut => absurd hfits hcut

/-- An immediate-or-cancel buy at a limit price with its stop loss and take profit. -/
def buyCall (symbol : String) (limitPrice stopLoss takeProfit : ℚ) : Call :=
  .ofKind {
    signal := {
      symbol := symbol
      direction := .long
      entryPrice := limitPrice
      stopLoss := stopLoss
      takeProfit := takeProfit
      timestamp := 1704067200 }
    confidence := 90
    quantity := 1
    book := ⟨symbol, "binance", [], []⟩ } .limitIoc limitPrice 0

/-- Whole cents below one dollar survive. -/
theorem pricesSurvive_cents : ∃ w, (⟨"binance", true⟩ : OrderExecutor).send
        (buyCall "DOGE/USDT" (12 / 100) (11 / 100) (14 / 100)) = some w ∧
      PricesSurvive w (buyCall "DOGE/USDT" (12 / 100) (11 / 100) (14 / 100)) := by
  have hsome : ((⟨"binance", true⟩ : OrderExecutor).send
      (buyCall "DOGE/USDT" (12 / 100) (11 / 100) (14 / 100))).isSome := by decide +kernel
  obtain ⟨w, hsent⟩ := Option.isSome_iff_exists.mp hsome
  have hprices : (buyCall "DOGE/USDT" (12 / 100) (11 / 100) (14 / 100)).prices =
      [12 / 100, 11 / 100, 14 / 100] := by decide +kernel
  refine ⟨w, hsent, (pricesSurvive_iff (by decide) (by decide) ?_ hsent).mpr ⟨?_, ?_⟩⟩
  · decide +kernel
  · exact fun h => by cases h
  · rw [hprices]
    simp only [List.forall_mem_cons]
    exact ⟨fun _ => ⟨12, by norm_num⟩, fun _ => ⟨11, by norm_num⟩, fun _ => ⟨14, by norm_num⟩,
      fun _ h => absurd h List.not_mem_nil⟩

/-- On a cheap symbol a stop loss on the grid is read as zero, which the exchange takes for no stop,
and so is the limit price. -/
theorem stopLoss_lost :
    (∀ v ∈ (buyCall "SHIB/USDT" (24 / 10 ^ 6) (23 / 10 ^ 6) (26 / 10 ^ 6)).prices, OnGrid v) ∧
      ∃ w, (⟨"binance", true⟩ : OrderExecutor).send
          (buyCall "SHIB/USDT" (24 / 10 ^ 6) (23 / 10 ^ 6) (26 / 10 ^ 6)) = some w ∧
        w.reads "price" = some 0 ∧ w.reads "stop_loss" = some 0 ∧
        ¬ PricesSurvive w (buyCall "SHIB/USDT" (24 / 10 ^ 6) (23 / 10 ^ 6) (26 / 10 ^ 6)) := by
  have hgrid : ∀ v ∈ (buyCall "SHIB/USDT" (24 / 10 ^ 6) (23 / 10 ^ 6) (26 / 10 ^ 6)).prices,
      OnGrid v := by decide +kernel
  have hreads : ((⟨"binance", true⟩ : OrderExecutor).send
      (buyCall "SHIB/USDT" (24 / 10 ^ 6) (23 / 10 ^ 6) (26 / 10 ^ 6))).map
        (fun w => (w.reads "price", w.reads "stop_loss")) = some (some 0, some 0) := by decide +kernel
  obtain ⟨w, hsent, hw⟩ := Option.map_eq_some_iff.mp hreads
  obtain ⟨hprice, hstop⟩ := Prod.mk.inj hw
  have hnonzero : (23 / 10 ^ 6 : ℚ) ≠ 0 := by norm_num
  exact ⟨hgrid, w, hsent, hprice, hstop, fun h => h.stop_kept hnonzero hstop⟩

end OrderExecutor

end TradingSim.Bot
