import TradingSim.Foundations.Run
import TradingSim.Bot.RiskManager

/-!
# The day's profit

Once per iteration the main loop feeds the risk manager. When a minute has passed since the last
look at the calendar and the UTC day has changed, the realized profit so far becomes the day's
baseline. The day's profit is what was realized beyond the baseline, plus the whole unrealized
profit: the baseline takes no account of what was unrealized when the day began.
-/

namespace TradingSim.Bot

open Foundations

/-- A day of the UTC calendar by its year and its place in the year. -/
structure UtcDay where
  year : ℤ
  yday : ℤ
  inYear : 0 ≤ yday ∧ yday < 366 := by decide
  deriving DecidableEq

/-- The number the day is compared by. -/
def UtcDay.key (day : UtcDay) : ℤ := day.year * 1000 + day.yday

/-- The bot with the rest of its risk state: the realized profit and the day of the last rollover, and the
time of the next look at the calendar. -/
structure TradingBot extends BotContext where
  gauges : RiskGauges := {}
  dailyRealizedBaseline : ℚ := 0
  lastDayKey : ℤ := -1
  nextCheck : Option ℤ := none

namespace TradingBot

/-- Realized and unrealized profit together. -/
def totalPnl (x : TradingBot) : ℚ := x.posMgr.realizedPnlTotal + x.posMgr.totalUnrealizedPnl

/-- What the other threads do meanwhile. -/
def elapse (defaultExchange : String) (x : TradingBot) (events : List BotEvent) : TradingBot :=
  { x with toBotContext := run (BotContext.step defaultExchange) x.toBotContext events }

/-- `reset_daily`. The exposure is not a daily counter and stays. -/
def resetDaily (x : TradingBot) : TradingBot :=
  { x with
    riskMgr := { x.riskMgr with dailyPnl := 0 }
    gauges := { x.gauges with peakEquity := 0 } }

/-- `update_pnl_v2`. -/
def updatePnl (x : TradingBot) (realizedPnl unrealizedPnl equity : ℚ) : TradingBot :=
  { x with
    riskMgr := { x.riskMgr with dailyPnl := realizedPnl + unrealizedPnl }
    gauges := { x.gauges with peakEquity := max x.gauges.peakEquity equity } }

end TradingBot

/-- A call of `update_risk_state`: the balance and the clocks it reads, and what other threads do before
each read of the book and before the result is stored. -/
structure RiskUpdate where
  currentBalance : ℚ
  nowSteady : ℤ
  day : UtcDay
  beforeUnrealized : List BotEvent := []
  beforeRealized : List BotEvent := []
  beforeStore : List BotEvent := []

namespace TradingBot

/-- Whether a call is due to look at the calendar. -/
def checksDay (x : TradingBot) (u : RiskUpdate) : Bool := x.nextCheck.all (· ≤ u.nowSteady)

/-- Whether a call notices that the day has changed. -/
def rollsOver (x : TradingBot) (u : RiskUpdate) : Bool :=
  x.checksDay u && decide (u.day.key ≠ x.lastDayKey)

/-- The first part of `update_risk_state`: at most once a minute look for a new day. -/
def rollOver (x : TradingBot) (u : RiskUpdate) : TradingBot :=
  let looked := if x.checksDay u then { x with nextCheck := some (u.nowSteady + 60 * 1000000000) }
    else x
  if x.rollsOver u then
    { looked with
      lastDayKey := u.day.key
      dailyRealizedBaseline := looked.posMgr.realizedPnlTotal }.resetDaily
  else looked

/-- `update_risk_state` up to the limits that trip the kill switch. -/
def updateRiskState (defaultExchange : String) (x : TradingBot) (u : RiskUpdate) : TradingBot :=
  let rolled := (x.rollOver u).elapse defaultExchange u.beforeUnrealized
  let unrealized := rolled.posMgr.totalUnrealizedPnl
  let read := rolled.elapse defaultExchange u.beforeRealized
  let realizedToday := read.posMgr.realizedPnlTotal - read.dailyRealizedBaseline
  let late := read.elapse defaultExchange u.beforeStore
  late.updatePnl realizedToday unrealized (u.currentBalance + unrealized)

/-- The baseline that a call subtracts. -/
def baselineFor (x : TradingBot) (u : RiskUpdate) : ℚ :=
  if x.rollsOver u then x.posMgr.realizedPnlTotal else x.dailyRealizedBaseline

theorem dailyRealizedBaseline_rollOver (x : TradingBot) (u : RiskUpdate) :
    (x.rollOver u).dailyRealizedBaseline = x.baselineFor u := by
  unfold rollOver baselineFor
  split
  · split <;> rfl
  · split <;> rfl

theorem posMgr_rollOver (x : TradingBot) (u : RiskUpdate) : (x.rollOver u).posMgr = x.posMgr := by
  unfold rollOver
  split
  · split <;> rfl
  · split <;> rfl

theorem dailyPnl_updateRiskState (defaultExchange : String) (x : TradingBot) {u : RiskUpdate}
    (hunrealized : u.beforeUnrealized = []) (hrealized : u.beforeRealized = [])
    (hstore : u.beforeStore = []) :
    (x.updateRiskState defaultExchange u).riskMgr.dailyPnl = x.totalPnl - x.baselineFor u := by
  have hstored : (x.updateRiskState defaultExchange u).riskMgr.dailyPnl =
      (x.rollOver u).posMgr.realizedPnlTotal - (x.rollOver u).dailyRealizedBaseline +
        (x.rollOver u).posMgr.totalUnrealizedPnl := by
    simp only [updateRiskState, hunrealized, hrealized, hstore, elapse, run_nil, updatePnl]
  rw [hstored, posMgr_rollOver, dailyRealizedBaseline_rollOver, totalPnl]
  ring

theorem posMgr_updateRiskState (defaultExchange : String) (x : TradingBot) {u : RiskUpdate}
    (hunrealized : u.beforeUnrealized = []) (hrealized : u.beforeRealized = [])
    (hstore : u.beforeStore = []) : (x.updateRiskState defaultExchange u).posMgr = x.posMgr := by
  have hkept : (x.updateRiskState defaultExchange u).posMgr = (x.rollOver u).posMgr := by
    simp only [updateRiskState, hunrealized, hrealized, hstore, elapse, run_nil, updatePnl]
  rw [hkept, posMgr_rollOver]

end TradingBot

/-- No other thread acts between the reads of an update. -/
def RiskUpdate.Undisturbed (u : RiskUpdate) : Prop :=
  u.beforeUnrealized = [] ∧ u.beforeRealized = [] ∧ u.beforeStore = []

instance (u : RiskUpdate) : Decidable u.Undisturbed := inferInstanceAs (Decidable (_ ∧ _))

/-- What happens over the days: the other threads and the rest of the main loop act on the bot, or
the main loop updates its risk state. -/
inductive DayEvent
  | other (e : BotEvent)
  | update (u : RiskUpdate)

/-- Only the update itself acts while it runs. -/
def DayEvent.Undisturbed : DayEvent → Prop
  | .other _ => True
  | .update u => u.Undisturbed

/-- The bot over several days. `opened` is bookkeeping: the day of the last update with the total
profit when the first update of that day began. -/
structure DailyRun where
  bot : TradingBot := {}
  opened : Option (UtcDay × ℚ) := none

namespace DailyRun

variable (defaultExchange : String)

/-- The total profit when the first update of an update's day began. -/
def openingFor (x : DailyRun) (u : RiskUpdate) : ℚ :=
  match x.opened with
  | some (day, pnl) => if day = u.day then pnl else x.bot.totalPnl
  | none => x.bot.totalPnl

def step (x : DailyRun) : DayEvent → DailyRun
  | .other e => { x with bot := x.bot.elapse defaultExchange [e] }
  | .update u => {
      bot := x.bot.updateRiskState defaultExchange u
      opened := some (u.day, x.openingFor u) }

/-- After an update the day's profit is the change of the total profit since the first update of
the day. -/
def ReportsDay (x : DailyRun) : DayEvent → Prop
  | .other _ => True
  | .update u =>
    let bot := x.bot.updateRiskState defaultExchange u
    bot.riskMgr.dailyPnl = bot.totalPnl - x.openingFor u

/-- The change of a day carries no profit over: where an update notices it, nothing is unrealized; where the
first update of a day comes too soon, the day before has ended with the profit it began with, and what is
realized once the day is noticed is still that. -/
def ChangesEvenly (x : DailyRun) (u : RiskUpdate) : Prop :=
  match x.opened with
  | none => x.bot.posMgr.totalUnrealizedPnl = 0
  | some (day, pnl) =>
    if x.bot.rollsOver u then
      if day = u.day then x.bot.posMgr.realizedPnlTotal = pnl
      else x.bot.posMgr.totalUnrealizedPnl = 0
    else day = u.day ∨ x.bot.totalPnl = pnl

/-- No update is disturbed, nor does one find a change of the day that carries profit over. -/
def CarriesNothing (x : DailyRun) : DayEvent → Prop
  | .other _ => True
  | .update u => u.Undisturbed ∧ x.ChangesEvenly u

instance (x : DailyRun) (e : DayEvent) : Decidable (x.ReportsDay defaultExchange e) := by
  cases e <;> unfold ReportsDay <;> infer_instance

instance (x : DailyRun) (u : RiskUpdate) : Decidable (x.ChangesEvenly u) := by
  unfold ChangesEvenly
  split <;> infer_instance

instance (x : DailyRun) (e : DayEvent) : Decidable (x.CarriesNothing e) := by
  cases e <;> unfold CarriesNothing <;> infer_instance

/-- The baseline is the total profit that the day of the last update began with; before the first
update the calendar was never looked at. -/
def OpenedAtBaseline (x : DailyRun) : Prop :=
  match x.opened with
  | none => x.bot.nextCheck = none ∧ x.bot.lastDayKey = -1
  | some (_, pnl) => x.bot.dailyRealizedBaseline = pnl

/-- A day's number is never that of the bot's start. -/
theorem key_ne_start (day : UtcDay) : day.key ≠ -1 := by
  have hyear := day.inYear
  unfold UtcDay.key
  omega

/-- Where the baseline is the opening of the last update's day, an update subtracts the opening of its
own day exactly if the change of the day carries nothing over. -/
theorem openingFor_eq_iff {x : DailyRun} (h : x.OpenedAtBaseline) (u : RiskUpdate) :
    x.openingFor u = x.bot.baselineFor u ↔ x.ChangesEvenly u := by
  unfold OpenedAtBaseline at h
  unfold openingFor ChangesEvenly TradingBot.baselineFor
  cases hopened : x.opened with
  | none =>
    obtain ⟨hcheck, hday⟩ : x.bot.nextCheck = none ∧ x.bot.lastDayKey = -1 := by rwa [hopened] at h
    have hrolls : x.bot.rollsOver u = true := by
      simp [TradingBot.rollsOver, TradingBot.checksDay, hcheck, hday, key_ne_start]
    rw [if_pos hrolls, TradingBot.totalPnl, add_eq_left]
  | some opening =>
    obtain ⟨day, pnl⟩ := opening
    have hbaseline : x.bot.dailyRealizedBaseline = pnl := by rwa [hopened] at h
    by_cases hrolls : x.bot.rollsOver u = true
    · by_cases hday : day = u.day
      · simp only [hrolls, hday, if_true, eq_comm]
      · simp only [hrolls, hday, if_true, if_false, TradingBot.totalPnl, add_eq_left]
    · by_cases hday : day = u.day
      · simp [hrolls, hday, hbaseline]
      · simp [hrolls, hday, hbaseline]

theorem reportsDay_iff {x : DailyRun} (h : x.OpenedAtBaseline) (e : DayEvent) :
    e.Undisturbed ∧ x.ReportsDay defaultExchange e ↔ x.CarriesNothing e := by
  cases e with
  | other e => exact and_self_iff
  | update u =>
    refine and_congr_right fun ⟨hunrealized, hrealized, hstore⟩ => ?_
    have hdaily := x.bot.dailyPnl_updateRiskState defaultExchange hunrealized hrealized hstore
    have hbook := x.bot.posMgr_updateRiskState defaultExchange hunrealized hrealized hstore
    have htotal : (x.bot.updateRiskState defaultExchange u).totalPnl = x.bot.totalPnl := by
      rw [TradingBot.totalPnl, TradingBot.totalPnl, hbook]
    simp only [ReportsDay]
    rw [hdaily, htotal, sub_right_inj, eq_comm, openingFor_eq_iff h]

/-- An update that finds nothing carried over subtracts what its day began with. -/
theorem openedAtBaseline_step (x : DailyRun) (e : DayEvent) (h : x.OpenedAtBaseline)
    (hevenly : x.CarriesNothing e) : (x.step defaultExchange e).OpenedAtBaseline := by
  cases e with
  | other e => exact h
  | update u =>
    have hopening := (openingFor_eq_iff h u).mpr hevenly.2
    have hbaseline : (x.bot.updateRiskState defaultExchange u).dailyRealizedBaseline =
        (x.bot.rollOver u).dailyRealizedBaseline := rfl
    simp only [OpenedAtBaseline, step]
    rw [hbaseline, TradingBot.dailyRealizedBaseline_rollOver, hopening]

/-- In every run each update is undisturbed and reports the profit since the first update of its day
exactly when no update is disturbed or finds a change of the day that carries profit over. -/
theorem reportsDay_iff_carriesNothing (events : List DayEvent) :
    Along (step defaultExchange) (fun x e => e.Undisturbed ∧ x.ReportsDay defaultExchange e) {} events ↔
      Along (step defaultExchange) CarriesNothing {} events := by
  apply along_congr OpenedAtBaseline
  · intro x e h hreports
    exact openedAtBaseline_step defaultExchange x e h ((reportsDay_iff defaultExchange h e).mp hreports)
  · intro x e h
    exact reportsDay_iff defaultExchange h e
  · exact ⟨rfl, rfl⟩

section Example

/-- The first day of a year. -/
def newYear : UtcDay where
  year := 124
  yday := 0

def dayAfter : UtcDay where
  year := 124
  yday := 1

/-- One unit bought at 100. -/
def boughtOne : OrderUpdate where
  symbol := "BTC"
  exchange := "binance"
  side := .buy
  status := .filled
  filledQuantity := 1
  filledPrice := 100

/-- A day on which a long position gains 50. -/
def gainingDay : List DayEvent :=
  [.update { currentBalance := 10000, nowSteady := 0, day := newYear },
    .other (.addPendingOrder { symbol := "BTC", direction := .long } 1),
    .other (.fill boughtOne),
    .other (.updateAllPnl (Dict.empty.insert "BTC" 150))]

/-- An update a given number of hours after the start. -/
def updateAt (hours : ℤ) (day : UtcDay) : DayEvent :=
  .update { currentBalance := 10000, nowSteady := hours * 3600 * 1000000000, day := day }

end Example

/-- Yesterday's gain on a position held overnight counts as the new day's profit. -/
theorem not_reportsDay_heldOvernight :
    ¬ Along (step "binance") (ReportsDay "binance") {} (gainingDay ++ [updateAt 24 dayAfter]) := by
  decide +kernel

/-- Within one day the gain on a new position is the day's profit. -/
example : Along (step "binance") CarriesNothing {} (gainingDay ++ [updateAt 1 newYear]) := by
  decide +kernel

end DailyRun

end TradingSim.Bot
