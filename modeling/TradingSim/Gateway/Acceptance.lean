import TradingSim.Gateway.Idempotence

/-!
# Messages that are answered with a new order

If the handler answers a message with a new order, the exchange that the message names has accepted
it: the arguments of the submission were read from the message, and the exchange is the one that the
submission left, with the order's `client_order_id` written.
-/

namespace TradingSim.Gateway

open Foundations
open Exchange (MarketView SimulatedExchange)
open Coroutine (Outcome)

variable {rt : Runtime} {m : MarketView} {client : ℕ} {exchangeId : String}
  {exchange : SimulatedExchange} {key : Option String} {data : Dict String Json} {x y : Server}
  {o : OrderRef}

/-- The expiry that is read from a message: none, or the milliseconds it names in seconds. -/
def ReadsExpiry (rt : Runtime) (data : Dict String Json) (expireTs : Option (Option ℚ)) : Prop :=
  (member data "expire_ms" = .null ∧ expireTs = none) ∨
    ∃ expiry, rt.float (member data "expire_ms") = .ok expiry ∧
      expireTs = some (expiry.map (· / 1000))

/-- The time in force that is read from a message. -/
def timeInForceOf (rt : Runtime) (data : Dict String Json) : String :=
  rt.upper (rt.text ((data.find? "time_in_force").getD (.text "GTC")))

theorem submitExchangeOrder_eq_some
    (h : (submitExchangeOrder rt m client exchangeId exchange key data).advance x = (y, .ended (some o))) :
    ∃ quantity expireTs, ReadsExpiry rt data expireTs ∧
      (placeOrder rt m client exchangeId exchange key data quantity (timeInForceOf rt data)
        expireTs).advance x = (y, .ended (some o)) := by
  unfold submitExchangeOrder at h
  split at h
  · cases h
  · cases h
  · rename_i quantity _
    split at h
    · cases h
    · dsimp only at h
      split at h
      · cases h
      · split at h
        · rename_i hnull
          exact ⟨quantity, none, Or.inl ⟨hnull, rfl⟩, h⟩
        · split at h
          · cases h
          · rename_i expiry hexpiry
            exact ⟨quantity, _, Or.inr ⟨expiry, hexpiry, rfl⟩, h⟩

theorem placeOrder_eq_some {quantity : ℚ} {timeInForce : String} {expireTs : Option (Option ℚ)}
    (h : (placeOrder rt m client exchangeId exchange key data quantity timeInForce
      expireTs).advance x = (y, .ended (some o))) :
    ∃ called, callSubmitOrder rt m exchange data quantity timeInForce expireTs =
        (called, .order o.ref) ∧ o.exchange = exchangeId ∧ y.exchanges.find? exchangeId = some called := by
  simp only [placeOrder, Coroutine.advance_modify_bind] at h
  generalize callSubmitOrder rt m exchange data quantity timeInForce expireTs = result at h ⊢
  obtain ⟨called, answer⟩ := result
  cases answer with
  | order r =>
    obtain ⟨rfl, rfl⟩ := h
    exact ⟨called, rfl, rfl, Dict.find?_insert_self _ _ _⟩
  | invalid error => cases h
  | raised => cases h

/-- A message is answered with a new order. -/
def Server.Accepts (rt : Runtime) (x : Server) (data : Dict String Json) (o : OrderRef)
    (y : Server) : Prop :=
  ∃ m client content next, (handleOrderInner rt m client data).advance x =
    (y, .awaits (.send client (.fill o content false)) next)

/-- The submission behind an accepted message. -/
structure Submission (rt : Runtime) (x : Server) (data : Dict String Json) (o : OrderRef)
    (y : Server) (exchange called : SimulatedExchange) (quantity : ℚ)
    (expireTs : Option (Option ℚ)) : Prop where
  named : exchangeName data = .text o.exchange
  found : x.exchanges.find? o.exchange = some exchange
  expiry : ReadsExpiry rt data expireTs
  submitted : ∃ m, callSubmitOrder rt m exchange data quantity (timeInForceOf rt data) expireTs =
    (called, .order o.ref)
  left : y.exchanges.find? o.exchange = some (called.withOrders (called.orders.update o.ref
    fun order => { order with clientOrderId := clientOrderIdOf rt (member data "client_order_id") }))

theorem exchanges_remember (x : Server) (key : Option String) (o : OrderRef) :
    (x.remember key o).exchanges = x.exchanges := by
  cases key with
  | none => rfl
  | some k =>
    unfold Server.remember
    dsimp only
    split
    · rfl
    · split
      · rfl
      · rfl

theorem handleNewOrder_submitted {content : Exchange.Order} {next : Task Unit}
    (h : (handleNewOrder rt m client exchangeId exchange key data).advance x =
      (y, .awaits (.send client (.fill o content false)) next)) :
    ∃ x', (submitExchangeOrder rt m client exchangeId exchange key data).advance x =
        (x', .ended (some o)) ∧
      y = (x'.label o (clientOrderIdOf rt (member data "client_order_id"))).remember key o := by
  have hrun : SubmitRun x client key
      ((submitExchangeOrder rt m client exchangeId exchange key data).advance x) :=
    submitRun_submitExchangeOrder x
  rw [handleNewOrder, Coroutine.advance_bind] at h
  generalize (submitExchangeOrder rt m client exchangeId exchange key data).advance x = ran
    at h hrun
  cases hrun with
  | refused x' text _ =>
    have hanswer := congrArg (fun ran => ran.2.output) h
    cases hanswer
  | raised x' _ => cases h
  | submitted x' o' _ _ _ =>
    obtain ⟨rfl, ⟨-, rfl, -, -⟩, -⟩ := h
    exact ⟨x', rfl, rfl⟩

theorem Server.Accepts.submission (h : x.Accepts rt data o y) : ∃ exchange called quantity expireTs,
      Submission rt x data o y exchange called quantity expireTs := by
  obtain ⟨m, client, content, next, h⟩ := h
  simp only [handleOrderInner, Coroutine.advance_get_bind] at h
  split at h
  · cases h
  · split at h
    · cases h
    · rename_i exchangeId hname
      split at h
      · cases h
      · rename_i exchange hexchange
        split at h
        · cases h
        · split at h
          · cases h
          · obtain ⟨x', hran, rfl⟩ := handleNewOrder_submitted h
            obtain ⟨quantity, expireTs, hexpiry, hplaced⟩ := submitExchangeOrder_eq_some hran
            obtain ⟨called, hcalled, rfl, hleft⟩ := placeOrder_eq_some hplaced
            refine ⟨exchange, called, quantity, expireTs, hname, hexchange, hexpiry, ⟨m, hcalled⟩, ?_⟩
            rw [exchanges_remember, Server.label, hleft]
            exact Dict.find?_insert_self _ _ _
    · cases h

end TradingSim.Gateway
