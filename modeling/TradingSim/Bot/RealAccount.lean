import Mathlib.Algebra.Order.Field.Rat
import TradingSim.Foundations.Dict
import TradingSim.Foundations.Run

/-!
# The account at a real exchange

An order is sent at the leverage that the exchange has for its symbol. `place_order` asks for another one
unless its cache says that it is set, and then writes the cache whatever the exchange has answered;
`set_leverage` does not write the cache.
-/

namespace TradingSim.Bot.RealAccount

open Foundations (Dict run run_nil run_cons run_append Along along_congr)

/-- What the exchange replies to an order that it takes. -/
structure OrderReply where
  id : Option String
  status : Option String

/-- The `params` of an order. -/
structure OrderParams where
  stopLossPrice : Option ℚ
  takeProfitPrice : Option ℚ
  clientOrderId : Option String
  deriving DecidableEq

/-- The arguments of `create_order`. -/
structure CreateOrder where
  symbol : String
  type : String
  side : String
  amount : ℚ
  price : Option ℚ
  params : OrderParams
  deriving DecidableEq

/-- A request to the exchange, with what becomes of it: none is an exception. -/
inductive Request
  | setLeverage (leverage : ℤ) (symbol : String) (accepted : Bool)
  | createOrder (order : CreateOrder) (reply : Option OrderReply)

/-- The arguments of `place_order`. -/
structure OrderArguments where
  symbol : String
  side : String
  quantity : ℚ
  orderType : String := "market"
  price : Option ℚ := none
  leverage : ℤ := 1
  stopLoss : Option ℚ := none
  takeProfit : Option ℚ := none
  maxRetries : ℤ := 3
  clientOrderId : Option String := none

/-- What `place_order` returns for an order that is placed. -/
structure PlacedOrder where
  orderId : String
  symbol : String
  side : String
  type : String
  quantity : ℚ
  price : ℚ
  status : String

/-- The account, with whether it has an exchange. -/
structure RealAccountManager where
  connected : Bool
  leverageCache : Dict String ℤ := Dict.empty

namespace RealAccountManager

/-- `set_leverage`: its answer and its requests. -/
def setLeverage (account : RealAccountManager) (symbol : String) (leverage : ℤ) (accepted : Bool) :
    Bool × List Request :=
  if account.connected then (accepted, [.setLeverage leverage symbol accepted]) else (false, [])

/-- The parameters that are set and not empty. -/
def orderParams (args : OrderArguments) : OrderParams where
  stopLossPrice := args.stopLoss.filter (· ≠ 0)
  takeProfitPrice := args.takeProfit.filter (· ≠ 0)
  clientOrderId := args.clientOrderId.filter (· ≠ "")

/-- The loop over the attempts, of which some are left. -/
def attemptOrder (args : OrderArguments) (replies : ℕ → Option OrderReply) :
    ℕ → ℕ → Option PlacedOrder × List Request
  | 0, _ => (none, [])
  | left + 1, attempt =>
    let order : CreateOrder :=
      { symbol := args.symbol
        type := args.orderType
        side := args.side
        amount := args.quantity
        price := args.price
        params := orderParams args }
    match replies attempt with
    | some reply =>
      (some
        { orderId := reply.id.getD ""
          symbol := args.symbol
          side := args.side
          type := args.orderType
          quantity := args.quantity
          price := args.price.getD 0
          status := reply.status.getD "" }, [.createOrder order (some reply)])
    | none =>
      let (placed, requests) := attemptOrder args replies left (attempt + 1)
      (placed, .createOrder order none :: requests)

/-- `place_order`: its answer, its requests and the account after it. -/
def placeOrder (account : RealAccountManager) (args : OrderArguments) (accepted : Bool)
    (replies : ℕ → Option OrderReply) : Option PlacedOrder × List Request × RealAccountManager :=
  if account.connected = false then (none, [], account)
  else if args.quantity ≤ 0 then (none, [], account)
  else
    let (changes, account') :=
      if account.leverageCache.find? args.symbol ≠ some args.leverage then
        ((account.setLeverage args.symbol args.leverage accepted).2,
          { account with leverageCache := account.leverageCache.insert args.symbol args.leverage })
      else ([], account)
    let (placed, requests) := attemptOrder args replies args.maxRetries.toNat 0
    (placed, changes ++ requests, account')

end RealAccountManager

/-! ### Account and exchange -/

/-- The leverage that the exchange has confirmed for each symbol. -/
abbrev Confirmed := String → Option ℤ

/-- What a request does to the leverage at the exchange. -/
def confirm (confirmed : Confirmed) : Request → Confirmed
  | .setLeverage leverage symbol true => Function.update confirmed symbol (some leverage)
  | .setLeverage _ _ false => confirmed
  | .createOrder _ _ => confirmed

/-- A call of the account, with the answers of the exchange to its requests. -/
inductive Call
  | setLeverage (symbol : String) (leverage : ℤ) (accepted : Bool)
  | placeOrder (args : OrderArguments) (accepted : Bool) (replies : ℕ → Option OrderReply)

structure System where
  account : RealAccountManager
  confirmed : Confirmed := fun _ => none

namespace System

def requests (s : System) : Call → List Request
  | .setLeverage symbol leverage accepted => (s.account.setLeverage symbol leverage accepted).2
  | .placeOrder args accepted replies => (s.account.placeOrder args accepted replies).2.1

def step (s : System) (call : Call) : System where
  account :=
    match call with
    | .setLeverage _ _ _ => s.account
    | .placeOrder args accepted replies => (s.account.placeOrder args accepted replies).2.2
  confirmed := run confirm s.confirmed (s.requests call)

/-- The cache says what the exchange has confirmed. -/
def Coherent (s : System) : Prop := ∀ symbol, s.account.leverageCache.find? symbol = s.confirmed symbol

/-- Every order that a call sends is sent at the leverage that is asked for with it. -/
def SendsAt (s : System) : Call → Prop
  | .setLeverage _ _ _ => True
  | .placeOrder args accepted replies =>
    ∀ before order reply after,
      s.requests (.placeOrder args accepted replies) = before ++ .createOrder order reply :: after →
        run confirm s.confirmed before order.symbol = some args.leverage

/-- A call sends its orders at the leverage asked for, and leaves a cache that says what is confirmed. -/
def Faithful (s : System) (call : Call) : Prop := s.SendsAt call ∧ (s.step call).Coherent

/-- A call that needs another leverage gets it, and one that sets a leverage has it in the cache. -/
def Confirms (s : System) : Call → Prop
  | .setLeverage symbol leverage accepted =>
    s.account.connected = true → accepted = true → s.account.leverageCache.find? symbol = some leverage
  | .placeOrder args accepted _ =>
    s.account.connected = true → 0 < args.quantity →
      s.account.leverageCache.find? args.symbol ≠ some args.leverage → accepted = true

/-! ### What a call does -/

variable {s : System} {args : OrderArguments} {accepted : Bool} {replies : ℕ → Option OrderReply}

theorem mem_attemptOrder {left attempt : ℕ} {request : Request}
    (h : request ∈ (RealAccountManager.attemptOrder args replies left attempt).2) :
    ∃ order reply, request = .createOrder order reply ∧ order.symbol = args.symbol := by
  induction left generalizing attempt with
  | zero => cases h
  | succ left ih =>
    rw [RealAccountManager.attemptOrder] at h
    cases hreply : replies attempt with
    | some reply =>
      simp only [hreply, List.mem_singleton] at h
      exact ⟨_, _, h, rfl⟩
    | none =>
      simp only [hreply, List.mem_cons] at h
      rcases h with rfl | hlater
      · exact ⟨_, _, rfl, rfl⟩
      · exact ih hlater

theorem confirm_orders {requests : List Request} (confirmed : Confirmed)
    (h : ∀ request ∈ requests, ∃ order reply, request = Request.createOrder order reply) :
    run confirm confirmed requests = confirmed := by
  induction requests with
  | nil => rfl
  | cons request rest ih =>
    rw [List.forall_mem_cons] at h
    obtain ⟨⟨order, reply, rfl⟩, hrest⟩ := h
    exact ih hrest

theorem placeOrder_cases (account : RealAccountManager) (args : OrderArguments) (accepted : Bool)
    (replies : ℕ → Option OrderReply) :
    let requests := (account.placeOrder args accepted replies).2.1
    let account' := (account.placeOrder args accepted replies).2.2
    let attempts := (RealAccountManager.attemptOrder args replies args.maxRetries.toNat 0).2
    (¬ (account.connected = true ∧ 0 < args.quantity) ∧ requests = [] ∧ account' = account) ∨
    (account.leverageCache.find? args.symbol = some args.leverage ∧ requests = attempts ∧
      account' = account) ∨
    (account.connected = true ∧ 0 < args.quantity ∧
      account.leverageCache.find? args.symbol ≠ some args.leverage ∧
        requests = .setLeverage args.leverage args.symbol accepted :: attempts ∧
          account' = { account with leverageCache := account.leverageCache.insert args.symbol args.leverage }) := by
  intro requests account' attempts
  by_cases hconnected : account.connected = false
  · refine Or.inl ⟨?_, ?_⟩
    · rintro ⟨h, -⟩
      rw [hconnected] at h
      cases h
    · simp only [requests, account', RealAccountManager.placeOrder, if_pos hconnected, and_self]
  rw [Bool.not_eq_false] at hconnected
  by_cases hquantity : args.quantity ≤ 0
  · refine Or.inl ⟨fun h => absurd h.2 (not_lt.mpr hquantity), ?_⟩
    simp [requests, account', RealAccountManager.placeOrder, hconnected, hquantity]
  by_cases hcached : account.leverageCache.find? args.symbol = some args.leverage
  · refine Or.inr (Or.inl ⟨hcached, ?_⟩)
    simp [requests, account', attempts, RealAccountManager.placeOrder, hconnected, hquantity, hcached]
  · refine Or.inr (Or.inr ⟨hconnected, not_le.mp hquantity, hcached, ?_⟩)
    simp [requests, account', attempts, RealAccountManager.placeOrder, hconnected, hquantity, hcached,
      RealAccountManager.setLeverage]

/-! ### When a call is faithful -/

theorem faithful_setLeverage_iff (h : s.Coherent) (symbol : String) (leverage : ℤ) (accepted : Bool) :
    s.Faithful (.setLeverage symbol leverage accepted) ↔ s.Confirms (.setLeverage symbol leverage accepted) := by
  have hsends : s.SendsAt (.setLeverage symbol leverage accepted) := trivial
  rw [Faithful, and_iff_right hsends, Confirms]
  by_cases hset : s.account.connected = true ∧ accepted = true
  · obtain ⟨hconnected, rfl⟩ := hset
    have hconfirmed : (s.step (.setLeverage symbol leverage true)).confirmed =
        Function.update s.confirmed symbol (some leverage) := by
      simp [step, requests, RealAccountManager.setLeverage, hconnected, confirm]
    rw [Coherent, hconfirmed]
    simp only [hconnected, forall_const]
    constructor
    · intro hcoherent
      have hsymbol := hcoherent symbol
      rwa [Function.update_self] at hsymbol
    · intro hcached other
      by_cases hother : other = symbol
      · subst hother
        rw [Function.update_self]
        exact hcached
      · rw [Function.update_of_ne hother]
        exact h other
  · have hconfirmed : (s.step (.setLeverage symbol leverage accepted)).confirmed = s.confirmed := by
      rw [not_and, Bool.not_eq_true] at hset
      by_cases hconnected : s.account.connected = true
      · simp [step, requests, RealAccountManager.setLeverage, hconnected, hset hconnected, confirm]
      · simp [step, requests, RealAccountManager.setLeverage, hconnected]
    rw [Coherent, hconfirmed]
    exact iff_of_true h fun hconnected haccepted => absurd ⟨hconnected, haccepted⟩ hset

/-- Orders that are sent together are sent at one leverage. -/
theorem sendsAt_of_attempts {first attempts : List Request} {symbol : String} {leverage : ℤ}
    (hfirst : ∀ request ∈ first, ∀ order reply, request ≠ .createOrder order reply)
    (hattempts : ∀ request ∈ attempts, ∃ order reply, request = .createOrder order reply ∧ order.symbol = symbol)
    {confirmed : Confirmed} (hset : run confirm confirmed first symbol = some leverage)
    {before after : List Request} {order : CreateOrder} {reply : Option OrderReply}
    (hsent : first ++ attempts = before ++ .createOrder order reply :: after) :
    run confirm confirmed before order.symbol = some leverage := by
  rcases List.append_eq_append_iff.mp hsent with ⟨others, rfl, hrest⟩ | ⟨others, rfl, hrest⟩
  · have hmem : Request.createOrder order reply ∈ attempts := by simp [hrest]
    obtain ⟨order', reply', heq, hsymbol⟩ := hattempts _ hmem
    cases heq
    have hothers : ∀ request ∈ others, ∃ order reply, request = Request.createOrder order reply := by
      intro request hrequest
      obtain ⟨order', reply', heq, -⟩ := hattempts request (by simp [hrest, hrequest])
      exact ⟨order', reply', heq⟩
    rw [run_append, confirm_orders _ hothers, hsymbol]
    exact hset
  · cases others with
    | nil =>
      rw [List.nil_append] at hrest
      rw [List.append_nil] at hset
      obtain ⟨order', reply', heq, hsymbol⟩ := hattempts (.createOrder order reply) (by simp [← hrest])
      cases heq
      rw [hsymbol]
      exact hset
    | cons request others =>
      obtain ⟨rfl, -⟩ := List.cons_eq_cons.mp hrest
      exact absurd rfl (hfirst _ (by simp) order reply)

theorem faithful_placeOrder_iff (h : s.Coherent) (args : OrderArguments) (accepted : Bool)
    (replies : ℕ → Option OrderReply) :
    s.Faithful (.placeOrder args accepted replies) ↔ s.Confirms (.placeOrder args accepted replies) := by
  have hattempts : ∀ request ∈ (RealAccountManager.attemptOrder args replies args.maxRetries.toNat 0).2,
      ∃ order reply, request = Request.createOrder order reply ∧ order.symbol = args.symbol :=
    fun request hrequest => mem_attemptOrder hrequest
  have horders (confirmed : Confirmed) := confirm_orders confirmed fun request hrequest =>
    (hattempts request hrequest).imp fun order => Exists.imp fun reply => And.left
  rcases placeOrder_cases s.account args accepted replies with ⟨hnot, hrequests, haccount⟩ |
      ⟨hcached, hrequests, haccount⟩ | ⟨hconnected, hquantity, hcached, hrequests, haccount⟩
  · refine iff_of_true ⟨?_, ?_⟩ fun hconnected hquantity => absurd ⟨hconnected, hquantity⟩ hnot
    · intro before order reply after hsent
      rw [requests, hrequests] at hsent
      simp at hsent
    · intro symbol
      simp only [step, requests, hrequests, haccount, run_nil]
      exact h symbol
  · refine iff_of_true ⟨?_, ?_⟩ fun _ _ hnot => absurd hcached hnot
    · intro before order reply after hsent
      rw [requests, hrequests, ← List.nil_append (RealAccountManager.attemptOrder _ _ _ _).2] at hsent
      refine sendsAt_of_attempts (by simp) hattempts ?_ hsent
      rw [run_nil, ← h, hcached]
    · intro symbol
      simp only [step, requests, hrequests, haccount, horders]
      exact h symbol
  · have hstep (symbol : String) : (s.step (.placeOrder args accepted replies)).confirmed symbol =
        confirm s.confirmed (.setLeverage args.leverage args.symbol accepted) symbol := by
      simp only [step, requests, hrequests, run_cons, horders]
    have hcache : (s.step (.placeOrder args accepted replies)).account.leverageCache =
        s.account.leverageCache.insert args.symbol args.leverage := by
      simp only [step, haccount]
    constructor
    · intro hfaithful _ _ _
      by_contra haccepted
      rw [Bool.not_eq_true] at haccepted
      have hleft := hfaithful.2 args.symbol
      rw [hstep, hcache, Foundations.Dict.find?_insert_self, haccepted, confirm, ← h] at hleft
      exact hcached hleft.symm
    · intro hconfirms
      obtain rfl := hconfirms hconnected hquantity hcached
      constructor
      · intro before order reply after hsent
        rw [requests, hrequests, ← List.singleton_append] at hsent
        refine sendsAt_of_attempts ?_ hattempts ?_ hsent
        · intro request hrequest order reply heq
          rw [heq, List.mem_singleton] at hrequest
          cases hrequest
        · rw [run_cons, run_nil, confirm, Function.update_self]
      · intro symbol
        rw [hstep, hcache, confirm]
        by_cases hsymbol : symbol = args.symbol
        · rw [hsymbol, Foundations.Dict.find?_insert_self, Function.update_self]
        · rw [Foundations.Dict.find?_insert_of_ne _ hsymbol, Function.update_of_ne hsymbol]
          exact h symbol

/-- In every run of calls, the orders are sent at the leverage asked for and the cache says what is confirmed
exactly if every change that `place_order` needs is accepted and `set_leverage` sets what is cached. -/
theorem faithful_iff (connected : Bool) (calls : List Call) :
    Along step Faithful { account := { connected := connected } } calls ↔
      Along step Confirms { account := { connected := connected } } calls := by
  refine along_congr Coherent (fun s call _ hfaithful => hfaithful.2) ?_ calls (fun symbol => rfl)
  rintro s (⟨symbol, leverage, accepted⟩ | ⟨args, accepted, replies⟩) h
  · exact faithful_setLeverage_iff h symbol leverage accepted
  · exact faithful_placeOrder_iff h args accepted replies

/-- The exchange refuses the leverage and takes the order, which is sent all the same. -/
theorem not_faithful_refused : ¬ Along step Faithful { account := { connected := true } }
    [.placeOrder { symbol := "BTC/USDT", side := "buy", quantity := 1, leverage := 10 } false
      fun _ => some { id := some "1", status := some "closed" }] := by
  rintro ⟨⟨hsends, -⟩, -⟩
  have hsent := hsends [.setLeverage 10 "BTC/USDT" false] _ _ [] rfl
  cases hsent

end System

end TradingSim.Bot.RealAccount
