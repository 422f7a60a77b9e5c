import TradingSim.Gateway.OpenOrders

/-!
# Clients in step with the books

What a handler sends tells of everything it did to the resting orders, if no order leaves the books
unannounced. Then each client's messages that are due have the last word on the orders they name,
and a client that has handled all its messages holds the resting orders.
-/

namespace TradingSim.Gateway

open Foundations
open Exchange (MarketView Numerics Order OrderRequest SimulatedExchange)
open Exchange.SimulatedExchange (Acknowledged Announced announced_cancelAllOrders
  announced_cancelOrder announced_submitOrder announced_tick flatMarket sound_init
  tells_cancelAllOrders tells_cancelOrder tells_submitOrder)

/-- Every exchange is acknowledged and stands under its own name, and the remembered orders are
accepted ones. -/
structure Server.Kept (x : Server) : Prop where
  exchanges : ∀ id e, x.exchanges.find? id = some e → id ≠ "" ∧ e.exchangeId = id ∧ e.Acknowledged
  remembered : ∀ key o, x.orderDedup.find? key = some o →
    ∃ e, x.exchanges.find? o.exchange = some e ∧ o.ref ∈ e.orders.accepted

/-- What a handler sends tells each client of all it did to the resting orders. -/
structure Server.Posts (x : Server) (handled : Server × List Dispatch) : Prop where
  kept : handled.1.Kept
  covers : ∀ c, Mirror.Covers Notice.changes (· ∈ x.pendingKeys) (· ∈ handled.1.pendingKeys)
    (handled.2.flatMap (·.noticesFor c))

variable {rt : Runtime} {m : MarketView} {x y : Server} {id : String} {e e' : SimulatedExchange}
  {told : List Ref} {r : Ref}

/-- The answer to the sender and the message to everybody else come to one message for each. -/
theorem noticesFor_tellAll (client c : ℕ) (notice : Notice) :
    (tellAll client notice).flatMap (·.noticesFor c) = [notice] := by
  by_cases h : client = c
  · simp [tellAll, Dispatch.noticesFor, h]
  · simp [tellAll, Dispatch.noticesFor, h]

namespace Server.Kept

theorem mem_pendingKeys (h : x.Kept) (key : OrderKey) :
    key ∈ x.pendingKeys ↔ ∃ e, x.exchanges.find? key.1 = some e ∧ key ∈ e.pendingKeys := by
  simp only [Server.pendingKeys, List.mem_flatMap, Dict.values, List.mem_map, Prod.exists,
    exists_eq_right, Dict.mem_entries_iff]
  constructor
  · rintro ⟨e, ⟨id, hfind⟩, hkey⟩
    obtain ⟨-, hid, hack⟩ := h.exchanges id e hfind
    obtain ⟨r, -, -, hr⟩ := (hack.mem_pendingKeys key).mp hkey
    have hname : key.1 = id := by rw [hr]; exact hid
    exact ⟨e, hname ▸ hfind, hkey⟩
  · rintro ⟨e, hfind, hkey⟩
    exact ⟨e, ⟨key.1, hfind⟩, hkey⟩

theorem orderWord_iff (h : x.Kept) (he : x.exchanges.find? id = some e) (hlive : e.orders.objects.Live r)
    (hr : r ∈ e.orders.accepted ∨ (e.orders.get r).status ≠ .pending) :
    (orderWord (e.orders.get r)).2 = true ↔ (orderWord (e.orders.get r)).1 ∈ x.pendingKeys := by
  obtain ⟨-, hid, hack⟩ := h.exchanges id e he
  have hname : (e.orders.get r).exchange = id := (hack.named r hlive).trans hid
  rw [h.mem_pendingKeys]
  simp only [orderWord, decide_eq_true_eq, hname, he, Option.some.injEq, exists_eq_left']
  rw [← hack.mem_pendingKeys_iff hlive hr, hname]

/-- A call that tells of what it did keeps the exchanges. -/
theorem put (h : x.Kept) (he : x.exchanges.find? id = some e) (hann : Announced told e e')
    (hputs : ∀ id', y.exchanges.find? id' = if id' = id then some e' else x.exchanges.find? id')
    (hremembered : ∀ key o, y.orderDedup.find? key = some o →
      x.orderDedup.find? key = some o ∨ o.exchange = id ∧ o.ref ∈ e'.orders.accepted) : y.Kept where
  exchanges id' e'' hfind := by
    rw [hputs] at hfind
    split at hfind
    · rename_i heq
      cases hfind
      obtain ⟨hne, hid, hack⟩ := h.exchanges id e he
      exact heq ▸ ⟨hne, hann.tells.exchangeId.trans hid, hann.acknowledged hack⟩
    · exact h.exchanges id' e'' hfind
  remembered key o hfind := by
    rw [hputs]
    rcases hremembered key o hfind with hold | ⟨hname, haccepted⟩
    · obtain ⟨e'', he'', haccepted⟩ := h.remembered key o hold
      split
      · rename_i heq
        rw [heq, he] at he''
        cases he''
        exact ⟨e', rfl, hann.tells.accepted o.ref haccepted⟩
      · exact ⟨e'', he'', haccepted⟩
    · rw [if_pos hname]
      exact ⟨e', rfl, haccepted⟩

/-- Such a call takes in and out of the books only what it tells of. -/
theorem mem_pendingKeys_put (h : x.Kept) (hy : y.Kept) (he : x.exchanges.find? id = some e)
    (hann : Announced told e e')
    (hputs : ∀ id', y.exchanges.find? id' = if id' = id then some e' else x.exchanges.find? id')
    {key : OrderKey} (hkey : ∀ r ∈ told, (orderWord (e'.orders.get r)).1 ≠ key) :
    key ∈ y.pendingKeys ↔ key ∈ x.pendingKeys := by
  rw [h.mem_pendingKeys, hy.mem_pendingKeys, hputs]
  split
  · rename_i heq
    obtain ⟨-, hid, hack⟩ := h.exchanges id e he
    have hack' := hann.acknowledged hack
    have hcongr : key ∈ e'.pendingKeys ↔ key ∈ e.pendingKeys := by
      refine hack.mem_pendingKeys_congr hack' hann.tells hann.evolves fun r hr hc => hkey r hr ?_
      rw [hc, ← hack'.named r (hann.live r hr)]
      rfl
    simp only [heq, he, Option.some.injEq, exists_eq_left', hcongr]
  · rfl

theorem ne_empty (h : x.Kept) {key : OrderKey} (hkey : key ∈ x.pendingKeys) : key.2 ≠ "" := by
  obtain ⟨e, he, hmem⟩ := (h.mem_pendingKeys key).mp hkey
  exact (h.exchanges key.1 e he).2.2.ne_empty hmem

/-- What a handler sends is enough if it names every order that the call tells of, and nothing but
orders that are accepted or done with. -/
theorem posts (h : x.Kept) (he : x.exchanges.find? id = some e) (hann : Announced told e e')
    (hputs : ∀ id', y.exchanges.find? id' = if id' = id then some e' else x.exchanges.find? id')
    (hremembered : ∀ key o, y.orderDedup.find? key = some o →
      x.orderDedup.find? key = some o ∨ o.exchange = id ∧ o.ref ∈ e'.orders.accepted)
    {sent : List Dispatch}
    (hnames : ∀ c, ∀ change ∈ (sent.flatMap (·.noticesFor c)).flatMap Notice.changes,
      ∃ r ∈ told, change = orderWord (e'.orders.get r))
    (htells : ∀ c, ∀ r ∈ told, (e'.orders.get r).id ≠ "" →
      orderWord (e'.orders.get r) ∈ (sent.flatMap (·.noticesFor c)).flatMap Notice.changes) :
    x.Posts (y, sent) := by
  have hy := h.put he hann hputs hremembered
  have he' : y.exchanges.find? id = some e' := by rw [hputs, if_pos rfl]
  refine ⟨hy, fun c => Mirror.covers_of_true (fun change hchange => ?_) fun key hkey => ?_⟩
  · obtain ⟨r, hr, rfl⟩ := hnames c change hchange
    exact hy.orderWord_iff he' (hann.live r hr) (hann.known r hr)
  · by_cases hempty : key.2 = ""
    · exact iff_of_false (fun hc => hy.ne_empty hc hempty) fun hc => h.ne_empty hc hempty
    · refine h.mem_pendingKeys_put hy he hann hputs fun r hr heq => ?_
      rw [← heq] at hempty
      exact hkey _ (htells c r hr hempty) heq

/-- A handler that changes nothing may send what is true. -/
theorem posts_true (h : x.Kept) {sent : List Dispatch}
    (htrue : ∀ c, ∀ change ∈ (sent.flatMap (·.noticesFor c)).flatMap Notice.changes,
      change.2 = true ↔ change.1 ∈ x.pendingKeys) : x.Posts (x, sent) :=
  ⟨h, fun c => Mirror.covers_of_true (htrue c) fun _ _ => Iff.rfl⟩

end Server.Kept

/-! ### The handlers -/

theorem changes_of_errors {sent : List Dispatch} {client : ℕ}
    (herrors : ∀ d ∈ sent, ∃ text, d = .send client (.error text)) (c : ℕ) :
    (sent.flatMap (·.noticesFor c)).flatMap Notice.changes = [] := by
  rw [List.flatMap_eq_nil_iff]
  intro notice hnotice
  obtain ⟨d, hd, hmem⟩ := List.mem_flatMap.mp hnotice
  obtain ⟨text, rfl⟩ := herrors d hd
  simp only [Dispatch.noticesFor] at hmem
  split at hmem
  · rw [List.mem_singleton.mp hmem]
    rfl
  · cases hmem

theorem Server.Kept.posts_errors (h : x.Kept) (client : ℕ) {sent : List Dispatch}
    (herrors : ∀ d ∈ sent, ∃ text, d = .send client (.error text)) : x.Posts (x, sent) := by
  refine h.posts_true fun c change hchange => ?_
  rw [changes_of_errors herrors c] at hchange
  cases hchange

theorem find?_putExchange (x : Server) (id id' : String) (e : SimulatedExchange) :
    (x.putExchange id e).exchanges.find? id' = if id' = id then some e else x.exchanges.find? id' :=
  Dict.find?_insert _ _ _ _

/-- A call that changes the books of an exchange, and a message to everybody of the orders that it
tells of. -/
theorem Server.Kept.posts_put (h : x.Kept) (he : x.exchanges.find? id = some e)
    (hann : Announced told e e') {sent : List Dispatch} (words : List (OrderKey × Bool))
    (hsent : ∀ c, (sent.flatMap (·.noticesFor c)).flatMap Notice.changes = words)
    (hnames : ∀ change ∈ words, ∃ r ∈ told, change = orderWord (e'.orders.get r))
    (htells : ∀ r ∈ told, (e'.orders.get r).id ≠ "" → orderWord (e'.orders.get r) ∈ words) :
    x.Posts (x.putExchange id e', sent) :=
  h.posts he hann (find?_putExchange x id · e') (fun _ _ hfind => Or.inl hfind)
    (fun c change hchange => hnames change (hsent c ▸ hchange))
    fun c r hr hid => hsent c ▸ htells r hr hid

theorem Server.Kept.posts_cancelOrder (h : x.Kept) (rt : Runtime) (client : ℕ)
    (data : Dict String Json) : x.Posts (x.handleCancelOrder rt client data) := by
  have hrefuse : ∀ text, x.Posts (x, [.send client (.error text)]) := by
    intro text
    refine h.posts_errors client fun d hd => ?_
    rw [List.mem_singleton.mp hd]
    exact ⟨text, rfl⟩
  have hraise : x.Posts (x, []) :=
    h.posts_errors client fun _ hd => absurd hd List.not_mem_nil
  unfold Server.handleCancelOrder
  split
  · exact hraise
  · rename_i exchangeId _
    split
    · exact hrefuse _
    · rename_i e he
      split
      · exact hrefuse _
      · split
        · rename_i orderId _
          have hvalid := (h.exchanges exchangeId e he).2.2.orders
          have hann := announced_cancelOrder hvalid orderId
          have hdone := (tells_cancelOrder hvalid orderId).2
          generalize e.cancelOrder orderId = cancelled at hann hdone ⊢
          obtain ⟨e', answer⟩ := cancelled
          cases answer with
          | none => exact hrefuse _
          | some r =>
            have hstatus : orderWord (e'.orders.get r) =
                (((e'.orders.get r).exchange, (e'.orders.get r).id), false) := by
              rw [orderWord, decide_eq_false (hdone r List.mem_cons_self).2]
            refine h.posts_put he hann (Notice.changes (.orderCancelled (e'.orders.get r)))
              (fun c => ?_) (fun change hchange => ⟨r, List.mem_cons_self, ?_⟩) fun r' hr' hid => ?_
            · rw [noticesFor_tellAll, List.flatMap_singleton]
            · simp only [Notice.changes] at hchange
              split at hchange
              · cases hchange
              · rw [List.mem_singleton.mp hchange, hstatus]
            · obtain rfl := List.mem_singleton.mp hr'
              simp only [Notice.changes]
              rw [if_neg hid, hstatus]
              exact List.mem_singleton_self _
        · split
          · exact hrefuse _
          · exact hraise
        · exact hrefuse _
  · exact hrefuse _

theorem Server.Kept.posts_cancelAllOrders (h : x.Kept) (rt : Runtime) (client : ℕ)
    (data : Dict String Json) : x.Posts (x.handleCancelAllOrders rt client data) := by
  have hrefuse : ∀ text, x.Posts (x, [.send client (.error text)]) := by
    intro text
    refine h.posts_errors client fun d hd => ?_
    rw [List.mem_singleton.mp hd]
    exact ⟨text, rfl⟩
  unfold Server.handleCancelAllOrders
  split
  · exact h.posts_errors client fun _ hd => absurd hd List.not_mem_nil
  · rename_i exchangeId _
    split
    · exact hrefuse _
    · rename_i e he
      have hack := (h.exchanges exchangeId e he).2.2
      have hsend : ∀ told e', Announced told e e' → e'.Concluded told →
          x.Posts (x.putExchange exchangeId e', tellAll client (.ordersCancelled e.exchangeId
            (told.map fun r => (e'.orders.get r).id))) := by
        intro told e' hann hdone
        have hword : ∀ r ∈ told,
            orderWord (e'.orders.get r) = ((e.exchangeId, (e'.orders.get r).id), false) := by
          intro r hr
          obtain ⟨hlive, hstatus⟩ := hdone r hr
          rw [orderWord, decide_eq_false hstatus, (hann.acknowledged hack).named r hlive,
            hann.tells.exchangeId]
        have hwords : Notice.changes (.ordersCancelled e.exchangeId
            (told.map fun r => (e'.orders.get r).id)) =
              told.map fun r => orderWord (e'.orders.get r) := by
          rw [Notice.changes, List.map_map]
          exact List.map_congr_left fun r hr => (hword r hr).symm
        refine h.posts_put he hann _ (fun c => ?_) (fun change hchange => ?_) fun r hr _ =>
          List.mem_map.mpr ⟨r, hr, rfl⟩
        · rw [noticesFor_tellAll, List.flatMap_singleton, hwords]
        · obtain ⟨r, hr, heq⟩ := List.mem_map.mp hchange
          exact ⟨r, hr, heq.symm⟩
      cases textArg (member data "symbol") with
      | none => exact hsend [] e (.refl hack.orders) fun _ hr => absurd hr List.not_mem_nil
      | some symbol =>
        exact hsend _ _ (announced_cancelAllOrders hack.orders symbol)
          (tells_cancelAllOrders hack.orders symbol).2
  · exact hrefuse _

theorem mem_orderChange {o : Order} {change : OrderKey × Bool} :
    change ∈ orderChange o ↔ (o.id ≠ "" ∧ o.exchange ≠ "") ∧ change = orderWord o := by
  unfold orderChange
  split
  · rename_i hempty
    exact iff_of_false List.not_mem_nil fun hc => not_or.mpr hc.1 hempty
  · rename_i hnamed
    rw [List.mem_singleton]
    exact (and_iff_right (not_or.mp hnamed)).symm

theorem Server.Kept.posts_orders (h : x.Kept) (he : x.exchanges.find? id = some e)
    (hann : Announced told e e')
    (hputs : ∀ id', y.exchanges.find? id' = if id' = id then some e' else x.exchanges.find? id')
    (hremembered : ∀ key o, y.orderDedup.find? key = some o →
      x.orderDedup.find? key = some o ∨ o.exchange = id ∧ o.ref ∈ e'.orders.accepted)
    {sent : List Dispatch} (hsent : ∀ c, (sent.flatMap (·.noticesFor c)).flatMap Notice.changes =
      told.flatMap fun r => orderChange (e'.orders.get r)) : x.Posts (y, sent) := by
  obtain ⟨hne, hid, hack⟩ := h.exchanges id e he
  refine h.posts he hann hputs hremembered (fun c change hchange => ?_) fun c r hr hempty => ?_
  · rw [hsent] at hchange
    obtain ⟨r, hr, hmem⟩ := List.mem_flatMap.mp hchange
    exact ⟨r, hr, (mem_orderChange.mp hmem).2⟩
  · rw [hsent, List.mem_flatMap]
    refine ⟨r, hr, mem_orderChange.mpr ⟨⟨hempty, ?_⟩, rfl⟩⟩
    rw [(hann.acknowledged hack).named r (hann.live r hr), hann.tells.exchangeId, hid]
    exact hne

theorem Server.Kept.posts_tick (h : x.Kept) (N : Numerics) (m : MarketView) (rate : Option ℚ)
    (exchangeId : String) (hspares : ∀ e ∈ x.exchanges.find? exchangeId,
      (e.checkStopLossTakeProfit N m).1.SparesSweeps N m) :
    x.Posts (x.processExchangeEvents N m rate exchangeId) := by
  unfold Server.processExchangeEvents
  cases he : x.exchanges.find? exchangeId with
  | none => exact h.posts_errors 0 fun _ hd => absurd hd List.not_mem_nil
  | some e =>
    have hann := announced_tick
      (h.exchanges exchangeId e he).2.2.orders (hspares e he)
    dsimp only at hann ⊢
    generalize e.checkStopLossTakeProfit N m = closed at hann ⊢
    generalize closed.1.checkAdvancedOrders N m = swept at hann ⊢
    have hsend : ∀ charged : SimulatedExchange, charged.exchangeId = swept.1.exchangeId →
        charged.orders = swept.1.orders → x.Posts (x.putExchange exchangeId charged,
          if (closed.2 ++ swept.2).map charged.orders.get = [] then []
          else [.broadcast none (.fillsBatch ((closed.2 ++ swept.2).map charged.orders.get))]) := by
      intro charged hid horders
      refine h.posts_orders he (hann.congr hid horders) (find?_putExchange x _ · _)
        (fun _ _ hfind => Or.inl hfind) fun c => ?_
      split
      · rename_i hnone
        rw [List.map_eq_nil_iff] at hnone
        rw [hnone]
        rfl
      · simp only [List.flatMap_singleton, Dispatch.noticesFor, Notice.changes, reduceCtorEq,
          if_false, List.flatMap_map]
    cases rate with
    | none => exact hsend _ rfl rfl
    | some rate => exact hsend _ rfl rfl

/-- A call goes to the exchange that the message names. -/
theorem find?_of_submissionOf {data : Dict String Json} {call : SubmitCall}
    (hcall : x.submissionOf rt data = some call) :
    x.exchanges.find? call.exchangeId = some call.exchange := by
  unfold Server.submissionOf at hcall
  split at hcall
  · obtain ⟨e, he, hcall⟩ := Option.bind_eq_some_iff.mp hcall
    split at hcall
    · cases hcall
    · split at hcall
      · cases hcall
      · split at hcall
        · split at hcall
          · cases hcall
          · cases hcall
            exact he
        · cases hcall
  · cases hcall

theorem announced_callSubmitOrder {data : Dict String Json} {call : SubmitCall}
    {result : SubmitResult} (hvalid : call.exchange.orders.Consistent)
    (hspares : x.SparesOrder rt m data) (hcall : x.submissionOf rt data = some call)
    (hcalled : callSubmitOrder rt m call.exchange data call.quantity (timeInForceOf rt data)
      call.expireTs = (e', result)) : match result with
    | .order r => Announced [r] call.exchange e' ∧ r ∈ e'.orders.accepted
    | _ => Announced [] call.exchange e' := by
  have hguard := hspares call hcall
  unfold callSubmitOrder at hcalled
  dsimp only at hcalled
  split at hcalled
  · obtain ⟨rfl, rfl⟩ := Prod.mk.inj hcalled
    exact .refl hvalid
  · obtain ⟨rfl, rfl⟩ := Prod.mk.inj hcalled
    exact .refl hvalid
  · rename_i side orderType hside htype
    obtain ⟨req, hreq, hfree⟩ := hguard side hside orderType htype
    rw [Option.mem_def.mp hreq] at hcalled
    simp only at hcalled
    have hann := announced_submitOrder hvalid hfree
    have hreturned := (tells_submitOrder hvalid hfree).2
    generalize call.exchange.submitOrder rt.numerics m req = submitted
      at hcalled hann hreturned
    obtain ⟨e'', answer⟩ := submitted
    cases answer with
    | none =>
      obtain ⟨rfl, rfl⟩ := Prod.mk.inj hcalled
      exact hann
    | some r =>
      obtain ⟨rfl, rfl⟩ := Prod.mk.inj hcalled
      exact ⟨hann, (hreturned r rfl).1⟩

theorem find?_remember {key : Option String} {o o' : OrderRef} {k : String}
    (hfind : (x.remember key o).orderDedup.find? k = some o') :
    x.orderDedup.find? k = some o' ∨ o' = o := by
  cases key with
  | none => exact Or.inl hfind
  | some k' =>
    have hinsert : ∀ {o'}, (x.orderDedup.insert k' o).find? k = some o' →
        x.orderDedup.find? k = some o' ∨ o' = o := by
      intro o' hfind
      rw [Dict.find?_insert] at hfind
      split at hfind
      · exact Or.inr (Option.some.inj hfind).symm
      · exact Or.inl hfind
    unfold Server.remember at hfind
    dsimp only at hfind
    split at hfind
    · exact hinsert hfind
    · split at hfind
      · rw [Dict.find?_erase] at hfind
        split at hfind
        · cases hfind
        · exact hinsert hfind
      · exact hinsert hfind

/-- An answer of the order handler with an order, for a client that is told. -/
theorem changes_fill (client c : ℕ) (o : OrderRef) (order : Order) :
    (([.send client (.fill o order false), .broadcast client (.fill o order false)].map
      Output.dispatch).flatMap (·.noticesFor c)).flatMap Notice.changes = orderChange order := by
  change ((tellAll client (.fill order)).flatMap (·.noticesFor c)).flatMap Notice.changes = _
  rw [noticesFor_tellAll, List.flatMap_singleton]
  rfl

theorem Server.Kept.posts_order (h : x.Kept) (client : ℕ) (data : Dict String Json)
    (hspares : x.SparesOrder rt m data) : x.Posts (x.handleOrder rt m client data) := by
  have herrors : ∀ {outputs : List Output},
      (∀ o ∈ outputs, ∃ text, o = .send client (.error text)) →
      ∀ d ∈ outputs.map Output.dispatch, ∃ text, d = .send client (.error text) := by
    intro outputs houtputs d hd
    obtain ⟨o, ho, rfl⟩ := List.mem_map.mp hd
    obtain ⟨text, rfl⟩ := houtputs o ho
    exact ⟨text, rfl⟩
  have hhandled := orderHandled_handleOrderInner rt m client data x
  unfold Server.handleOrder
  dsimp only
  generalize ((handleOrderInner rt m client data).finish x).2 = handled at hhandled ⊢
  cases hhandled with
  | answered outputs houtputs => exact h.posts_errors client (herrors houtputs)
  | repeated key o hfind =>
    obtain ⟨e, he, haccepted⟩ := h.remembered key o hfind
    have horder : x.order o = e.orders.get o.ref := by
      rw [Server.order, he]
      rfl
    have hlive := ((h.exchanges o.exchange e he).2.2.orders.acceptedIssued o.ref haccepted).1
    refine h.posts_true fun c change hchange => ?_
    have hword : change ∈ orderChange (e.orders.get o.ref) := by
      rw [← horder]
      obtain ⟨notice, hnotice, hchange⟩ := List.mem_flatMap.mp hchange
      simp only [List.map_cons, List.map_nil, List.flatMap_singleton, Output.dispatch,
        Dispatch.noticesFor] at hnotice
      split at hnotice
      · rw [List.mem_singleton.mp hnotice] at hchange
        exact hchange
      · cases hnotice
    rw [(mem_orderChange.mp hword).2]
    exact h.orderWord_iff he hlive (Or.inl haccepted)
  | failed call e' result outputs hcall hcalled hfailed houtputs =>
    have he := find?_of_submissionOf hcall
    have hann : Announced [] call.exchange e' := by
      have hall := announced_callSubmitOrder
        (h.exchanges call.exchangeId call.exchange he).2.2.orders hspares hcall hcalled
      cases result with
      | order r => exact absurd rfl (hfailed r)
      | invalid error => exact hall
      | raised => exact hall
    exact h.posts_put he hann [] (changes_of_errors (herrors houtputs))
      (fun _ hchange => absurd hchange List.not_mem_nil) fun _ hr => absurd hr List.not_mem_nil
  | placed call e' r key clientOrderId y hcall hcalled hy =>
    have he := find?_of_submissionOf hcall
    obtain ⟨hann, haccepted⟩ : Announced [r] call.exchange e' ∧ r ∈ e'.orders.accepted :=
      announced_callSubmitOrder (h.exchanges call.exchangeId call.exchange he).2.2.orders hspares
        hcall hcalled
    have hlabel := hann.relabel List.mem_cons_self clientOrderId
    have hputs : ∀ id, y.exchanges.find? id = if id = call.exchangeId then
        some (e'.withOrders (e'.orders.update r fun o => { o with clientOrderId := clientOrderId }))
        else x.exchanges.find? id := by
      intro id
      rw [hy, exchanges_remember, Server.label]
      simp only [Server.noteSubmitted, find?_putExchange, if_true]
      split
      · rfl
      · rfl
    have horder : y.order ⟨call.exchangeId, r⟩ =
        (e'.orders.update r fun o => { o with clientOrderId := clientOrderId }).get r := by
      rw [Server.order, hputs, if_pos rfl]
      rfl
    refine h.posts_orders he hlabel hputs (fun k o hfind => ?_) fun c => ?_
    · rw [hy] at hfind
      rcases find?_remember hfind with hold | rfl
      · rw [Server.label] at hold
        split at hold
        · exact Or.inl hold
        · exact Or.inl hold
      · exact Or.inr ⟨rfl, haccepted⟩
    · rw [changes_fill, horder, List.flatMap_singleton]
      rfl

/-! ### Runs -/

/-- All that a message says of the open orders is true. -/
def Server.Vouches (x : Server) (notice : Notice) : Prop :=
  ∀ change ∈ notice.changes, (change.2 = true ↔ change.1 ∈ x.pendingKeys)

instance (x : Server) (notice : Notice) : Decidable (x.Vouches notice) :=
  inferInstanceAs (Decidable (∀ change ∈ notice.changes, (change.2 = true ↔ _ ∈ x.pendingKeys)))

namespace OrderTraffic

/-- No order leaves the books unannounced: submissions are of their types, an order fills only if no other
one of its group rests, no slice uses up an iceberg. And no client gets a message that an earlier one
contradicts or that is no longer true. -/
def Guarded (rt : Runtime) (t : OrderTraffic) : TrafficEvent → Prop
  | .order _ m data => t.server.SparesOrder rt m data
  | .tick exchangeId m _ => ∀ e ∈ t.server.exchanges.find? exchangeId,
      (e.checkStopLossTakeProfit rt.numerics m).1.SparesSweeps rt.numerics m
  | .process c i => ∀ view ∈ t.clients.find? c, view.InTurn Notice.changes i
  | .joins _ other i => ∀ notice ∈ t.dueAt other i, t.server.Vouches notice
  | _ => True

instance (rt : Runtime) (t : OrderTraffic) (event : TrafficEvent) : Decidable (t.Guarded rt event) :=
  match event with
  | .order _ m data => inferInstanceAs (Decidable (t.server.SparesOrder rt m data))
  | .tick exchangeId m _ => inferInstanceAs (Decidable (∀ e ∈ t.server.exchanges.find? exchangeId,
      SimulatedExchange.SparesSweeps rt.numerics m _))
  | .process c i => inferInstanceAs (Decidable (∀ view ∈ t.clients.find? c,
      Mirror.InTurn Notice.changes view i))
  | .joins _ other i => inferInstanceAs (Decidable (∀ notice ∈ t.dueAt other i,
      t.server.Vouches notice))
  | .connect _ | .disconnect _ | .snapshot _ | .cancelOrder _ _ | .cancelAllOrders _ _ => .isTrue trivial

/-- The exchanges are kept, and every client follows the resting orders. -/
structure Sound (t : OrderTraffic) : Prop where
  server : t.server.Kept
  clients : ∀ c view, t.clients.find? c = some view →
    view.Follows Notice.changes (· ∈ t.server.pendingKeys)

variable {t : OrderTraffic} {event : TrafficEvent}

/-- A client of a sound state that has everything holds the resting orders. -/
theorem Sound.inStep (h : t.Sound) : t.InStep :=
  fun c view hview hsynced hdue key => (h.clients c view hview).mem_iff hsynced hdue key

/-- Sending what a handler led to. -/
theorem Sound.settle (h : t.Sound) {handled : Server × List Dispatch}
    (hposts : t.server.Posts handled) : (t.settle handled).Sound where
  server := hposts.kept
  clients c view hview := by
    rw [OrderTraffic.settle, Dict.find?_mapValues] at hview
    obtain ⟨old, hold, rfl⟩ := Option.map_eq_some_iff.mp hview
    exact (h.clients c old hold).post (hposts.covers c)

theorem Sound.updateClient (h : t.Sound) {c : ℕ} {f : Mirror OrderKey Notice → Mirror OrderKey Notice}
    (hf : ∀ view, t.clients.find? c = some view → view.Follows Notice.changes (· ∈ t.server.pendingKeys) →
        (f view).Follows Notice.changes (· ∈ t.server.pendingKeys)) : (t.updateClient c f).Sound := by
  unfold OrderTraffic.updateClient
  cases hfind : t.clients.find? c with
  | none => exact h
  | some view =>
    refine ⟨h.server, fun c' view' hview' => ?_⟩
    rw [Dict.find?_insert] at hview'
    split at hview'
    · cases hview'
      exact hf view hfind (h.clients c view hfind)
    · exact h.clients c' view' hview'

/-- A step has the server handle something and sends what that leads to, or it leaves the server
alone. -/
theorem Sound.step_cases (h : t.Sound) (hguard : t.Guarded rt event) :
    (∃ handled, t.server.Posts handled ∧ t.step rt event = t.settle handled) ∨
      (t.step rt event).server = t.server ∧ (t.step rt event).Sound := by
  have hupdate : ∀ c f, (t.updateClient c f).server = t.server := by
    intro c f
    unfold OrderTraffic.updateClient
    split <;> rfl
  cases event with
  | connect c =>
    refine Or.inr ⟨rfl, h.server, fun c' view hview => ?_⟩
    change (t.clients.insert c {}).find? c' = some view at hview
    rw [Dict.find?_insert] at hview
    split at hview
    · cases hview
      exact .new
    · exact h.clients c' view hview
  | disconnect c =>
    refine Or.inr ⟨rfl, h.server, fun c' view hview => ?_⟩
    change (t.clients.erase c).find? c' = some view at hview
    rw [Dict.find?_erase] at hview
    split at hview
    · cases hview
    · exact h.clients c' view hview
  | snapshot c => exact Or.inr ⟨hupdate _ _, h.updateClient fun _ _ hview => hview.sync fun _ => Iff.rfl⟩
  | order c m data => exact Or.inl ⟨_, h.server.posts_order c data hguard, rfl⟩
  | cancelOrder c data => exact Or.inl ⟨_, h.server.posts_cancelOrder rt c data, rfl⟩
  | cancelAllOrders c data => exact Or.inl ⟨_, h.server.posts_cancelAllOrders rt c data, rfl⟩
  | tick exchangeId m rate =>
    exact Or.inl ⟨_, h.server.posts_tick rt.numerics m rate exchangeId hguard, rfl⟩
  | process c i => exact Or.inr ⟨hupdate _ _, h.updateClient fun view hfind hview =>
      hview.take mem_handleExchangeMessage (hguard view hfind)⟩
  | joins c other i =>
    refine Or.inr ⟨hupdate _ _, h.updateClient fun view _ hview => hview.post ?_⟩
    refine Mirror.covers_of_true (fun change hchange => ?_) fun _ _ => Iff.rfl
    obtain ⟨notice, hnotice, hmem⟩ := List.mem_flatMap.mp hchange
    exact hguard notice (Option.mem_toList.mp hnotice) change hmem

theorem Sound.step (h : t.Sound) (hguard : t.Guarded rt event) : (t.step rt event).Sound := by
  rcases h.step_cases hguard with ⟨handled, hposts, heq⟩ | ⟨-, hsound⟩
  · rw [heq]
    exact h.settle hposts
  · exact hsound

/-- In a guarded step every order that leaves the books is announced. -/
theorem Sound.announces (h : t.Sound) (hguard : t.Guarded rt event) : t.Announces rt event := by
  intro key hbefore hafter c view hview
  rcases h.step_cases hguard with ⟨handled, hposts, heq⟩ | ⟨hserver, -⟩
  · rw [heq] at hafter hview
    rw [OrderTraffic.settle, Dict.find?_mapValues] at hview
    obtain ⟨old, -, rfl⟩ := Option.map_eq_some_iff.mp hview
    obtain ⟨htrue, hrest⟩ := hposts.covers c key
    cases hword : lastWord ((handled.2.flatMap (·.noticesFor c)).flatMap Notice.changes) key with
    | none => exact absurd ((hrest hword).mpr hbefore) hafter
    | some b =>
      have hfalse : b = false := by
        rw [← Bool.not_eq_true]
        exact fun hb => hafter ((htrue b hword).mp hb)
      obtain ⟨notice, hnotice, hchange⟩ := List.mem_flatMap.mp (mem_of_lastWord hword)
      exact ⟨notice, List.mem_append_right _ hnotice, hfalse ▸ hchange⟩
  · rw [hserver] at hafter
    exact absurd hbefore hafter

/-- The server when it starts, with no client. -/
def start (exchanges : Dict String SimulatedExchange) : OrderTraffic where
  server := { exchanges := exchanges }

/-- Exchanges without orders, each under its own name. -/
def Opens (exchanges : Dict String SimulatedExchange) : Prop :=
  ∀ id e, exchanges.find? id = some e → id ≠ "" ∧ e.exchangeId = id ∧ e.orders = {}

theorem sound_start {exchanges : Dict String SimulatedExchange} (h : Opens exchanges) :
    (start exchanges).Sound where
  server := by
    refine ⟨fun id e he => ?_, fun _ _ hfind => by cases hfind⟩
    obtain ⟨hne, hid, horders⟩ := h id e he
    refine ⟨hne, hid, ?_, fun r hr => ?_, fun book k r hfind => ?_⟩
    · rw [horders]
      exact (sound_init id 0 0 0 0 "").orders
    · rw [horders] at hr
      exact absurd hr (Nat.not_lt_zero r)
    · rw [horders] at hfind
      cases hfind
  clients _ _ hview := by cases hview

/-- An order to buy at a lower price, in a group or in none. -/
def limitMessage (price : ℤ) (group : Json) : Dict String Json := Dict.ofList Prod.fst Prod.snd [
  ("type", .text "order"), ("exchange", .text "binance"), ("symbol", .text "BTC"),
  ("side", .text "BUY"), ("order_type", .text "LIMIT"), ("price", .int price),
  ("quantity", .int 1), ("oco_group_id", group)]

/-- A client places two orders, and the first one fills. It handles every message at once. -/
def twoOrders (group : Json) : List TrafficEvent := [.connect 0, .snapshot 0,
  .order 0 (flatMarket 100) (limitMessage 90 group), .process 0 0,
  .order 0 (flatMarket 100) (limitMessage 80 group), .process 0 0,
  .tick "binance" (flatMarket 85) none, .process 0 0]

/-- Along a guarded run every order that leaves the books is announced under its own id, and every
client that has got a snapshot and all messages holds the resting orders. -/
theorem clients_inStep {exchanges : Dict String SimulatedExchange} (hopens : Opens exchanges)
    {events : List TrafficEvent}
    (hguarded : Along (OrderTraffic.step rt) (Guarded rt) (start exchanges) events) :
    Along (OrderTraffic.step rt) (fun t event => t.InStep ∧ t.Announces rt event) (start exchanges)
        events ∧ (run (OrderTraffic.step rt) (start exchanges) events).InStep :=
  ⟨along_imp Sound (fun _ _ => Sound.step) (fun _ _ h hguard => ⟨h.inStep, h.announces hguard⟩)
      (sound_start hopens) hguarded,
    (run_invariant_of_along Sound (fun _ _ => Sound.step) (sound_start hopens) hguarded).inStep⟩

theorem opens_oneExchange : Opens oneExchange := by
  intro id e he
  rw [oneExchange, Dict.find?_insert] at he
  split at he
  · rename_i heq
    cases he
    exact ⟨by rw [heq]; decide, heq.symm, rfl⟩
  · cases he

theorem clients_inStep_twoOrders :
    Along (OrderTraffic.step typedRuntime) (fun t event => t.InStep ∧ t.Announces typedRuntime event)
        (start oneExchange) (twoOrders .null) ∧
      (run (OrderTraffic.step typedRuntime) (start oneExchange) (twoOrders .null)).InStep :=
  clients_inStep opens_oneExchange (by decide +kernel)

/-- If the two orders are in one group, the other one is cancelled and the client still holds it. -/
theorem not_inStep_group : ¬ (run (OrderTraffic.step typedRuntime) (start oneExchange)
    (twoOrders (.text "g"))).InStep := by
  intro h
  have hclient : ((run (OrderTraffic.step typedRuntime) (start oneExchange)
      (twoOrders (.text "g"))).clients.find? 0).map (fun view =>
        (view.held, view.synced, view.due.length)) = some ([("binance", "00000001")], true, 0) := by
    decide +kernel
  have hserver : (run (OrderTraffic.step typedRuntime) (start oneExchange)
      (twoOrders (.text "g"))).server.pendingKeys = [] := by
    decide +kernel
  obtain ⟨view, hview, heq⟩ := Option.map_eq_some_iff.mp hclient
  simp only [Prod.mk.injEq, List.length_eq_zero_iff] at heq
  obtain ⟨hheld, hsynced, hdue⟩ := heq
  have hiff := h 0 view hview hsynced hdue ("binance", "00000001")
  rw [hheld, hserver] at hiff
  exact List.not_mem_nil (hiff.mp List.mem_cons_self)

end OrderTraffic

end TradingSim.Gateway
