import TradingSim.Foundations.Dict
import TradingSim.Foundations.Run

/-!
# Replies to the simulator adapter

The adapter files the future of a request under a key: the `client_order_id` of an order, the order
id of a cancel. A fill or a cancellation is matched by its ids; so are those of other clients, which
the server broadcasts. An error carries no id and is matched to the oldest request on file. A request
that has waited for ten seconds is taken off the file, while its answer may still be on the way.
-/

namespace TradingSim.Gateway

open Foundations

/-- A request of the adapter. -/
inductive AdapterRequest
  | order (clientOrderId : String)
  | cancel (orderId : String)
  deriving DecidableEq

/-- The key a request is filed under. -/
def AdapterRequest.key : AdapterRequest → String
  | .order clientOrderId => clientOrderId
  | .cancel orderId => orderId

/-- The order of a `fill` message or of an `order_cancelled` message. -/
structure OrderNotice where
  cancelled : Bool
  clientOrderId : Option String
  orderId : String
  deriving DecidableEq

/-- What the server sends the adapter about orders. -/
inductive AdapterReply
  | order (notice : OrderNotice)
  | error
  deriving DecidableEq

/-- A message on its way to the adapter. `answers` is bookkeeping: the request it answers; the
notices of other clients answer none. -/
structure AdapterMessage where
  reply : AdapterReply
  answers : Option ℕ
  deriving DecidableEq

/-- What has become of the future of a request. -/
inductive FutureState
  | waiting
  | answered (message : AdapterMessage)
  | lost
  /-- Cancelled by its timeout; the call has not gone on yet. -/
  | expired
  | timedOut
  deriving DecidableEq

/-- A call of `place_order` or `cancel_order`. -/
structure AdapterCall where
  request : AdapterRequest
  future : FutureState := .waiting
  deriving DecidableEq

/-- What `place_order` returns. -/
def AdapterCall.placedOrder (call : AdapterCall) : Option OrderNotice :=
  match call.future with
  | .answered ⟨.order notice, _⟩ => if notice.cancelled then none else some notice
  | _ => none

/-- A call is open until its future was resolved or its entries were removed. -/
def AdapterCall.isOpen (call : AdapterCall) : Bool :=
  call.future = .waiting ∨ call.future = .expired

/-- An adapter and its connection to the server. Calls are numbered, and a future is the number of
its call. -/
structure AdapterConnection where
  connected : Bool := true
  calls : List AdapterCall := []
  pendingOrders : Dict String ℕ := Dict.empty
  requestOrder : List String := []
  queue : List ℕ := []
  inbox : List AdapterMessage := []

/-- How the server answers a request, with the ids of the order. -/
inductive AdapterAnswer
  | executed (orderId : String) (clientOrderId : Option String)
  | refused
  deriving DecidableEq

/-- What can happen on the connection. -/
inductive AdapterEvent
  | request (r : AdapterRequest)
  /-- A request whose frame cannot be sent any more. -/
  | unsent (r : AdapterRequest)
  | process (answer : AdapterAnswer)
  | broadcast (notice : OrderNotice)
  | deliver
  | expire (n : ℕ)
  | cleanUp (n : ℕ)
  | lose
  deriving DecidableEq

/-- The reply to a request carries the id that the request names. -/
def AdapterRequest.replyTo (r : AdapterRequest) : AdapterAnswer → AdapterReply
  | .executed orderId clientOrderId =>
    match r with
    | .order key => .order { cancelled := false, clientOrderId := some key, orderId := orderId }
    | .cancel key => .order { cancelled := true, clientOrderId := clientOrderId, orderId := key }
  | .refused => .error

namespace AdapterConnection

/-- The future of a call is waiting. -/
def Waiting (x : AdapterConnection) (n : ℕ) : Prop :=
  (x.calls[n]?).map AdapterCall.future = some .waiting

instance (x : AdapterConnection) : DecidablePred x.Waiting := fun _ =>
  inferInstanceAs (Decidable (_ = _))

/-- Set what has become of a future. -/
def setFuture (x : AdapterConnection) (n : ℕ) (future : FutureState) : AdapterConnection :=
  { x with calls := x.calls.modify n fun call => { call with future := future } }

def popPending (x : AdapterConnection) (key : String) : Option ℕ × AdapterConnection :=
  match x.pendingOrders.find? key with
  | none => (none, x)
  | some n =>
    (some n,
      { x with
        pendingOrders := x.pendingOrders.erase key
        requestOrder := x.requestOrder.erase key })

/-- Take out the future a message is matched to: by `client_order_id`, else by order id; for an
error the oldest one. -/
def takeFuture (x : AdapterConnection) : AdapterReply → Option ℕ × AdapterConnection
  | .order notice =>
    let (found, y) := match notice.clientOrderId with
      | none => (none, x)
      | some key => x.popPending key
    match found with
    | some n => (some n, y)
    | none => y.popPending notice.orderId
  | .error =>
    match x.requestOrder with
    | [] => (none, x)
    | key :: _ => x.popPending key

/-- What `_recv_loop` does with a message about orders. -/
def receive (x : AdapterConnection) (message : AdapterMessage) : AdapterConnection :=
  match x.takeFuture message.reply with
  | (some n, y) => if y.Waiting n then y.setFuture n (.answered message) else y
  | (none, y) => y

/-- File a request and hand it to the socket. -/
def file (x : AdapterConnection) (r : AdapterRequest) : AdapterConnection :=
  { x with
    calls := x.calls ++ [{ request := r }]
    pendingOrders := x.pendingOrders.insert r.key x.calls.length
    requestOrder := x.requestOrder ++ [r.key]
    queue := x.queue ++ [x.calls.length] }

/-- A request whose frame cannot be sent is filed and removed at once. -/
def fileUnsent (x : AdapterConnection) (r : AdapterRequest) : AdapterConnection :=
  { x with
    calls := x.calls ++ [{ request := r, future := .lost }]
    pendingOrders := (x.pendingOrders.insert r.key x.calls.length).erase r.key
    requestOrder := (x.requestOrder ++ [r.key]).erase r.key }

/-- The server answers the next request. -/
def process (x : AdapterConnection) (answer : AdapterAnswer) : AdapterConnection :=
  match x.queue with
  | [] => x
  | n :: rest =>
    match x.calls[n]? with
    | none => x
    | some call =>
      { x with
        queue := rest
        inbox := x.inbox ++ [{ reply := call.request.replyTo answer, answers := some n }] }

/-- The receive loop ends: the futures on file are resolved with nothing. -/
def close (x : AdapterConnection) : AdapterConnection :=
  { x with
    connected := false
    calls := x.calls.zipIdx.map fun (call, n) =>
      if n ∈ x.pendingOrders.values ∧ call.future = .waiting then { call with future := .lost }
      else call
    pendingOrders := Dict.empty
    requestOrder := [] }

/-- One event. Without a connection requests are refused and nothing arrives. -/
def step (x : AdapterConnection) : AdapterEvent → AdapterConnection
  | .request r => if x.connected then x.file r else x
  | .unsent r => if x.connected then x.fileUnsent r else x
  | .process answer => x.process answer
  | .broadcast notice => { x with inbox := x.inbox ++ [{ reply := .order notice, answers := none }] }
  | .deliver =>
    if x.connected then
      match x.inbox with
      | [] => x
      | message :: rest => { x with inbox := rest }.receive message
    else x
  | .expire n => if x.Waiting n then x.setFuture n .expired else x
  | .cleanUp n =>
    match x.calls[n]? with
    | some ⟨r, .expired⟩ => ((x.setFuture n .timedOut).popPending r.key).2
    | _ => x
  | .lose => if x.connected then x.close else x

/-- The requests whose answers are still to come, in the order in which they will come. -/
def awaited (x : AdapterConnection) : List ℕ := x.inbox.filterMap AdapterMessage.answers ++ x.queue

/-- The future that a message is matched to. -/
def candidate (x : AdapterConnection) : AdapterReply → Option ℕ
  | .order notice =>
    (notice.clientOrderId.bind x.pendingOrders.find?).or (x.pendingOrders.find? notice.orderId)
  | .error => x.requestOrder.head?.bind x.pendingOrders.find?

/-- What holds of a connection at any time, as long as no key is used twice at once. -/
structure Aligned (x : AdapterConnection) : Prop where
  filed : ∀ k n, x.pendingOrders.find? k = some n →
    ∃ call, x.calls[n]? = some call ∧ call.request.key = k ∧ call.isOpen = true
  listed : ∀ k, k ∈ x.requestOrder ↔ (x.pendingOrders.find? k).isSome
  ordered : x.requestOrder.Pairwise fun k k' => ∀ n n', x.pendingOrders.find? k = some n →
    x.pendingOrders.find? k' = some n' → n < n'
  distinct : ∀ (n n' : ℕ) call call', x.calls[n]? = some call → x.calls[n']? = some call' →
    call.isOpen = true → call'.isOpen = true → call.request.key = call'.request.key → n = n'
  waits : ∀ (n : ℕ) call, x.calls[n]? = some call → call.future = .waiting →
    x.pendingOrders.find? call.request.key = some n
  sorted : x.awaited.Pairwise (· < ·)
  issued : ∀ n ∈ x.awaited, n < x.calls.length
  fits : ∀ message ∈ x.inbox, ∀ n, message.answers = some n →
    ∃ call, x.calls[n]? = some call ∧ ∃ answer, message.reply = call.request.replyTo answer
  addressed : ∀ message ∈ x.inbox, message.reply = .error → message.answers.isSome
  truthful : ∀ (n : ℕ) call message, x.calls[n]? = some call → call.future = .answered message →
    message.answers = some n ∧ ∃ answer, message.reply = call.request.replyTo answer

/-- Every waiting request is still to be answered. -/
def Due (x : AdapterConnection) : Prop := ∀ n, x.Waiting n → n ∈ x.awaited

variable {x : AdapterConnection}

variable {rest : List AdapterMessage} {message : AdapterMessage} {future : FutureState} {n : ℕ}

theorem waiting_iff : x.Waiting n ↔ ∃ call, x.calls[n]? = some call ∧ call.future = .waiting := by
  rw [Waiting, Option.map_eq_some_iff]

theorem getElem?_setFuture (n i : ℕ) (future : FutureState) : (x.setFuture n future).calls[i]? =
      (x.calls[i]?).map fun call => if n = i then { call with future := future } else call :=
  List.getElem?_modify ..

variable {call : AdapterCall}

theorem call_setFuture {n i : ℕ} (h : (x.setFuture n future).calls[i]? = some call) :
    ∃ before, x.calls[i]? = some before ∧ call.request = before.request ∧
      call.future = if n = i then future else before.future := by
  rw [getElem?_setFuture, Option.map_eq_some_iff] at h
  obtain ⟨before, hbefore, rfl⟩ := h
  refine ⟨before, hbefore, ?_⟩
  split
  · exact ⟨rfl, rfl⟩
  · exact ⟨rfl, rfl⟩

/-- Remove the entries under a key. -/
def remove (x : AdapterConnection) (key : String) : AdapterConnection :=
  { x with
    pendingOrders := x.pendingOrders.erase key
    requestOrder := x.requestOrder.erase key }

/-- What is taken out is the candidate, with the entries under its key. -/
theorem takeFuture_cases (x : AdapterConnection) (reply : AdapterReply) :
    (x.candidate reply = none ∧ x.takeFuture reply = (none, x)) ∨
      ∃ k n, x.pendingOrders.find? k = some n ∧ x.candidate reply = some n ∧
        x.takeFuture reply = (some n, x.remove k) := by
  have hpop : ∀ k, (x.pendingOrders.find? k = none ∧ x.popPending k = (none, x)) ∨
      ∃ n, x.pendingOrders.find? k = some n ∧ x.popPending k = (some n, x.remove k) := by
    intro k
    unfold popPending
    cases hfind : x.pendingOrders.find? k with
    | none => exact Or.inl ⟨rfl, rfl⟩
    | some n => exact Or.inr ⟨n, rfl, rfl⟩
  cases reply with
  | order notice =>
    obtain ⟨cancelled, clientOrderId, orderId⟩ := notice
    cases clientOrderId with
    | none =>
      obtain ⟨hnone, heq⟩ | ⟨n, hfind, heq⟩ := hpop orderId
      · exact Or.inl ⟨hnone, heq⟩
      · exact Or.inr ⟨orderId, n, hfind, hfind, heq⟩
    | some key =>
      obtain ⟨hnone, heq⟩ | ⟨n, hfind, heq⟩ := hpop key
      · obtain ⟨hnone', heq'⟩ | ⟨n, hfind', heq'⟩ := hpop orderId
        · left
          simp [candidate, takeFuture, hnone, hnone', heq, heq']
        · right
          exact ⟨orderId, n, hfind', by simp [candidate, hnone, hfind'],
            by simp [takeFuture, heq, heq']⟩
      · right
        exact ⟨key, n, hfind, by simp [candidate, hfind], by simp [takeFuture, heq]⟩
  | error =>
    cases hlist : x.requestOrder with
    | nil =>
      left
      simp [candidate, takeFuture, hlist]
    | cons k rest =>
      obtain ⟨hnone, heq⟩ | ⟨n, hfind, heq⟩ := hpop k
      · left
        simp [candidate, takeFuture, hlist, hnone, heq]
      · right
        exact ⟨k, n, hfind, by simp [candidate, hlist, hfind], by simp [takeFuture, hlist, heq]⟩

/-- No open call has a key. -/
def Fresh (x : AdapterConnection) (key : String) : Prop :=
  ∀ call ∈ x.calls, call.isOpen = true → call.request.key ≠ key

instance (x : AdapterConnection) (key : String) : Decidable (x.Fresh key) :=
  inferInstanceAs (Decidable (∀ call ∈ x.calls, call.isOpen = true → call.request.key ≠ key))

variable {r : AdapterRequest} {e : AdapterEvent} {notice : OrderNotice} {key : String}

/-- Nothing is on file under a fresh key. -/
theorem Aligned.find?_eq_none (h : x.Aligned) (hfresh : x.Fresh key) : x.pendingOrders.find? key = none := by
  rw [Option.eq_none_iff_forall_ne_some]
  intro n hfind
  obtain ⟨call, hcall, hkey, hopen⟩ := h.filed key n hfind
  exact hfresh call (List.mem_of_getElem? hcall) hopen hkey

theorem Aligned.not_listed (h : x.Aligned) (hfresh : x.Fresh key) : key ∉ x.requestOrder := by
  rw [h.listed, h.find?_eq_none hfresh]
  exact Bool.false_ne_true

theorem call_append {call new : AdapterCall} (h : (x.calls ++ [new])[n]? = some call) :
    x.calls[n]? = some call ∨ (n = x.calls.length ∧ call = new) := by
  rcases Nat.lt_trichotomy n x.calls.length with hlt | heq | hgt
  · left
    rwa [List.getElem?_append_left hlt] at h
  · right
    rw [heq, List.getElem?_concat_length, Option.some_inj] at h
    exact ⟨heq, h.symm⟩
  · rw [List.getElem?_eq_none] at h
    · cases h
    · rw [List.length_append, List.length_singleton]
      exact hgt

theorem getElem?_append_of_some {calls : List AdapterCall} {call new : AdapterCall}
    (h : calls[n]? = some call) : (calls ++ [new])[n]? = some call := by
  obtain ⟨hlt, -⟩ := List.getElem?_eq_some_iff.mp h
  rw [List.getElem?_append_left hlt, h]

/-- Two calls with one key, of which one is new and the key is fresh. -/
theorem Aligned.distinct_append (h : x.Aligned) (new : AdapterCall) (hfresh : x.Fresh new.request.key)
    (n n' : ℕ) (call call' : AdapterCall) (hcall : (x.calls ++ [new])[n]? = some call)
    (hcall' : (x.calls ++ [new])[n']? = some call') (hopen : call.isOpen = true)
    (hopen' : call'.isOpen = true) (hkey : call.request.key = call'.request.key) : n = n' := by
  rcases call_append hcall with hold | ⟨rfl, rfl⟩
  · rcases call_append hcall' with hold' | ⟨rfl, rfl⟩
    · exact h.distinct n n' call call' hold hold' hopen hopen' hkey
    · exact absurd hkey (hfresh call (List.mem_of_getElem? hold) hopen)
  · rcases call_append hcall' with hold' | ⟨rfl, -⟩
    · exact absurd hkey.symm (hfresh call' (List.mem_of_getElem? hold') hopen')
    · rfl

theorem Aligned.file (h : x.Aligned) (hfresh : x.Fresh r.key) : (x.file r).Aligned := by
  have hunlisted := h.not_listed hfresh
  have hother : ∀ k ∈ x.requestOrder,
      (x.pendingOrders.insert r.key x.calls.length).find? k = x.pendingOrders.find? k := by
    intro k hk
    have hne : k ≠ r.key := fun heq => hunlisted (heq ▸ hk)
    exact Dict.find?_insert_of_ne _ hne _
  have hawaited : (x.file r).awaited = x.awaited ++ [x.calls.length] :=
    (List.append_assoc ..).symm
  refine ⟨?_, ?_, ?_, ?_, ?_, ?_, ?_, ?_, h.addressed, ?_⟩
  · intro k n hfind
    change (x.pendingOrders.insert r.key x.calls.length).find? k = some n at hfind
    rw [Dict.find?_insert] at hfind
    split at hfind
    · rename_i hk
      cases hfind
      exact ⟨{ request := r }, List.getElem?_concat_length, hk.symm, rfl⟩
    · obtain ⟨call, hcall, hkey, hopen⟩ := h.filed k n hfind
      exact ⟨call, getElem?_append_of_some hcall, hkey, hopen⟩
  · intro k
    change k ∈ x.requestOrder ++ [r.key] ↔
      ((x.pendingOrders.insert r.key x.calls.length).find? k).isSome
    rw [List.mem_append, List.mem_singleton, Dict.find?_insert]
    by_cases hk : k = r.key
    · simp [hk]
    · simp [hk, h.listed k]
  · change (x.requestOrder ++ [r.key]).Pairwise _
    rw [List.pairwise_append]
    refine ⟨?_, List.pairwise_singleton _ _, ?_⟩
    · apply h.ordered.imp_of_mem
      intro k k' hk hk' hlt n n' hfind hfind'
      exact hlt n n' ((hother k hk).symm.trans hfind) ((hother k' hk').symm.trans hfind')
    · intro k hk k' hk' n n' hfind hfind'
      rw [List.mem_singleton.mp hk'] at hfind'
      have hnew : x.calls.length = n' :=
        Option.some.inj ((Dict.find?_insert_self _ _ _).symm.trans hfind')
      obtain ⟨call, hcall, -⟩ := h.filed k n ((hother k hk).symm.trans hfind)
      obtain ⟨hlt, -⟩ := List.getElem?_eq_some_iff.mp hcall
      exact hnew ▸ hlt
  · exact h.distinct_append { request := r } hfresh
  · intro n call hcall hwaiting
    change (x.pendingOrders.insert r.key x.calls.length).find? call.request.key = some n
    rcases call_append hcall with hold | ⟨rfl, rfl⟩
    · have hopen : call.isOpen = true := decide_eq_true (Or.inl hwaiting)
      rw [Dict.find?_insert_of_ne _ (hfresh call (List.mem_of_getElem? hold) hopen)]
      exact h.waits n call hold hwaiting
    · exact Dict.find?_insert_self _ _ _
  · rw [hawaited, List.pairwise_append]
    refine ⟨h.sorted, List.pairwise_singleton _ _, ?_⟩
    intro n hn n' hn'
    rw [List.mem_singleton.mp hn']
    exact h.issued n hn
  · intro n hn
    rw [hawaited, List.mem_append, List.mem_singleton] at hn
    change n < (x.calls ++ [_]).length
    rw [List.length_append, List.length_singleton]
    rcases hn with hold | rfl
    · exact Nat.lt_succ_of_lt (h.issued n hold)
    · exact Nat.lt_succ_self _
  · intro message hmessage n hanswers
    obtain ⟨call, hcall, hfits⟩ := h.fits message hmessage n hanswers
    exact ⟨call, getElem?_append_of_some hcall, hfits⟩
  · intro n call message hcall hanswered
    rcases call_append hcall with hold | ⟨-, rfl⟩
    · exact h.truthful n call message hold hanswered
    · cases hanswered

/-- A request that could not be sent leaves nothing on file. -/
theorem Aligned.fileUnsent (h : x.Aligned) (hfresh : x.Fresh r.key) : (x.fileUnsent r).Aligned := by
  have hfind : ∀ k, (x.fileUnsent r).pendingOrders.find? k = x.pendingOrders.find? k := by
    intro k
    change ((x.pendingOrders.insert r.key x.calls.length).erase r.key).find? k = _
    rw [Dict.find?_erase]
    split
    · rename_i hk
      rw [hk, h.find?_eq_none hfresh]
    · rename_i hk
      exact Dict.find?_insert_of_ne _ hk _
  have horder : (x.requestOrder ++ [r.key]).erase r.key = x.requestOrder := by
    rw [List.erase_append_right _ (h.not_listed hfresh), List.erase_cons_head, List.append_nil]
  refine ⟨?_, ?_, ?_, ?_, ?_, h.sorted, ?_, ?_, h.addressed, ?_⟩
  · intro k n hfiled
    obtain ⟨call, hcall, hkey, hopen⟩ := h.filed k n ((hfind k).symm.trans hfiled)
    exact ⟨call, getElem?_append_of_some hcall, hkey, hopen⟩
  · intro k
    change k ∈ (x.requestOrder ++ [r.key]).erase r.key ↔ _
    rw [horder, hfind]
    exact h.listed k
  · change ((x.requestOrder ++ [r.key]).erase r.key).Pairwise _
    rw [horder]
    apply h.ordered.imp
    intro k k' hlt n n' hk hk'
    exact hlt n n' ((hfind k).symm.trans hk) ((hfind k').symm.trans hk')
  · exact h.distinct_append { request := r, future := .lost } hfresh
  · intro n call hcall hwaiting
    rcases call_append hcall with hold | ⟨-, rfl⟩
    · exact (hfind _).trans (h.waits n call hold hwaiting)
    · cases hwaiting
  · intro n hn
    change n < (x.calls ++ [_]).length
    rw [List.length_append, List.length_singleton]
    exact Nat.lt_succ_of_lt (h.issued n hn)
  · intro message hmessage n hanswers
    obtain ⟨call, hcall, hfits⟩ := h.fits message hmessage n hanswers
    exact ⟨call, getElem?_append_of_some hcall, hfits⟩
  · intro n call message hcall hanswered
    rcases call_append hcall with hold | ⟨-, rfl⟩
    · exact h.truthful n call message hold hanswered
    · cases hanswered

/-- The keys on file are different. -/
theorem Aligned.nodup (h : x.Aligned) : x.requestOrder.Nodup := by
  apply h.ordered.imp_of_mem
  rintro k k' hk - hlt rfl
  obtain ⟨n, hfind⟩ := Option.isSome_iff_exists.mp ((h.listed k).mp hk)
  exact Nat.lt_irrefl n (hlt n n hfind hfind)

/-- An answer moves from the server to the wire. -/
theorem Aligned.process (h : x.Aligned) (answer : AdapterAnswer) : (x.process answer).Aligned := by
  unfold AdapterConnection.process
  split
  · exact h
  · rename_i n rest hqueue
    split
    · exact h
    · rename_i call hcall
      let new : AdapterMessage := { reply := call.request.replyTo answer, answers := some n }
      have hawaited : (x.inbox ++ [new]).filterMap AdapterMessage.answers ++ rest = x.awaited := by
        rw [awaited, hqueue, List.filterMap_append, List.append_assoc]
        rfl
      refine ⟨h.filed, h.listed, h.ordered, h.distinct, h.waits, ?_, ?_, ?_, ?_, h.truthful⟩
      · have hsorted := h.sorted
        rwa [← hawaited] at hsorted
      · have hissued := h.issued
        rwa [← hawaited] at hissued
      · intro message hmessage i hanswers
        rcases List.mem_append.mp hmessage with hold | hnew
        · exact h.fits message hold i hanswers
        · rw [List.mem_singleton.mp hnew] at hanswers ⊢
          cases hanswers
          exact ⟨call, hcall, answer, rfl⟩
      · intro message hmessage herror
        rcases List.mem_append.mp hmessage with hold | hnew
        · exact h.addressed message hold herror
        · rw [List.mem_singleton.mp hnew]
          rfl

theorem awaited_process (x : AdapterConnection) (answer : AdapterAnswer) :
    (x.process answer).calls = x.calls ∧ (x.process answer).awaited = x.awaited := by
  unfold AdapterConnection.process
  split
  · exact ⟨rfl, rfl⟩
  · rename_i n rest hqueue
    split
    · exact ⟨rfl, rfl⟩
    · refine ⟨rfl, ?_⟩
      simp only [awaited, hqueue, List.filterMap_append, List.append_assoc]
      rfl

/-- The notice of another client answers nothing. -/
theorem awaited_broadcast (x : AdapterConnection) (notice : OrderNotice) :
    (x.step (.broadcast notice)).awaited = x.awaited := by
  simp only [awaited, step, List.filterMap_append]
  simp

theorem Aligned.broadcast (h : x.Aligned) (notice : OrderNotice) :
    (x.step (.broadcast notice)).Aligned := by
  have hawaited := x.awaited_broadcast notice
  refine ⟨h.filed, h.listed, h.ordered, h.distinct, h.waits, ?_, ?_, ?_, ?_, h.truthful⟩
  · rw [hawaited]
    exact h.sorted
  · rw [hawaited]
    exact h.issued
  · intro message hmessage n hanswers
    rcases List.mem_append.mp hmessage with hold | hnew
    · exact h.fits message hold n hanswers
    · rw [List.mem_singleton.mp hnew] at hanswers
      cases hanswers
  · intro message hmessage herror
    rcases List.mem_append.mp hmessage with hold | hnew
    · exact h.addressed message hold herror
    · rw [List.mem_singleton.mp hnew] at herror
      cases herror

/-- The first message leaves the wire. -/
theorem Aligned.dropInbox (h : x.Aligned) (hinbox : x.inbox = message :: rest) :
    ({ x with inbox := rest } : AdapterConnection).Aligned := by
  have hsuffix : ({ x with inbox := rest } : AdapterConnection).awaited.Sublist x.awaited := by
    rw [awaited, awaited, hinbox]
    exact ((List.sublist_cons_self message rest).filterMap _).append_right _
  have hmem : ∀ message' ∈ rest, message' ∈ x.inbox := fun message' hmessage' =>
    hinbox ▸ List.mem_cons_of_mem message hmessage'
  exact ⟨h.filed, h.listed, h.ordered, h.distinct, h.waits, h.sorted.sublist hsuffix,
    fun n hn => h.issued n (hsuffix.subset hn), fun message' hm => h.fits message' (hmem message' hm),
    fun message' hm => h.addressed message' (hmem message' hm), h.truthful⟩

theorem Aligned.fits_setFuture (h : x.Aligned) (n : ℕ) (future : FutureState)
    (message : AdapterMessage) (hmessage : message ∈ x.inbox) (i : ℕ)
    (hanswers : message.answers = some i) : ∃ call, (x.setFuture n future).calls[i]? = some call ∧
      ∃ answer, message.reply = call.request.replyTo answer := by
  obtain ⟨call, hcall, answer, hreply⟩ := h.fits message hmessage i hanswers
  refine ⟨_, by rw [getElem?_setFuture, hcall]; rfl, answer, ?_⟩
  split
  · exact hreply
  · exact hreply

/-- A future is taken off the file, and is not waiting any more. -/
theorem Aligned.take (h : x.Aligned) {k : String} {f : ℕ} (hfind : x.pendingOrders.find? k = some f)
    (hwaits : future ≠ .waiting)
    (htruth : ∀ message call, future = .answered message → x.calls[f]? = some call →
      message.answers = some f ∧ ∃ answer, message.reply = call.request.replyTo answer) :
    ((x.setFuture f future).remove k).Aligned := by
  obtain ⟨taken, htaken, hkey, hopen⟩ := h.filed k f hfind
  have hold : ∀ k' n, (x.pendingOrders.erase k).find? k' = some n →
      k' ≠ k ∧ x.pendingOrders.find? k' = some n := by
    intro k' n hfind'
    rw [Dict.find?_erase] at hfind'
    split at hfind'
    · cases hfind'
    · exact ⟨‹_›, hfind'⟩
  have hwas : ∀ (n : ℕ) call, (x.setFuture f future).calls[n]? = some call → call.isOpen = true →
      ∃ before, x.calls[n]? = some before ∧ before.isOpen = true ∧
        before.request = call.request := by
    intro n call hcall hcallOpen
    obtain ⟨before, hbefore, hrequest, hfuture⟩ := call_setFuture hcall
    refine ⟨before, hbefore, ?_, hrequest.symm⟩
    by_cases hn : f = n
    · subst hn
      rw [htaken, Option.some_inj] at hbefore
      exact hbefore ▸ hopen
    · rw [if_neg hn] at hfuture
      rw [AdapterCall.isOpen, ← hfuture]
      exact hcallOpen
  refine ⟨?_, ?_, ?_, ?_, ?_, h.sorted, ?_, h.fits_setFuture f future, h.addressed, ?_⟩
  · intro k' n hfind'
    obtain ⟨hne, hfind'⟩ := hold k' n hfind'
    obtain ⟨call, hcall, hkey', hopen'⟩ := h.filed k' n hfind'
    have hn : f ≠ n := by
      rintro rfl
      rw [htaken, Option.some_inj] at hcall
      exact hne (hkey'.symm.trans (hcall ▸ hkey))
    refine ⟨call, ?_, hkey', hopen'⟩
    change (x.setFuture f future).calls[n]? = some call
    rw [getElem?_setFuture, hcall, Option.map_some, if_neg hn]
  · intro k'
    change k' ∈ x.requestOrder.erase k ↔ ((x.pendingOrders.erase k).find? k').isSome
    rw [h.nodup.mem_erase_iff, Dict.find?_erase, h.listed]
    by_cases hk : k' = k
    · simp [hk]
    · simp [hk]
  · apply (h.ordered.sublist List.erase_sublist).imp
    intro k' k'' hlt n n' hfind' hfind''
    exact hlt n n' (hold k' n hfind').2 (hold k'' n' hfind'').2
  · intro n n' call call' hcall hcall' hcallOpen hcallOpen' hkeys
    obtain ⟨before, hbefore, hbeforeOpen, hrequest⟩ := hwas n call hcall hcallOpen
    obtain ⟨before', hbefore', hbeforeOpen', hrequest'⟩ := hwas n' call' hcall' hcallOpen'
    exact h.distinct n n' before before' hbefore hbefore' hbeforeOpen hbeforeOpen'
      (by rw [hrequest, hrequest', hkeys])
  · intro n call hcall hwaiting
    obtain ⟨before, hbefore, hrequest, hfuture⟩ := call_setFuture hcall
    have hn : f ≠ n := by
      rintro rfl
      rw [if_pos rfl, hwaiting] at hfuture
      exact hwaits hfuture.symm
    rw [if_neg hn, hwaiting] at hfuture
    have hfiled := h.waits n before hbefore hfuture.symm
    have hne : before.request.key ≠ k := by
      intro heq
      rw [heq, hfind, Option.some_inj] at hfiled
      exact hn hfiled
    change (x.pendingOrders.erase k).find? call.request.key = some n
    rw [hrequest, Dict.find?_erase_of_ne _ hne]
    exact hfiled
  · intro n hn
    change n < (x.calls.modify f _).length
    rw [List.length_modify]
    exact h.issued n hn
  · intro n call message hcall hanswered
    obtain ⟨before, hbefore, hrequest, hfuture⟩ := call_setFuture hcall
    rw [hrequest]
    by_cases hn : f = n
    · subst hn
      rw [if_pos rfl, hanswered] at hfuture
      exact htruth message before hfuture.symm hbefore
    · rw [if_neg hn, hanswered] at hfuture
      exact h.truthful n before message hbefore hfuture.symm

/-- An open call gets another future. It stays open, or is not on file. -/
theorem Aligned.setFuture (h : x.Aligned) (hcall : x.calls[n]? = some call) (hopen : call.isOpen = true)
    (hfuture : future = .expired ∨ (future = .timedOut ∧ x.pendingOrders.find? call.request.key = none)) :
    (x.setFuture n future).Aligned := by
  have hwas : ∀ (i : ℕ) after, (x.setFuture n future).calls[i]? = some after → after.isOpen = true →
      ∃ before, x.calls[i]? = some before ∧ before.isOpen = true ∧
        before.request = after.request := by
    intro i after hafter hafterOpen
    obtain ⟨before, hbefore, hrequest, hnow⟩ := call_setFuture hafter
    refine ⟨before, hbefore, ?_, hrequest.symm⟩
    by_cases hi : n = i
    · subst hi
      rw [hcall, Option.some_inj] at hbefore
      exact hbefore ▸ hopen
    · rw [if_neg hi] at hnow
      rw [AdapterCall.isOpen, ← hnow]
      exact hafterOpen
  refine ⟨?_, h.listed, h.ordered, ?_, ?_, h.sorted, ?_, h.fits_setFuture n future, h.addressed, ?_⟩
  · intro k i hfind
    obtain ⟨before, hbefore, hkey, hbeforeOpen⟩ := h.filed k i hfind
    by_cases hi : n = i
    · subst hi
      rw [hcall, Option.some_inj] at hbefore
      subst hbefore
      refine ⟨{ call with future := future }, ?_, hkey, ?_⟩
      · rw [getElem?_setFuture, hcall, Option.map_some, if_pos rfl]
      · rcases hfuture with rfl | ⟨-, hnone⟩
        · rfl
        · have hfind' : x.pendingOrders.find? k = some n := hfind
          rw [hkey, hfind'] at hnone
          cases hnone
    · refine ⟨before, ?_, hkey, hbeforeOpen⟩
      rw [getElem?_setFuture, hbefore, Option.map_some, if_neg hi]
  · intro i i' after after' hafter hafter' hafterOpen hafterOpen' hkeys
    obtain ⟨before, hbefore, hbeforeOpen, hrequest⟩ := hwas i after hafter hafterOpen
    obtain ⟨before', hbefore', hbeforeOpen', hrequest'⟩ := hwas i' after' hafter' hafterOpen'
    exact h.distinct i i' before before' hbefore hbefore' hbeforeOpen hbeforeOpen'
      (by rw [hrequest, hrequest', hkeys])
  · intro i after hafter hwaiting
    obtain ⟨before, hbefore, hrequest, hnow⟩ := call_setFuture hafter
    rw [hrequest]
    split at hnow
    · rw [hwaiting] at hnow
      rcases hfuture with rfl | ⟨rfl, -⟩
      · cases hnow
      · cases hnow
    · exact h.waits i before hbefore (hnow.symm.trans hwaiting)
  · intro i hi
    change i < (x.calls.modify n _).length
    rw [List.length_modify]
    exact h.issued i hi
  · intro i after message hafter hanswered
    obtain ⟨before, hbefore, hrequest, hnow⟩ := call_setFuture hafter
    rw [hrequest]
    split at hnow
    · rw [hanswered] at hnow
      rcases hfuture with rfl | ⟨rfl, -⟩
      · cases hnow
      · cases hnow
    · exact h.truthful i before message hbefore (hnow.symm.trans hanswered)

/-- Removing the entries of a call whose future has expired. -/
theorem Aligned.cleanUp (h : x.Aligned) (hcall : x.calls[n]? = some { request := r, future := .expired }) :
    ((x.setFuture n .timedOut).popPending r.key).2.Aligned := by
  have hfile : (x.setFuture n .timedOut).pendingOrders = x.pendingOrders := rfl
  unfold popPending
  rw [hfile]
  cases hfind : x.pendingOrders.find? r.key with
  | none => exact h.setFuture hcall rfl (Or.inr ⟨rfl, hfind⟩)
  | some m =>
    obtain ⟨call, hfiled, hkey, hopen⟩ := h.filed r.key m hfind
    have hsame : n = m := h.distinct n m _ call hcall hfiled rfl hopen hkey.symm
    subst hsame
    exact h.take hfind (fun heq => by cases heq) fun message _ heq => by cases heq

theorem call_close {i : ℕ} (h : x.close.calls[i]? = some call) :
    ∃ before, x.calls[i]? = some before ∧ call.request = before.request ∧
      (call.future = before.future ∨ call.future = .lost) ∧
      (before.future = .waiting → i ∈ x.pendingOrders.values → call.future = .lost) := by
  simp only [close, List.getElem?_map, List.getElem?_zipIdx, Option.map_map,
    Option.map_eq_some_iff, Function.comp_apply, Nat.zero_add] at h
  obtain ⟨before, hbefore, rfl⟩ := h
  refine ⟨before, hbefore, ?_⟩
  split
  · exact ⟨rfl, Or.inr rfl, fun _ _ => rfl⟩
  · rename_i hkept
    refine ⟨rfl, Or.inl rfl, fun hwaiting hmem => absurd ⟨hmem, hwaiting⟩ hkept⟩

/-- After a loss nobody waits. -/
theorem Aligned.close (h : x.Aligned) : x.close.Aligned ∧ ∀ n, ¬ x.close.Waiting n := by
  have hwaiting : ∀ (n : ℕ) call, x.close.calls[n]? = some call → call.future ≠ .waiting := by
    intro n call hcall heq
    obtain ⟨before, hbefore, -, hkeeps | hlost, hloses⟩ := call_close hcall
    · have hbeforeWaiting := hkeeps.symm.trans heq
      have hfiled := h.waits n before hbefore hbeforeWaiting
      have hmem : n ∈ x.pendingOrders.values :=
        List.mem_map.mpr ⟨_, (Dict.mem_entries_iff _ _ _).mpr hfiled, rfl⟩
      have hlost := hloses hbeforeWaiting hmem
      rw [heq] at hlost
      cases hlost
    · rw [heq] at hlost
      cases hlost
  have hlength : x.close.calls.length = x.calls.length := by
    simp [AdapterConnection.close]
  refine ⟨⟨?_, ?_, List.Pairwise.nil, ?_, ?_, h.sorted, ?_, ?_, h.addressed, ?_⟩, ?_⟩
  · intro k n hfind
    cases hfind
  · intro k
    exact iff_of_false List.not_mem_nil Bool.false_ne_true
  · intro n n' call call' hcall hcall' hopen hopen' hkeys
    obtain ⟨before, hbefore, hrequest, hkeeps | hlost, -⟩ := call_close hcall
    · obtain ⟨before', hbefore', hrequest', hkeeps' | hlost', -⟩ := call_close hcall'
      · rw [AdapterCall.isOpen, hkeeps] at hopen
        rw [AdapterCall.isOpen, hkeeps'] at hopen'
        exact h.distinct n n' before before' hbefore hbefore' hopen hopen'
          (by rw [← hrequest, ← hrequest', hkeys])
      · rw [AdapterCall.isOpen, hlost'] at hopen'
        simp at hopen'
    · rw [AdapterCall.isOpen, hlost] at hopen
      simp at hopen
  · intro n call hcall heq
    exact absurd heq (hwaiting n call hcall)
  · intro n hn
    rw [hlength]
    exact h.issued n hn
  · intro message hmessage n hanswers
    obtain ⟨call, hcall, answer, hreply⟩ := h.fits message hmessage n hanswers
    have hlt : n < x.close.calls.length := hlength ▸ (List.getElem?_eq_some_iff.mp hcall).1
    obtain ⟨before, hbefore, hrequest, -⟩ := call_close (List.getElem?_eq_getElem hlt)
    rw [hcall, Option.some_inj] at hbefore
    exact ⟨_, List.getElem?_eq_getElem hlt, answer, by rw [hrequest, ← hbefore, hreply]⟩
  · intro n call message hcall hanswered
    obtain ⟨before, hbefore, hrequest, hkeeps | hlost, -⟩ := call_close hcall
    · rw [hrequest]
      exact h.truthful n before message hbefore (hkeeps.symm.trans hanswered)
    · rw [hanswered] at hlost
      cases hlost
  · intro n hn
    obtain ⟨call, hcall, heq⟩ := waiting_iff.mp hn
    exact hwaiting n call hcall heq

theorem setFuture_self (hcall : x.calls[n]? = some call) : x.setFuture n call.future = x := by
  have hcalls : (x.setFuture n call.future).calls = x.calls := by
    apply List.ext_getElem?
    intro i
    rw [getElem?_setFuture]
    by_cases hi : n = i
    · subst hi
      rw [hcall, Option.map_some, if_pos rfl]
    · simp only [if_neg hi, Option.map_id']
  have heta : x.setFuture n call.future =
      { x with calls := (x.setFuture n call.future).calls } := rfl
  rw [heta, hcalls]

/-- A message resolves the future it is matched to, if that is still waiting. -/
theorem Aligned.receive_cases (h : x.Aligned) (message : AdapterMessage) :
    (x.candidate message.reply = none ∧ x.receive message = x) ∨
      ∃ k m call, x.candidate message.reply = some m ∧ x.pendingOrders.find? k = some m ∧
        x.calls[m]? = some call ∧ x.receive message =
          (x.setFuture m (if call.future = .waiting then .answered message
            else call.future)).remove k := by
  obtain ⟨hnone, heq⟩ | ⟨k, m, hfind, hcandidate, heq⟩ := x.takeFuture_cases message.reply
  · left
    refine ⟨hnone, ?_⟩
    unfold AdapterConnection.receive
    rw [heq]
  · right
    obtain ⟨call, hcall, -⟩ := h.filed k m hfind
    refine ⟨k, m, call, hcandidate, hfind, hcall, ?_⟩
    have hwaiting : (x.remove k).Waiting m ↔ call.future = .waiting := by
      change (x.calls[m]?).map AdapterCall.future = some .waiting ↔ _
      rw [hcall, Option.map_some, Option.some_inj]
    unfold AdapterConnection.receive
    simp only [heq, hwaiting]
    split
    · rfl
    · rw [setFuture_self hcall]

/-- A message will be matched rightly. A notice: what is on file under its ids is what it answers, or
neither is waiting. An error: it answers a waiting request and no older one on file has timed out, or one
that has timed out while the oldest one on file is not waiting. -/
def Expected (x : AdapterConnection) (message : AdapterMessage) : Prop :=
  match message.reply with
  | .order _ => ∀ m ∈ x.candidate message.reply,
      message.answers = some m ∨ (¬ x.Waiting m ∧ ∀ n ∈ message.answers, ¬ x.Waiting n)
  | .error => ∀ n ∈ message.answers,
      if x.Waiting n then ∀ k ∈ x.requestOrder, ∀ m ∈ x.pendingOrders.find? k, m < n → x.Waiting m
      else ∀ k ∈ x.requestOrder.head?, ∀ m ∈ x.pendingOrders.find? k, ¬ x.Waiting m

instance (x : AdapterConnection) (message : AdapterMessage) : Decidable (x.Expected message) := by
  unfold Expected
  split
  · infer_instance
  · infer_instance

/-- The condition on an event: no open call has the key of a new request, and a message that arrives
is expected. -/
def Orderly (x : AdapterConnection) : AdapterEvent → Prop
  | .request r => x.connected = true → x.Fresh r.key
  | .unsent r => x.connected = true → x.Fresh r.key
  | .deliver => x.connected = true → ∀ message ∈ x.inbox.head?, x.Expected message
  | _ => True

instance (x : AdapterConnection) (e : AdapterEvent) : Decidable (x.Orderly e) := by
  unfold Orderly
  split
  · infer_instance
  · infer_instance
  · infer_instance
  · infer_instance

/-- Something on file has an id of the notice that answers a request on file. -/
theorem candidate_replyTo {answer : AdapterAnswer}
    (hfiled : x.pendingOrders.find? r.key = some n) (hreply : .order notice = r.replyTo answer) :
    ∃ m, x.candidate (.order notice) = some m := by
  cases answer with
  | refused => cases hreply
  | executed orderId clientOrderId =>
    cases r with
    | order key =>
      cases hreply
      have hkey : x.pendingOrders.find? key = some n := hfiled
      exact ⟨n, by simp [candidate, hkey]⟩
    | cancel key =>
      cases hreply
      have hkey : x.pendingOrders.find? key = some n := hfiled
      cases hother : clientOrderId.bind x.pendingOrders.find? with
      | none => exact ⟨n, by simp [candidate, hother, hkey]⟩
      | some m => exact ⟨m, by simp [candidate, hother]⟩

theorem Aligned.oldest (h : x.Aligned) (hfiled : x.pendingOrders.find? key = some n) :
    ∃ k m, k ∈ x.requestOrder.head? ∧ k ∈ x.requestOrder ∧ x.pendingOrders.find? k = some m ∧
      x.candidate .error = some m ∧ m ≤ n := by
  have hlisted : key ∈ x.requestOrder := (h.listed key).mpr (by rw [hfiled]; rfl)
  have hordered := h.ordered
  cases hlist : x.requestOrder with
  | nil =>
    rw [hlist] at hlisted
    cases hlisted
  | cons k rest =>
    have hk : k ∈ x.requestOrder := hlist ▸ List.mem_cons_self
    obtain ⟨m, hm⟩ := Option.isSome_iff_exists.mp ((h.listed k).mp hk)
    refine ⟨k, m, rfl, List.mem_cons_self, hm, by simp [candidate, hlist, hm], ?_⟩
    rw [hlist] at hlisted hordered
    rcases List.mem_cons.mp hlisted with rfl | hrest
    · rw [hfiled, Option.some_inj] at hm
      exact Nat.le_of_eq hm.symm
    · exact Nat.le_of_lt ((List.pairwise_cons.mp hordered).1 key hrest m n hm hfiled)

/-- A waiting request is what its own answer is matched to, and nothing else that waits is. -/
theorem Aligned.matched (h : x.Aligned) (hdue : x.Due)
    (hinbox : x.inbox = message :: rest) (hexpected : x.Expected message) :
    (∀ n, message.answers = some n → x.Waiting n → x.candidate message.reply = some n) ∧
      ∀ m, x.candidate message.reply = some m → x.Waiting m → message.answers = some m := by
  have hmem : message ∈ x.inbox := hinbox ▸ List.mem_cons_self
  obtain ⟨reply, answers⟩ := message
  cases reply with
  | order notice =>
    constructor
    · rintro n hanswers hwaiting
      obtain ⟨call, hcall, hfuture⟩ := waiting_iff.mp hwaiting
      obtain ⟨call', hcall', answer, hreply⟩ := h.fits _ hmem n hanswers
      rw [hcall, Option.some_inj] at hcall'
      subst hcall'
      obtain ⟨m, hm⟩ := candidate_replyTo (h.waits n call hcall hfuture) hreply
      rcases hexpected m hm with heq | ⟨-, hnot⟩
      · rw [hanswers, Option.some_inj] at heq
        rw [heq]
        exact hm
      · exact absurd hwaiting (hnot n hanswers)
    · intro m hm hwaiting
      rcases hexpected m hm with heq | ⟨hnot, -⟩
      · exact heq
      · exact absurd hwaiting hnot
  | error =>
    obtain ⟨n, hanswers⟩ := Option.isSome_iff_exists.mp (h.addressed _ hmem rfl)
    have hguard := hexpected n hanswers
    by_cases hwaiting : x.Waiting n
    · rw [if_pos hwaiting] at hguard
      obtain ⟨call, hcall, hfuture⟩ := waiting_iff.mp hwaiting
      obtain ⟨k, m, -, hk, hm, holdest, hle⟩ := h.oldest (h.waits n call hcall hfuture)
      have hsame : m = n := by
        rcases Nat.lt_or_eq_of_le hle with hlt | heq
        · -- an older waiting request would be answered earlier
          have hsorted := h.sorted
          have hlater := hdue m (hguard k hk m hm hlt)
          have hawaited : x.awaited = n :: (rest.filterMap AdapterMessage.answers ++ x.queue) := by
            rw [awaited, hinbox, List.filterMap_cons_some hanswers, List.cons_append]
          rw [hawaited] at hsorted hlater
          rcases List.mem_cons.mp hlater with heq | hlater
          · exact heq
          · exact absurd hlt (Nat.lt_asymm ((List.pairwise_cons.mp hsorted).1 m hlater))
        · exact heq
      subst hsame
      constructor
      · intro i hi _
        rw [hanswers] at hi
        rw [← hi]
        exact holdest
      · intro i hi _
        rw [holdest] at hi
        rw [← hi]
        exact hanswers
    · rw [if_neg hwaiting] at hguard
      constructor
      · intro i hi hiwaiting
        rw [hanswers, Option.some_inj] at hi
        exact absurd (hi ▸ hiwaiting) hwaiting
      · intro m hm hmwaiting
        obtain ⟨k, hk, hfind⟩ := Option.bind_eq_some_iff.mp hm
        exact absurd hmwaiting (hguard k hk m hfind)

/-- What is awaited when the first message has left the wire. -/
theorem Due.drop (hdue : x.Due) (hinbox : x.inbox = message :: rest) (hwaiting : x.Waiting n) :
    message.answers = some n ∨ n ∈ ({ x with inbox := rest } : AdapterConnection).awaited := by
  have hawaited := hdue n hwaiting
  rw [awaited, hinbox, List.mem_append] at hawaited
  rcases hawaited with hwire | hqueue
  · obtain ⟨message', hmem, hanswers⟩ := List.mem_filterMap.mp hwire
    rcases List.mem_cons.mp hmem with rfl | hrest
    · exact Or.inl hanswers
    · exact Or.inr (List.mem_append_left _ (List.mem_filterMap.mpr ⟨message', hrest, hanswers⟩))
  · exact Or.inr (List.mem_append_right _ hqueue)

/-- An expected message resolves the future of the request that it answers, if that still waits, and
no other one. -/
theorem Aligned.deliver (h : x.Aligned) (hdue : x.Due)
    (hinbox : x.inbox = message :: rest) (hexpected : x.Expected message) :
    (({ x with inbox := rest } : AdapterConnection).receive message).Aligned ∧
      (({ x with inbox := rest } : AdapterConnection).receive message).Due ∧
      ∀ n, message.answers = some n → x.Waiting n →
        ((({ x with inbox := rest } : AdapterConnection).receive message).calls[n]?).map
          AdapterCall.future = some (.answered message) := by
  have hdrop := h.dropInbox hinbox
  obtain ⟨hcomplete, hsound⟩ := h.matched hdue hinbox hexpected
  obtain ⟨hnone, heq⟩ | ⟨k, m, call, hcandidate, hfind, hcall, heq⟩ := hdrop.receive_cases message
  · rw [heq]
    have hunmatched : ∀ n, message.answers = some n → ¬ x.Waiting n := by
      intro n hanswers hwaiting
      have hsome := hcomplete n hanswers hwaiting
      cases hnone.symm.trans hsome
    refine ⟨hdrop, ?_, fun n hanswers hwaiting => absurd hwaiting (hunmatched n hanswers)⟩
    intro n hwaiting
    rcases hdue.drop hinbox hwaiting with hanswers | hawaited
    · exact absurd hwaiting (hunmatched n hanswers)
    · exact hawaited
  · rw [heq]
    change x.candidate message.reply = some m at hcandidate
    have hwaiting_iff : x.Waiting m ↔ call.future = .waiting := by
      rw [Waiting, hcall, Option.map_some, Option.some_inj]
    refine ⟨hdrop.take hfind ?_ ?_, ?_, ?_⟩
    · split
      · exact (nomatch ·)
      · assumption
    · intro message' call' hfuture hcall'
      rw [hcall, Option.some_inj] at hcall'
      subst hcall'
      split at hfuture
      · rename_i hwaits
        cases hfuture
        have hanswers := hsound m hcandidate (hwaiting_iff.mpr hwaits)
        obtain ⟨call', hcall', hreply⟩ := h.fits message (hinbox ▸ List.mem_cons_self) m hanswers
        rw [hcall, Option.some_inj] at hcall'
        exact ⟨hanswers, hcall' ▸ hreply⟩
      · exact h.truthful m call message' hcall hfuture
    · intro n hafter
      obtain ⟨after, hafterCall, hfuture⟩ := waiting_iff.mp hafter
      obtain ⟨before, hbefore, -, hnow⟩ := call_setFuture hafterCall
      rw [hfuture] at hnow
      have hn : m ≠ n := by
        rintro rfl
        rw [if_pos rfl] at hnow
        split at hnow
        · cases hnow
        · exact absurd hnow.symm ‹_›
      rw [if_neg hn] at hnow
      have hwaiting : x.Waiting n := waiting_iff.mpr ⟨before, hbefore, hnow.symm⟩
      rcases hdue.drop hinbox hwaiting with hanswers | hawaited
      · have hsame := hcomplete n hanswers hwaiting
        rw [hcandidate, Option.some_inj] at hsame
        exact absurd hsame hn
      · exact hawaited
    · intro n hanswers hwaiting
      have hsame := hcomplete n hanswers hwaiting
      rw [hcandidate, Option.some_inj] at hsame
      subst hsame
      change ((x.setFuture m _).calls[m]?).map AdapterCall.future = _
      rw [getElem?_setFuture, hcall, Option.map_some, Option.map_some, if_pos rfl,
        if_pos (hwaiting_iff.mp hwaiting)]

/-- An expected message arrives. -/
theorem step_deliver (hconnected : x.connected = true) (hinbox : x.inbox = message :: rest) :
    x.step .deliver = ({ x with inbox := rest } : AdapterConnection).receive message := by
  rw [step, if_pos hconnected, hinbox]

/-- Without a connection, or with nothing on the wire, nothing arrives. -/
theorem step_deliver_of_quiet (hquiet : x.connected = true → x.inbox = []) : x.step .deliver = x := by
  rw [step]
  split
  · rename_i hconnected
    rw [hquiet hconnected]
  · rfl

theorem delivers_or_quiet (x : AdapterConnection) :
    (∃ message rest, x.connected = true ∧ x.inbox = message :: rest) ∨
      (x.connected = true → x.inbox = []) := by
  cases hconnected : x.connected with
  | false => exact Or.inr (nomatch ·)
  | true =>
    cases hinbox : x.inbox with
    | nil => exact Or.inr fun _ => rfl
    | cons message rest => exact Or.inl ⟨message, rest, rfl, rfl⟩

/-- The futures that no event but a new request makes wait. -/
theorem Due.of_waiting (hdue : x.Due) {y : AdapterConnection} (hawaited : y.awaited = x.awaited)
    (hwaiting : ∀ n, y.Waiting n → x.Waiting n) : y.Due := by
  intro n hn
  rw [hawaited]
  exact hdue n (hwaiting n hn)

theorem waiting_of_setFuture {n i : ℕ} (hfuture : future ≠ .waiting)
    (h : (x.setFuture n future).Waiting i) : x.Waiting i := by
  obtain ⟨after, hafter, hwaiting⟩ := waiting_iff.mp h
  obtain ⟨before, hbefore, -, hnow⟩ := call_setFuture hafter
  rw [hwaiting] at hnow
  split at hnow
  · exact absurd hnow.symm hfuture
  · exact waiting_iff.mpr ⟨before, hbefore, hnow.symm⟩

theorem waiting_append {new : AdapterCall} {calls : List AdapterCall}
    (h : ((calls ++ [new])[n]?).map AdapterCall.future = some .waiting) :
    (calls[n]?).map AdapterCall.future = some .waiting ∨ (n = calls.length ∧ new.future = .waiting) := by
  obtain ⟨call, hcall, hwaiting⟩ := Option.map_eq_some_iff.mp h
  rcases call_append (x := { calls := calls }) hcall with hold | ⟨heq, rfl⟩
  · exact Or.inl (Option.map_eq_some_iff.mpr ⟨call, hold, hwaiting⟩)
  · exact Or.inr ⟨heq, hwaiting⟩

theorem popPending_keeps (x : AdapterConnection) (key : String) :
    (x.popPending key).2.calls = x.calls ∧ (x.popPending key).2.awaited = x.awaited := by
  unfold popPending
  split
  · exact ⟨rfl, rfl⟩
  · exact ⟨rfl, rfl⟩

/-- One event. -/
theorem Aligned.step (h : x.Aligned) (hdue : x.Due) (horderly : x.Orderly e) :
    (x.step e).Aligned ∧ (x.step e).Due := by
  cases e with
  | request r =>
    by_cases hconnected : x.connected = true
    · have hstep : x.step (.request r) = x.file r := if_pos hconnected
      have hawaited : (x.file r).awaited = x.awaited ++ [x.calls.length] :=
        (List.append_assoc ..).symm
      rw [hstep]
      refine ⟨h.file (horderly hconnected), ?_⟩
      intro n hn
      rw [hawaited, List.mem_append, List.mem_singleton]
      exact (waiting_append hn).imp (hdue n) And.left
    · have hstep : x.step (.request r) = x := if_neg hconnected
      rw [hstep]
      exact ⟨h, hdue⟩
  | unsent r =>
    by_cases hconnected : x.connected = true
    · have hstep : x.step (.unsent r) = x.fileUnsent r := if_pos hconnected
      rw [hstep]
      refine ⟨h.fileUnsent (horderly hconnected), ?_⟩
      exact hdue.of_waiting rfl fun n hn => (waiting_append hn).resolve_right (nomatch ·.2)
    · have hstep : x.step (.unsent r) = x := if_neg hconnected
      rw [hstep]
      exact ⟨h, hdue⟩
  | process answer =>
    obtain ⟨hcalls, hawaited⟩ := x.awaited_process answer
    refine ⟨h.process answer, hdue.of_waiting hawaited ?_⟩
    intro n hn
    change ((x.process answer).calls[n]?).map AdapterCall.future = some .waiting at hn
    rw [hcalls] at hn
    exact hn
  | broadcast notice =>
    exact ⟨h.broadcast notice, hdue.of_waiting (x.awaited_broadcast notice) fun n hn => hn⟩
  | deliver =>
    obtain ⟨message, rest, hconnected, hinbox⟩ | hquiet := x.delivers_or_quiet
    · have hexpected := horderly hconnected message (by rw [hinbox]; rfl)
      obtain ⟨haligned, hdue', -⟩ := h.deliver hdue hinbox hexpected
      rw [step_deliver hconnected hinbox]
      exact ⟨haligned, hdue'⟩
    · rw [step_deliver_of_quiet hquiet]
      exact ⟨h, hdue⟩
  | expire n =>
    by_cases hwaiting : x.Waiting n
    · have hstep : x.step (.expire n) = x.setFuture n .expired := if_pos hwaiting
      obtain ⟨call, hcall, hfuture⟩ := waiting_iff.mp hwaiting
      rw [hstep]
      refine ⟨h.setFuture hcall (decide_eq_true (Or.inl hfuture)) (Or.inl rfl), ?_⟩
      exact hdue.of_waiting rfl fun i => waiting_of_setFuture (nomatch ·)
    · have hstep : x.step (.expire n) = x := if_neg hwaiting
      rw [hstep]
      exact ⟨h, hdue⟩
  | cleanUp n =>
    rw [AdapterConnection.step]
    split
    · rename_i r hcall
      obtain ⟨hcalls, hawaited⟩ := (x.setFuture n .timedOut).popPending_keeps r.key
      refine ⟨h.cleanUp hcall, hdue.of_waiting hawaited ?_⟩
      intro i hi
      have hset : (x.setFuture n .timedOut).Waiting i := by
        rw [Waiting, ← hcalls]
        exact hi
      refine waiting_of_setFuture ?_ hset
      exact (nomatch ·)
    · exact ⟨h, hdue⟩
  | lose =>
    by_cases hconnected : x.connected = true
    · have hstep : x.step .lose = x.close := if_pos hconnected
      obtain ⟨haligned, hnobody⟩ := h.close
      rw [hstep]
      exact ⟨haligned, fun n hn => absurd hn (hnobody n)⟩
    · have hstep : x.step .lose = x := if_neg hconnected
      rw [hstep]
      exact ⟨h, hdue⟩

/-- What becomes of the futures at an event. -/
structure Faithful (x : AdapterConnection) (e : AdapterEvent) : Prop where
  /-- A future is resolved by the answer to its own request. -/
  own : ∀ (n : ℕ) call message, (x.step e).calls[n]? = some call → call.future = .answered message →
    message.answers = some n
  /-- A future is resolved without an answer only when the connection is lost. -/
  lost : ∀ (n : ℕ) call, (x.step e).calls[n]? = some call → call.future = .lost →
    (x.calls[n]?).map AdapterCall.future = some .lost ∨ e = .lose ∨ ∃ r, e = .unsent r
  /-- An answer that arrives before the timeout resolves the future of its request. -/
  reached : ∀ n message, e = .deliver → x.connected = true → x.inbox.head? = some message →
    message.answers = some n → x.Waiting n →
      ((x.step e).calls[n]?).map AdapterCall.future = some (.answered message)
  /-- `place_order` returns no other order. -/
  placed : ∀ (n : ℕ) call key notice, (x.step e).calls[n]? = some call →
    call.request = .order key → call.placedOrder = some notice → notice.clientOrderId = some key
  /-- `place_order` returns the order whose fill has arrived before the timeout. -/
  filled : ∀ (n : ℕ) key notice message, e = .deliver → x.connected = true →
    x.inbox.head? = some message → message.answers = some n → message.reply = .order notice →
    x.calls[n]? = some { request := .order key } →
      ((x.step e).calls[n]?).bind AdapterCall.placedOrder = some notice

theorem lost_of_setFuture {n i : ℕ} (hfuture : future ≠ .lost)
    (h : ((x.setFuture n future).calls[i]?).map AdapterCall.future = some .lost) :
    (x.calls[i]?).map AdapterCall.future = some .lost := by
  obtain ⟨after, hafter, hlost⟩ := Option.map_eq_some_iff.mp h
  obtain ⟨before, hbefore, -, hnow⟩ := call_setFuture hafter
  rw [hlost] at hnow
  split at hnow
  · exact absurd hnow.symm hfuture
  · exact Option.map_eq_some_iff.mpr ⟨before, hbefore, hnow.symm⟩

theorem Aligned.lost_receive (h : x.Aligned) (message : AdapterMessage) {i : ℕ}
    (hlost : ((x.receive message).calls[i]?).map AdapterCall.future = some .lost) :
    (x.calls[i]?).map AdapterCall.future = some .lost := by
  obtain ⟨-, heq⟩ | ⟨k, m, call, -, -, hcall, heq⟩ := h.receive_cases message
  · rwa [heq] at hlost
  · rw [heq] at hlost
    by_cases hkeeps : call.future = .lost
    · rw [if_neg (by rw [hkeeps]; exact (nomatch ·)), setFuture_self hcall] at hlost
      exact hlost
    · refine lost_of_setFuture ?_ hlost
      split
      · exact (nomatch ·)
      · exact hkeeps

theorem Aligned.lost_step (h : x.Aligned) {i : ℕ}
    (hlost : ((x.step e).calls[i]?).map AdapterCall.future = some .lost) :
    (x.calls[i]?).map AdapterCall.future = some .lost ∨ e = .lose ∨ ∃ r, e = .unsent r := by
  cases e with
  | request r =>
    left
    rw [AdapterConnection.step] at hlost
    split at hlost
    · obtain ⟨call, hcall, hfuture⟩ := Option.map_eq_some_iff.mp hlost
      rcases call_append hcall with hold | ⟨-, rfl⟩
      · exact Option.map_eq_some_iff.mpr ⟨call, hold, hfuture⟩
      · cases hfuture
    · exact hlost
  | unsent r => exact Or.inr (Or.inr ⟨r, rfl⟩)
  | process answer =>
    left
    rwa [AdapterConnection.step, (x.awaited_process answer).1] at hlost
  | broadcast notice => exact Or.inl hlost
  | deliver =>
    left
    obtain ⟨message, rest, hconnected, hinbox⟩ | hquiet := x.delivers_or_quiet
    · rw [step_deliver hconnected hinbox] at hlost
      exact (h.dropInbox hinbox).lost_receive message hlost
    · rwa [step_deliver_of_quiet hquiet] at hlost
  | expire n =>
    left
    rw [AdapterConnection.step] at hlost
    split at hlost
    · refine lost_of_setFuture ?_ hlost
      exact (nomatch ·)
    · exact hlost
  | cleanUp n =>
    left
    rw [AdapterConnection.step] at hlost
    split at hlost
    · rw [(popPending_keeps _ _).1] at hlost
      refine lost_of_setFuture ?_ hlost
      exact (nomatch ·)
    · exact hlost
  | lose => exact Or.inr (Or.inl rfl)

theorem placedOrder_eq_some (h : call.placedOrder = some notice) :
    ∃ answers, call.future = .answered { reply := .order notice, answers := answers } := by
  unfold AdapterCall.placedOrder at h
  split at h
  · rename_i notice' answers hfuture
    split at h
    · cases h
    · cases h
      exact ⟨answers, hfuture⟩
  · cases h

theorem notice_of_order {answer : AdapterAnswer}
    (h : .order notice = (AdapterRequest.order key).replyTo answer) :
    notice.clientOrderId = some key ∧ notice.cancelled = false := by
  cases answer with
  | refused => cases h
  | executed orderId clientOrderId =>
    cases h
    exact ⟨rfl, rfl⟩

theorem Aligned.faithful (h : x.Aligned) (hdue : x.Due) (horderly : x.Orderly e) : x.Faithful e := by
  have hafter := (h.step hdue horderly).1
  have hreached : ∀ n message, e = .deliver → x.connected = true → x.inbox.head? = some message →
      message.answers = some n → x.Waiting n →
        ((x.step e).calls[n]?).map AdapterCall.future = some (.answered message) := by
    rintro n message rfl hconnected hhead hanswers hwaiting
    obtain ⟨rest, hinbox⟩ := List.head?_eq_some_iff.mp hhead
    rw [step_deliver hconnected hinbox]
    exact (h.deliver hdue hinbox (horderly hconnected message hhead)).2.2 n hanswers hwaiting
  refine ⟨?_, ?_, hreached, ?_, ?_⟩
  · intro n call message hcall hanswered
    exact (hafter.truthful n call message hcall hanswered).1
  · intro n call hcall hlost
    exact h.lost_step (Option.map_eq_some_iff.mpr ⟨call, hcall, hlost⟩)
  · intro n call key notice hcall hrequest hplaced
    obtain ⟨answers, hfuture⟩ := placedOrder_eq_some hplaced
    obtain ⟨-, answer, hreply⟩ := hafter.truthful n call _ hcall hfuture
    rw [hrequest] at hreply
    exact (notice_of_order hreply).1
  · intro n key notice message he hconnected hhead hanswers hreply hcall
    have hwaiting : x.Waiting n := waiting_iff.mpr ⟨_, hcall, rfl⟩
    obtain ⟨call, hcall', hfuture⟩ :=
      Option.map_eq_some_iff.mp (hreached n message he hconnected hhead hanswers hwaiting)
    obtain ⟨call', hissued, answer, hfits⟩ := h.fits message (List.mem_of_mem_head? hhead) n hanswers
    rw [hcall, Option.some_inj] at hissued
    subst hissued
    rw [hreply] at hfits
    have hkept := (notice_of_order hfits).2
    rw [hcall', Option.bind_some, AdapterCall.placedOrder, hfuture]
    obtain ⟨reply, answers⟩ := message
    cases hreply
    exact if_neg (by rw [hkept]; exact Bool.false_ne_true)

theorem aligned_init : ({} : AdapterConnection).Aligned ∧ ({} : AdapterConnection).Due := by
  refine ⟨⟨?_, ?_, List.Pairwise.nil, ?_, ?_, List.Pairwise.nil, ?_, ?_, ?_, ?_⟩, ?_⟩
  · exact fun _ _ hfind => nomatch hfind
  · exact fun _ => iff_of_false List.not_mem_nil Bool.false_ne_true
  · exact fun _ _ _ _ hcall => nomatch hcall
  · exact fun _ _ hcall => nomatch hcall
  · exact fun _ hn => nomatch hn
  · exact fun _ hmessage => nomatch hmessage
  · exact fun _ hmessage => nomatch hmessage
  · exact fun _ _ _ hcall => nomatch hcall
  · exact fun _ hn => nomatch hn

/-- In a run of orderly events every event is faithful to the callers. -/
theorem faithful_of_orderly {events : List AdapterEvent} (h : Along step Orderly {} events) :
    Along step Faithful {} events :=
  along_imp (fun x => x.Aligned ∧ x.Due) (fun _ _ hx ho => hx.1.step hx.2 ho)
    (fun _ _ hx ho => hx.1.faithful hx.2 ho) aligned_init h

/-- An order is filled after another one has been refused. -/
def filledOrder : List AdapterEvent :=
  [.request (.order "a"), .request (.order "b"), .process .refused,
    .process (.executed "17" none), .deliver, .deliver]

theorem faithful_of_orderly_filledOrder : Along step Faithful {} filledOrder :=
  faithful_of_orderly (by decide)

theorem not_faithful_of_answered {events : List AdapterEvent} (n : ℕ) (message : AdapterMessage)
    (hanswered : ((run step {} (events ++ [e])).calls[n]?).map AdapterCall.future =
      some (.answered message)) (hother : message.answers ≠ some n) :
    ¬ Along step Faithful {} (events ++ [e]) := by
  intro h
  obtain ⟨hlast, -⟩ := ((along_append ..).mp h).2
  rw [run_append] at hanswered
  obtain ⟨call, hcall, hfuture⟩ := Option.map_eq_some_iff.mp hanswered
  exact hother (hlast.own n call message hcall hfuture)

/-- The error of an order that has timed out comes when the next one is on file. -/
def lateError : List AdapterEvent :=
  [.request (.order "a"), .expire 0, .cleanUp 0, .request (.order "b"), .process .refused,
    .process (.executed "17" none)]

/-- A resting order is filled while its cancellation is on the way. -/
def filledMeanwhile : List AdapterEvent :=
  [.request (.cancel "17"),
    .broadcast { cancelled := false, clientOrderId := some "c", orderId := "17" }]

/-- Two orders with one id. -/
def sharedKey : List AdapterEvent :=
  [.request (.order "a"), .request (.order "a"), .process (.executed "17" none)]

/-- The second order is resolved by the error of the first one, a cancellation by the fill, and the
second of two orders with one id by the fill of the first. -/
theorem not_faithful_lateError : ¬ Along step Faithful {} (lateError ++ [.deliver]) ∧
      ¬ Along step Faithful {} (filledMeanwhile ++ [.deliver]) ∧
      ¬ Along step Faithful {} (sharedKey ++ [.deliver]) := by
  refine ⟨?_, ?_, ?_⟩
  · exact not_faithful_of_answered 1 ⟨.error, some 0⟩ (by decide) (by decide)
  · exact not_faithful_of_answered 0 ⟨.order ⟨false, some "c", "17"⟩, none⟩ (by decide)
      (by decide)
  · exact not_faithful_of_answered 1 ⟨.order ⟨false, some "a", "17"⟩, some 0⟩ (by decide)
      (by decide)

end AdapterConnection

end TradingSim.Gateway
