import Mathlib.Data.List.Infix
import TradingSim.Foundations.Windows
import TradingSim.Foundations.Run

/-!
# The in-process queue of one producer and one consumer

Two indices run around an array with one slot more than the capacity, so that a full queue and an empty
one differ. A call loads its own index, loads the other side's and decides, writes or moves out one slot,
and stores its index; the two sides interleave between these steps. The indices stay below the number of
slots and never overflow.
-/

namespace TradingSim.Bot

open Foundations

/-- The parameters of the template: the usable slots, whether copying an item cannot throw, and what
moving an item out leaves in its slot. -/
structure SPSCQueueType (α : Type) where
  capacity : ℕ
  nothrowCopy : Bool
  movedFrom : α → α

namespace SPSCQueueType

variable {α : Type} (q : SPSCQueueType α)

/-- The number of slots, one more than can be used. -/
def storage : ℕ := q.capacity + 1

/-- `wrap`: the index behind the last slot is the first one. -/
def wrap (i : ℕ) : ℕ := if i = q.storage then 0 else i

end SPSCQueueType

/-- How an item is handed to `push`. -/
inductive Passing where
  | copy
  | move
  deriving DecidableEq

/-- Where the producer stands in its call. -/
inductive QueueProducer (α : Type) where
  | idle
  | loaded (how : Passing) (item : α) (head : ℕ)
  | writing (how : Passing) (item : α) (head next : ℕ)
  | storing (item : α) (next : ℕ)
  deriving DecidableEq

/-- Where the consumer stands in its call. -/
inductive QueueConsumer (α : Type) where
  | idle
  | loaded (tail : ℕ)
  | taking (tail : ℕ)
  | storing (item : α) (tail : ℕ)
  deriving DecidableEq

/-- `SPSCQueue`: the two indices, the slots, both sides, and the items accepted and received so far. -/
structure SPSCQueue (α : Type) where
  head : ℕ := 0
  tail : ℕ := 0
  buffer : ℕ → α
  producer : QueueProducer α := .idle
  consumer : QueueConsumer α := .idle
  accepted : List α := []
  received : List α := []

/-- What happens to a queue: a side starts a call or takes its next step, or the assignment of an item
throws, which leaves something in the slot. -/
inductive QueueEvent (α : Type) where
  | push (how : Passing) (item : α)
  | produce
  | throws (left : α)
  | pop
  | consume

namespace SPSCQueue

variable {α : Type} (q : SPSCQueueType α)

/-- The producer's next step: load the tail and decide, write the slot, or store the head. -/
def produce (x : SPSCQueue α) : SPSCQueue α :=
  match x.producer with
  | .idle => x
  | .loaded how item head =>
    let next := q.wrap (head + 1)
    if next = x.tail then { x with producer := .idle }
    else { x with producer := .writing how item head next }
  | .writing _ item head next =>
    { x with buffer := Function.update x.buffer head item, producer := .storing item next }
  | .storing item next =>
    { x with head := next, producer := .idle, accepted := x.accepted ++ [item] }

/-- The copy of an item throws while its slot is written: the call returns. -/
def throws (x : SPSCQueue α) (left : α) : SPSCQueue α :=
  match x.producer with
  | .writing .copy _ head _ =>
    if q.nothrowCopy then x
    else { x with buffer := Function.update x.buffer head left, producer := .idle }
  | _ => x

/-- The consumer's next step: load the head and decide, move the item out, or store the tail. -/
def consume (x : SPSCQueue α) : SPSCQueue α :=
  match x.consumer with
  | .idle => x
  | .loaded tail =>
    if tail = x.head then { x with consumer := .idle }
    else { x with consumer := .taking tail }
  | .taking tail =>
    { x with
      buffer := Function.update x.buffer tail (q.movedFrom (x.buffer tail))
      consumer := .storing (x.buffer tail) tail }
  | .storing item tail =>
    { x with
      tail := q.wrap (tail + 1)
      consumer := .idle
      received := x.received ++ [item] }

/-- One event. A side that is in a call starts no other. -/
def step (x : SPSCQueue α) : QueueEvent α → SPSCQueue α
  | .push how item =>
    match x.producer with
    | .idle => { x with producer := .loaded how item x.head }
    | _ => x
  | .produce => x.produce q
  | .throws left => x.throws q left
  | .pop =>
    match x.consumer with
    | .idle => { x with consumer := .loaded x.tail }
    | _ => x
  | .consume => x.consume q

/-- What a `push` returns with an event, if it returns. -/
def pushReturns (x : SPSCQueue α) (e : QueueEvent α) : Option Bool :=
  match e, x.producer with
  | .produce, .loaded _ _ head => if q.wrap (head + 1) = x.tail then some false else none
  | .produce, .storing _ _ => some true
  | .throws _, .writing .copy _ _ _ => if q.nothrowCopy then none else some false
  | _, _ => none

/-- What a `pop` returns with an event, if it returns. -/
def popReturns (x : SPSCQueue α) (e : QueueEvent α) : Option Bool :=
  match e, x.consumer with
  | .consume, .loaded tail => if tail = x.head then some false else none
  | .consume, .storing _ _ => some true
  | _, _ => none

def size (x : SPSCQueue α) : ℕ :=
  if x.tail ≤ x.head then x.head - x.tail else q.storage - x.tail + x.head

/-- A queue that was just created, whatever is in its slots. -/
def init (buffer : ℕ → α) : SPSCQueue α := { buffer := buffer }

/-- The items that are still to be received: the one that is moved out, and those in the slots. -/
def outstanding (x : SPSCQueue α) : List α :=
  match x.consumer with
  | .storing item tail => item :: window q.storage x.buffer (tail + 1) (x.size q - 1)
  | _ => window q.storage x.buffer x.tail (x.size q)

/-! ### The invariant -/

/-- What holds of the producer between two of its steps. -/
def ProducerInv (x : SPSCQueue α) : QueueProducer α → Prop
  | .idle => True
  | .loaded _ _ head => head = x.head
  | .writing _ _ head next => head = x.head ∧ next = (x.accepted.length + 1) % q.storage ∧
    x.accepted.length < x.received.length + q.capacity
  | .storing item next => next = (x.accepted.length + 1) % q.storage ∧
    x.accepted.length < x.received.length + q.capacity ∧ x.buffer (x.accepted.length % q.storage) = item

/-- What holds of the consumer between two of its steps, and the items that it has still to receive. -/
def ConsumerInv (x : SPSCQueue α) (unread : List α) : QueueConsumer α → Prop
  | .idle => Holds q.storage x.buffer x.received.length unread
  | .loaded tail => tail = x.tail ∧ Holds q.storage x.buffer x.received.length unread
  | .taking tail => tail = x.tail ∧ unread ≠ [] ∧ Holds q.storage x.buffer x.received.length unread
  | .storing item tail => tail = x.tail ∧ ∃ rest, unread = item :: rest ∧
    Holds q.storage x.buffer (x.received.length + 1) rest

/-- The indices count the accepted and the received items around the slots. -/
structure Inv (x : SPSCQueue α) : Prop where
  head : x.head = x.accepted.length % q.storage
  tail : x.tail = x.received.length % q.storage
  unread : ∃ unread, x.accepted = x.received ++ unread ∧ unread.length ≤ q.capacity ∧
    x.ConsumerInv q unread x.consumer
  producer : x.ProducerInv q x.producer

variable {q}

/-! ### Indices that count -/

theorem storage_pos : 0 < q.storage := Nat.succ_pos _

/-- The index behind that of a count is that of the next count. -/
theorem wrap_mod (n : ℕ) : q.wrap (n % q.storage + 1) = (n + 1) % q.storage := by
  have hlt : n % q.storage < q.storage := Nat.mod_lt n storage_pos
  rw [← Nat.mod_add_mod n q.storage 1, SPSCQueueType.wrap]
  split
  · rename_i hlast
    rw [hlast, Nat.mod_self]
  · rename_i hinner
    exact (Nat.mod_eq_of_lt (show n % q.storage + 1 < q.storage by omega)).symm

/-- The next head meets the tail exactly when the capacity is used up. -/
theorem full_iff {a r : ℕ} (hle : r ≤ a) (hroom : a ≤ r + q.capacity) :
    (a + 1) % q.storage = r % q.storage ↔ a = r + q.capacity := by
  constructor
  · intro hmeet
    by_contra hfree
    have hround : a + 1 - r < q.storage := by
      rw [SPSCQueueType.storage]
      omega
    have hne : (r + 0) % q.storage ≠ (r + (a + 1 - r)) % q.storage := mod_ne_mod (by omega) hround
    rw [show r + (a + 1 - r) = a + 1 by omega, Nat.add_zero] at hne
    exact hne hmeet.symm
  · rintro rfl
    rw [show r + q.capacity + 1 = r + q.storage from rfl, Nat.add_mod_right]

/-- The indices meet exactly when everything has been received. -/
theorem empty_iff {a r : ℕ} (hle : r ≤ a) (hroom : a ≤ r + q.capacity) :
    r % q.storage = a % q.storage ↔ a = r := by
  constructor
  · intro hmeet
    by_contra hfilled
    have hround : a - r < q.storage := by
      rw [SPSCQueueType.storage]
      omega
    have hne : (r + 0) % q.storage ≠ (r + (a - r)) % q.storage := mod_ne_mod (by omega) hround
    rw [show r + (a - r) = a by omega, Nat.add_zero] at hne
    exact hne hmeet
  · rintro rfl
    rfl

theorem size_counts {x : SPSCQueue α} {a r : ℕ} (hhead : x.head = a % q.storage)
    (htail : x.tail = r % q.storage) (hle : r ≤ a) (hroom : a ≤ r + q.capacity) : x.size q = a - r := by
  have hstorage : q.storage = q.capacity + 1 := rfl
  have hdistance : (a % q.storage + (q.storage - r % q.storage)) % q.storage = a - r :=
    distance_mod hle (by omega)
  have ha : a % q.storage < q.storage := Nat.mod_lt a storage_pos
  have hr : r % q.storage < q.storage := Nat.mod_lt r storage_pos
  rw [size, hhead, htail, ← hdistance]
  generalize a % q.storage = head at ha
  generalize r % q.storage = tail at hr
  split
  · rename_i hordered
    rw [show head + (q.storage - tail) = head - tail + q.storage by omega, Nat.add_mod_right]
    exact (Nat.mod_eq_of_lt (by omega)).symm
  · rename_i hwrapped
    rw [Nat.mod_eq_of_lt (by omega)]
    omega

variable {x : SPSCQueue α}

theorem Inv.counts (h : x.Inv q) :
    x.received.length ≤ x.accepted.length ∧ x.accepted.length ≤ x.received.length + q.capacity := by
  obtain ⟨unread, hsplit, hbound, -⟩ := h.unread
  have hlength := congrArg List.length hsplit
  rw [List.length_append] at hlength
  omega

/-! ### The steps keep the invariant -/

theorem inv_init (buffer : ℕ → α) : (init buffer).Inv q where
  head := (Nat.zero_mod _).symm
  tail := (Nat.zero_mod _).symm
  unread := ⟨[], rfl, Nat.zero_le _, holds_nil _ _ _⟩
  producer := trivial

/-- Writing behind the accepted items does not disturb the consumer. -/
theorem consumerInv_update {unread : List α} (hsplit : x.accepted = x.received ++ unread)
    (hroom : unread.length < q.storage) (item : α) (h : x.ConsumerInv q unread x.consumer) :
    ConsumerInv q { x with buffer := Function.update x.buffer (x.accepted.length % q.storage) item }
      unread x.consumer := by
  have hlength : x.accepted.length = x.received.length + unread.length := by
    rw [hsplit, List.length_append]
  cases hphase : x.consumer with
  | idle =>
    rw [hphase] at h
    rw [hlength]
    exact Holds.update h le_rfl hroom item
  | loaded tail =>
    rw [hphase] at h
    refine ⟨h.1, ?_⟩
    rw [hlength]
    exact h.2.update le_rfl hroom item
  | taking tail =>
    rw [hphase] at h
    refine ⟨h.1, h.2.1, ?_⟩
    rw [hlength]
    exact h.2.2.update le_rfl hroom item
  | storing taken tail =>
    rw [hphase] at h
    obtain ⟨htail, rest, rfl, hholds⟩ := h
    refine ⟨htail, rest, rfl, ?_⟩
    rw [List.length_cons] at hlength hroom
    rw [hlength, show x.received.length + (rest.length + 1) =
      x.received.length + 1 + rest.length by omega]
    exact hholds.update le_rfl (by omega) item

theorem consumerInv_accept {unread : List α} {item : α} (hsplit : x.accepted = x.received ++ unread)
    (hwritten : x.buffer (x.accepted.length % q.storage) = item) (h : x.ConsumerInv q unread x.consumer) :
    x.ConsumerInv q (unread ++ [item]) x.consumer := by
  have hlength : x.accepted.length = x.received.length + unread.length := by
    rw [hsplit, List.length_append]
  have hlast : ∀ lo, lo = x.accepted.length → Holds q.storage x.buffer lo [item] := by
    rintro lo rfl i hi
    obtain rfl : i = 0 := by simpa using hi
    exact hwritten
  cases hphase : x.consumer with
  | idle =>
    rw [hphase] at h
    exact holds_append.mpr ⟨h, hlast _ hlength.symm⟩
  | loaded tail =>
    rw [hphase] at h
    exact ⟨h.1, holds_append.mpr ⟨h.2, hlast _ hlength.symm⟩⟩
  | taking tail =>
    rw [hphase] at h
    exact ⟨h.1, by simp, holds_append.mpr ⟨h.2.2, hlast _ hlength.symm⟩⟩
  | storing taken tail =>
    rw [hphase] at h
    obtain ⟨htail, rest, rfl, hholds⟩ := h
    rw [List.length_cons] at hlength
    exact ⟨htail, rest ++ [item], rfl, holds_append.mpr ⟨hholds, hlast _ (by omega)⟩⟩

theorem inv_produce (h : x.Inv q) : (x.produce q).Inv q := by
  obtain ⟨unread, hsplit, hbound, hconsumer⟩ := h.unread
  have hproducer := h.producer
  have hlength : x.accepted.length = x.received.length + unread.length := by
    rw [hsplit, List.length_append]
  obtain ⟨hle, hroom⟩ := h.counts
  unfold produce
  cases hphase : x.producer with
  | idle => exact h
  | loaded how item head =>
    rw [hphase] at hproducer
    obtain rfl : head = x.head := hproducer
    dsimp only
    split
    · exact ⟨h.head, h.tail, h.unread, trivial⟩
    · rename_i hfree
      refine ⟨h.head, h.tail, h.unread, rfl, ?_, ?_⟩
      · rw [h.head, wrap_mod]
      · refine lt_of_le_of_ne hroom fun hfull => hfree ?_
        rw [h.head, wrap_mod, h.tail]
        exact (full_iff hle hroom).mpr hfull
  | writing how item head next =>
    rw [hphase] at hproducer
    obtain ⟨rfl, hnext, hfree⟩ := hproducer
    dsimp only
    rw [show Function.update x.buffer x.head item =
      Function.update x.buffer (x.accepted.length % q.storage) item by rw [h.head]]
    refine ⟨h.head, h.tail, ⟨unread, hsplit, hbound, ?_⟩, hnext, hfree, ?_⟩
    · exact consumerInv_update hsplit (Nat.lt_succ_of_le hbound) item hconsumer
    · exact Function.update_self _ _ _
  | storing item next =>
    rw [hphase] at hproducer
    obtain ⟨hnext, hfree, hwritten⟩ := hproducer
    have hlater := consumerInv_accept hsplit hwritten hconsumer
    refine ⟨?_, h.tail, ⟨unread ++ [item], ?_, ?_, hlater⟩, trivial⟩
    · rw [hnext, List.length_append, List.length_singleton]
    · rw [← List.append_assoc, ← hsplit]
    · rw [List.length_append, List.length_singleton]
      omega

/-- An assignment that throws has written a slot that nobody reads. -/
theorem inv_throws (h : x.Inv q) (left : α) : (x.throws q left).Inv q := by
  obtain ⟨unread, hsplit, hbound, hconsumer⟩ := h.unread
  have hproducer := h.producer
  unfold throws
  cases hphase : x.producer with
  | idle => exact h
  | loaded how item head => exact h
  | writing how item head next =>
    rw [hphase] at hproducer
    obtain ⟨rfl, -⟩ := hproducer
    cases how with
    | move => exact h
    | copy =>
      dsimp only
      split
      · exact h
      · rw [show Function.update x.buffer x.head left =
          Function.update x.buffer (x.accepted.length % q.storage) left by rw [h.head]]
        refine ⟨h.head, h.tail, ⟨unread, hsplit, hbound, ?_⟩, trivial⟩
        exact consumerInv_update hsplit (Nat.lt_succ_of_le hbound) left hconsumer
  | storing item next => exact h

/-- Moving the first unread item out of its slot leaves the producer's slot alone. -/
theorem producerInv_update {i : ℕ} (hi : x.accepted.length < x.received.length + q.capacity →
      x.accepted.length % q.storage ≠ i) (left : α) (h : x.ProducerInv q x.producer) :
    ProducerInv q { x with buffer := Function.update x.buffer i left } x.producer := by
  cases hphase : x.producer with
  | idle => trivial
  | loaded how item head =>
    rw [hphase] at h
    exact h
  | writing how item head next =>
    rw [hphase] at h
    exact h
  | storing item next =>
    rw [hphase] at h
    obtain ⟨hnext, hfree, hwritten⟩ := h
    exact ⟨hnext, hfree, (Function.update_of_ne (hi hfree) _ _).trans hwritten⟩

theorem producerInv_receive (item : α) (h : x.ProducerInv q x.producer) :
    ProducerInv q { x with received := x.received ++ [item] } x.producer := by
  have hroom : x.accepted.length < x.received.length + q.capacity →
      x.accepted.length < (x.received ++ [item]).length + q.capacity := by
    rw [List.length_append]
    omega
  cases hphase : x.producer with
  | idle => trivial
  | loaded how _ head =>
    rw [hphase] at h
    exact h
  | writing how _ head next =>
    rw [hphase] at h
    exact ⟨h.1, h.2.1, hroom h.2.2⟩
  | storing _ next =>
    rw [hphase] at h
    exact ⟨h.1, hroom h.2.1, h.2.2⟩

theorem inv_consume (h : x.Inv q) : (x.consume q).Inv q := by
  obtain ⟨unread, hsplit, hbound, hconsumer⟩ := h.unread
  have hlength : x.accepted.length = x.received.length + unread.length := by
    rw [hsplit, List.length_append]
  obtain ⟨hle, hroom⟩ := h.counts
  unfold consume
  cases hphase : x.consumer with
  | idle => exact h
  | loaded tail =>
    rw [hphase] at hconsumer
    obtain ⟨rfl, hholds⟩ := hconsumer
    dsimp only
    split
    · exact ⟨h.head, h.tail, ⟨unread, hsplit, hbound, hholds⟩, h.producer⟩
    · rename_i hfilled
      refine ⟨h.head, h.tail, ⟨unread, hsplit, hbound, rfl, ?_, hholds⟩, h.producer⟩
      rintro rfl
      rw [h.head, h.tail] at hfilled
      exact hfilled ((empty_iff hle hroom).mpr hlength)
  | taking tail =>
    rw [hphase] at hconsumer
    obtain ⟨rfl, hunread, hholds⟩ := hconsumer
    obtain ⟨item, rest, rfl⟩ := List.exists_cons_of_ne_nil hunread
    rw [List.length_cons] at hlength hbound
    have hfirst : x.buffer x.tail = item := by
      rw [h.tail]
      exact hholds 0 (Nat.succ_pos _)
    have hrest : Holds q.storage x.buffer (x.received.length + 1) rest := hholds.drop (Nat.succ_pos _)
    have hround : 1 + rest.length ≤ q.storage := by
      rw [SPSCQueueType.storage]
      omega
    refine ⟨h.head, h.tail, ⟨item :: rest, hsplit, hbound, rfl, rest, ?_, ?_⟩, ?_⟩
    · rw [hfirst]
    · rw [h.tail]
      exact hrest.update_before Nat.one_pos hround _
    · refine producerInv_update (fun hfree => ?_) _ h.producer
      rw [h.tail]
      intro hmeet
      have hempty := (empty_iff hle hroom).mp hmeet.symm
      omega
  | storing item tail =>
    rw [hphase] at hconsumer
    obtain ⟨rfl, rest, rfl, hholds⟩ := hconsumer
    dsimp only
    refine ⟨h.head, ?_, ⟨rest, ?_, ?_, ?_⟩, producerInv_receive item h.producer⟩
    · rw [h.tail, wrap_mod, List.length_append, List.length_singleton]
    · rw [List.append_assoc, List.singleton_append, hsplit]
    · exact (Nat.le_succ _).trans hbound
    · change Holds q.storage x.buffer (x.received ++ [item]).length rest
      rw [List.length_append, List.length_singleton]
      exact hholds

theorem inv_step (h : x.Inv q) (e : QueueEvent α) : (x.step q e).Inv q := by
  cases e with
  | push how item =>
    unfold step
    cases hphase : x.producer with
    | idle => exact ⟨h.head, h.tail, h.unread, rfl⟩
    | loaded _ _ _ => exact h
    | writing _ _ _ _ => exact h
    | storing _ _ => exact h
  | produce => exact inv_produce h
  | throws left => exact inv_throws h left
  | pop =>
    obtain ⟨unread, hsplit, hbound, hconsumer⟩ := h.unread
    unfold step
    cases hphase : x.consumer with
    | idle =>
      rw [hphase] at hconsumer
      exact ⟨h.head, h.tail, ⟨unread, hsplit, hbound, rfl, hconsumer⟩, h.producer⟩
    | loaded _ => exact h
    | taking _ => exact h
    | storing _ _ => exact h
  | consume => exact inv_consume h

/-! ### The queue is lossless -/

variable (q)

/-- What was accepted is what was received and what is outstanding, no more than the capacity, and
`size` between two calls is their difference. -/
structure Lossless (x : SPSCQueue α) : Prop where
  queue : x.accepted = x.received ++ x.outstanding q
  bounded : (x.outstanding q).length ≤ q.capacity
  size : x.producer = .idle → x.consumer = .idle →
    x.size q = x.accepted.length - x.received.length

variable {q}

theorem Inv.lossless (h : x.Inv q) : x.Lossless q := by
  obtain ⟨unread, hsplit, hbound, hconsumer⟩ := h.unread
  obtain ⟨hle, hroom⟩ := h.counts
  have hsize : x.size q = x.accepted.length - x.received.length :=
    size_counts h.head h.tail hle hroom
  have hlength : x.size q = unread.length := by
    rw [hsize, hsplit, List.length_append, Nat.add_sub_cancel_left]
  have houtstanding : x.outstanding q = unread := by
    have hslots : x.tail % q.storage = x.received.length % q.storage := by
      rw [h.tail, Nat.mod_mod]
    have hall : Holds q.storage x.buffer x.received.length unread →
        window q.storage x.buffer x.tail (x.size q) = unread := by
      intro hholds
      rw [window_congr _ _ hslots, hlength, window_eq hholds]
    unfold outstanding
    cases hphase : x.consumer with
    | idle =>
      rw [hphase] at hconsumer
      exact hall hconsumer
    | loaded tail =>
      rw [hphase] at hconsumer
      exact hall hconsumer.2
    | taking tail =>
      rw [hphase] at hconsumer
      exact hall hconsumer.2.2
    | storing item tail =>
      rw [hphase] at hconsumer
      obtain ⟨rfl, rest, rfl, hholds⟩ := hconsumer
      have hnext : (x.tail + 1) % q.storage = (x.received.length + 1) % q.storage := by
        rw [h.tail, Nat.mod_add_mod]
      dsimp only
      rw [window_congr _ _ hnext, hlength, List.length_cons, Nat.add_sub_cancel, window_eq hholds]
  refine ⟨?_, ?_, fun _ _ => hsize⟩
  · rw [houtstanding]
    exact hsplit
  · rw [houtstanding]
    exact hbound

variable (q)

/-- An event leaves a lossless queue. A `push` fails on a full queue or when the copy throws, a `pop` on an
empty queue. -/
def Honest (x : SPSCQueue α) (e : QueueEvent α) : Prop :=
  (x.step q e).Lossless q ∧
    (x.pushReturns q e = some false →
      x.accepted.length = x.received.length + q.capacity ∨ ∃ left, e = .throws left) ∧
    (x.popReturns e = some false → x.accepted.length = x.received.length)

variable {q}

theorem Inv.honest (h : x.Inv q) (e : QueueEvent α) : x.Honest q e := by
  obtain ⟨hle, hroom⟩ := h.counts
  have hproducer := h.producer
  obtain ⟨unread, -, -, hconsumer⟩ := h.unread
  refine ⟨(inv_step h e).lossless, ?_, ?_⟩
  · cases e with
    | push how item => exact fun hfails => nomatch hfails
    | pop => exact fun hfails => nomatch hfails
    | consume => exact fun hfails => nomatch hfails
    | throws left => exact fun _ => Or.inr ⟨left, rfl⟩
    | produce =>
      unfold pushReturns
      cases hphase : x.producer with
      | idle => exact fun hfails => nomatch hfails
      | writing how item head next => exact fun hfails => nomatch hfails
      | storing item next => exact fun hfails => nomatch hfails
      | loaded how item head =>
        rw [hphase] at hproducer
        obtain rfl : head = x.head := hproducer
        dsimp only
        split
        · rename_i hmeet
          rw [h.head, wrap_mod, h.tail] at hmeet
          exact fun _ => Or.inl ((full_iff hle hroom).mp hmeet)
        · exact fun hfails => nomatch hfails
  · cases e with
    | push how item => exact fun hfails => nomatch hfails
    | produce => exact fun hfails => nomatch hfails
    | throws left => exact fun hfails => nomatch hfails
    | pop => exact fun hfails => nomatch hfails
    | consume =>
      unfold popReturns
      cases hphase : x.consumer with
      | idle => exact fun hfails => nomatch hfails
      | taking tail => exact fun hfails => nomatch hfails
      | storing item tail => exact fun hfails => nomatch hfails
      | loaded tail =>
        rw [hphase] at hconsumer
        obtain ⟨rfl, -⟩ := hconsumer
        dsimp only
        split
        · rename_i hmeet
          rw [h.head, h.tail] at hmeet
          exact fun _ => (empty_iff hle hroom).mp hmeet
        · exact fun hfails => nomatch hfails

/-- In every interleaving of the producer's and the consumer's steps, the queue delivers the accepted
items in their order, each once; a `push` fails only when the capacity is outstanding or the copy of its
item throws, and a `pop` only when nothing is. -/
theorem honest_run (q : SPSCQueueType α) (buffer : ℕ → α) (events : List (QueueEvent α)) :
    Along (step q) (Honest q) (init buffer) events := by
  have hall : Along (step q) (fun _ _ => True) (init buffer) events := by
    rw [along_input_iff]
    exact fun _ _ => trivial
  exact along_imp (Inv q) (fun x e hx _ => inv_step hx e) (fun x e hx _ => hx.honest e)
    (inv_init buffer) hall

/-- A queue with one usable slot, for items whose copy may throw. -/
def single : SPSCQueueType ℕ where
  capacity := 1
  nothrowCopy := false
  movedFrom := id

/-- The copy of the first item throws: the `push` fails, and at no moment was anything outstanding. -/
theorem not_full_throws :
    let events : List (QueueEvent ℕ) := [.push .copy 7, .produce, .throws 0]
    let x := init fun _ => 0
    (run (step single) x (events.take 2)).pushReturns single (.throws 0) = some false ∧
    ∀ n ≤ 3, (run (step single) x (events.take n)).accepted.length ≠
      (run (step single) x (events.take n)).received.length + single.capacity := by
  decide

end SPSCQueue

end TradingSim.Bot
