import Mathlib.Algebra.Group.Int.Defs
import Mathlib.Algebra.Group.Nat.Defs
import Mathlib.Data.Int.Init
import Mathlib.Data.List.Basic
import Mathlib.Logic.Function.Basic

/-!
# The shared-memory ring

One producer and one consumer share a head, a tail and an array of slots. An operation loads its
own index and the other side's, decides how many items it moves, copies them slot by slot and
stores its index; the two sides interleave between these steps. In C++ the indices and their
differences wrap modulo `2 ^ 64`. In Python they are unbounded integers; storing one that does not
fit 64 bits raises, and leaves zero in its place.

The items that were accepted and received so far are recorded beside the shared memory.
-/

namespace TradingSim.Shm

/-- The language an operation is run in. -/
inductive Language where
  | cpp
  | python
  deriving DecidableEq

/-- An operation of the producer. -/
inductive PushOp (α : Type) where
  | tryPush (item : α)
  | bulkPush (items : List α)

/-- An operation of the consumer. -/
inductive PopOp where
  | tryPop
  | bulkPop (count : ℕ)
  deriving DecidableEq

def PushOp.items {α : Type} : PushOp α → List α
  | .tryPush item => [item]
  | .bulkPush items => items

/-- The size of a ring: a power of two that fits 64 bits. -/
structure RingConfig where
  exponent : ℕ
  exponent_lt : exponent < 64

namespace RingConfig

variable (c : RingConfig)

/-- The number of slots. -/
def capacity : ℕ := 2 ^ c.exponent

/-- The mask that reduces an index to its slot. -/
def mask : ℕ := c.capacity - 1

end RingConfig

/-- The difference of two 64-bit indices. -/
def sub64 (a b : ℕ) : ℕ := (a + (2 ^ 64 - b)) % 2 ^ 64

/-- How many items a push moves at the indices it loaded; none if it is refused. -/
def pushCount {α : Type} (c : RingConfig) (head tail : ℕ) : Language → PushOp α → Option ℤ
  | .cpp, .tryPush _ => if c.capacity ≤ sub64 head tail then none else some 1
  | .cpp, .bulkPush items =>
    let available := sub64 c.capacity (sub64 head tail)
    some (min items.length available : ℕ)
  | .python, .tryPush _ => if (c.capacity : ℤ) ≤ head - tail then none else some 1
  | .python, .bulkPush items =>
    let available : ℤ := c.capacity - (head - tail)
    some (min items.length available)

/-- How many items a pop moves at the indices it loaded; none if it finds the ring empty. -/
def popCount (head tail : ℕ) : Language → PopOp → Option ℤ
  | _, .tryPop => if head = tail then none else some 1
  | .cpp, .bulkPop count => some (min count (sub64 head tail) : ℕ)
  | .python, .bulkPop count => some (min (count : ℤ) (head - tail))

/-- The slot of the `i`-th of `count` items from an index on. The C++ code copies up to the end
of the array and then from its start. -/
def slotOf (c : RingConfig) (index count i : ℕ) : Language → ℕ
  | .cpp =>
    let start := index &&& c.mask
    let chunk := if (start + count) % 2 ^ 64 ≤ c.capacity then count else c.capacity - start
    if i < chunk then start + i else i - chunk
  | .python => (index + i) &&& c.mask

/-- Whether an index can be stored: in Python it has to fit 64 bits. -/
def fits64 : Language → ℤ → Bool
  | .cpp, _ => true
  | .python, index => 0 ≤ index ∧ index < 2 ^ 64

/-- What storing an index leaves in its place. `pack_into` has cleared the bytes when it raises. -/
def storedIndex (lang : Language) (index : ℤ) : ℕ :=
  if fits64 lang index then (index % 2 ^ 64).toNat else 0

/-- Where the producer stands in its operation. -/
inductive Producer (α : Type) where
  | idle
  | loaded (lang : Language) (op : PushOp α) (head : ℕ)
  | copying (lang : Language) (head : ℕ) (count : ℤ) (items : List α) (done : ℕ)

/-- Where the consumer stands in its operation. -/
inductive Consumer (α : Type) where
  | idle
  | loaded (lang : Language) (op : PopOp) (tail : ℕ)
  | copying (lang : Language) (tail : ℕ) (count : ℤ) (got : List α)

/-- The shared memory, both sides, and the items accepted and received so far. -/
structure Ring (α : Type) where
  head : ℕ := 0
  tail : ℕ := 0
  data : ℕ → α
  producer : Producer α := .idle
  consumer : Consumer α := .idle
  accepted : List α := []
  received : List α := []

/-- What happens to a ring: a side starts an operation or takes its next step, or the producer's
operation is abandoned by an exception. -/
inductive RingEvent (α : Type) where
  | push (lang : Language) (op : PushOp α)
  | produce
  | abandon
  | pop (lang : Language) (op : PopOp)
  | consume

namespace Ring

variable {α : Type} (c : RingConfig)

/-- The producer's next step: load the tail and decide, copy one item, or store the head. -/
def produce (x : Ring α) : Ring α :=
  match x.producer with
  | .idle => x
  | .loaded lang op head =>
    match pushCount c head x.tail lang op with
    | none => { x with producer := .idle }
    | some count =>
      { x with producer := .copying lang head count (op.items.take count.toNat) 0 }
  | .copying lang head count items done =>
    match items[done]? with
    | some item =>
      { x with
        data := Function.update x.data (slotOf c head items.length done lang) item
        producer := .copying lang head count items (done + 1) }
    | none =>
      { x with
        head := storedIndex lang (head + count)
        producer := .idle
        accepted := if fits64 lang (head + count) then x.accepted ++ items else x.accepted }

/-- The consumer's next step: load the head and decide, copy one item, or store the tail. -/
def consume (x : Ring α) : Ring α :=
  match x.consumer with
  | .idle => x
  | .loaded lang op tail =>
    match popCount x.head tail lang op with
    | none => { x with consumer := .idle }
    | some count => { x with consumer := .copying lang tail count [] }
  | .copying lang tail count got =>
    if got.length < count.toNat then
      { x with
        consumer := .copying lang tail count
          (got ++ [x.data (slotOf c tail count.toNat got.length lang)]) }
    else
      { x with
        tail := storedIndex lang (tail + count)
        consumer := .idle
        received := if fits64 lang (tail + count) then x.received ++ got else x.received }

/-- One event. A side that is in an operation starts no other. -/
def step (x : Ring α) : RingEvent α → Ring α
  | .push lang op =>
    match x.producer with
    | .idle => { x with producer := .loaded lang op x.head }
    | _ => x
  | .produce => x.produce c
  | .abandon => { x with producer := .idle }
  | .pop lang op =>
    match x.consumer with
    | .idle => { x with consumer := .loaded lang op x.tail }
    | _ => x
  | .consume => x.consume c

/-- A ring that was just created, whatever is in its slots. -/
def init (data : ℕ → α) : Ring α := { data := data }

/-- What a consumer finds between the indices. -/
def unread (x : Ring α) : List α :=
  (List.range (sub64 x.head x.tail)).map fun i => x.data ((x.tail + i) &&& c.mask)

end Ring

end TradingSim.Shm
