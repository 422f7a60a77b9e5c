import Mathlib.Data.List.Infix
import Mathlib.Tactic.NormNum
import Mathlib.Tactic.SplitIfs
import TradingSim.Foundations.Windows
import TradingSim.Foundations.Run
import TradingSim.Shm.RingBuffer

/-!
# The ring is a lossless queue while no Python operation misjudges wrapped indices

Both indices count items modulo `2 ^ 64`, and at most `capacity` items lie between them. The C++
operations subtract modulo `2 ^ 64`. The Python operations subtract as integers; once the head has
wrapped and the tail has not, a pop of several items finds a negative number and moves the tail back
onto the head, and a push finds room that is not there.
-/

namespace TradingSim.Shm

open Foundations

namespace RingConfig

variable (c : RingConfig)

theorem capacity_pos : 0 < c.capacity := Nat.two_pow_pos c.exponent

theorem capacity_le : c.capacity ≤ 2 ^ 63 :=
  Nat.pow_le_pow_right (by norm_num) (Nat.lt_succ_iff.mp c.exponent_lt)

theorem and_mask (n : ℕ) : n &&& c.mask = n % c.capacity :=
  Nat.and_two_pow_sub_one_eq_mod n c.exponent

/-- An index kept modulo `2 ^ 64` addresses the slot of its count. -/
theorem mod_capacity (n i : ℕ) : (n % 2 ^ 64 + i) % c.capacity = (n + i) % c.capacity := by
  have hdvd : c.capacity ∣ 2 ^ 64 := Nat.pow_dvd_pow 2 c.exponent_lt.le
  rw [Nat.add_mod, Nat.mod_mod_of_dvd _ hdvd, ← Nat.add_mod]

end RingConfig

section Arithmetic

variable {α : Type} {c : RingConfig}

theorem sub64_of_le {a b : ℕ} (hle : b ≤ a) (ha : a < 2 ^ 64) : sub64 a b = a - b := by
  unfold sub64
  omega

/-- The wrapped difference of the indices is the number of unread items. -/
theorem sub64_counts {a r : ℕ} (hle : r ≤ a) (hroom : a - r ≤ c.capacity) :
    sub64 (a % 2 ^ 64) (r % 2 ^ 64) = a - r := by
  have hcap := c.capacity_le
  exact distance_mod hle (by omega)

theorem slotOf_counts {n count i : ℕ} (hi : i < count) (hcount : count ≤ c.capacity)
    (lang : Language) : slotOf c (n % 2 ^ 64) count i lang = (n + i) % c.capacity := by
  have hcap := c.capacity_le
  have hpos := c.capacity_pos
  cases lang with
  | python => rw [slotOf, c.and_mask, c.mod_capacity]
  | cpp =>
    have hstart : n % 2 ^ 64 &&& c.mask = n % c.capacity := by
      rw [c.and_mask]
      simpa using c.mod_capacity n 0
    have hlt : n % c.capacity < c.capacity := Nat.mod_lt n hpos
    have hfit : (n % c.capacity + count) % 2 ^ 64 = n % c.capacity + count :=
      Nat.mod_eq_of_lt (by omega)
    simp only [slotOf, hstart, hfit]
    rw [Nat.add_mod n i, Nat.mod_eq_of_lt (lt_of_lt_of_le hi hcount)]
    have hround : (n % c.capacity + i) % c.capacity =
        if n % c.capacity + i < c.capacity then n % c.capacity + i
        else n % c.capacity + i - c.capacity := by
      split
      · rename_i hsmall
        exact Nat.mod_eq_of_lt hsmall
      · rename_i hlarge
        rw [Nat.mod_eq_sub_mod (by omega), Nat.mod_eq_of_lt (by omega)]
    rw [hround]
    split_ifs <;> omega

/-- A push that is not misled by wrapped indices moves a number of its items that fits. -/
theorem pushCount_counts {a r : ℕ} (hle : r ≤ a) (hroom : a - r ≤ c.capacity) {lang : Language}
    {op : PushOp α} (hsafe : lang = .cpp ∨ r % 2 ^ 64 ≤ a % 2 ^ 64 ∨
      op.items.length + sub64 (a % 2 ^ 64) (r % 2 ^ 64) ≤ c.capacity) {count : ℤ}
    (h : pushCount c (a % 2 ^ 64) (r % 2 ^ 64) lang op = some count) :
    ∃ n : ℕ, count = n ∧ n ≤ op.items.length ∧ a - r + n ≤ c.capacity := by
  have hcap := c.capacity_le
  have hdist := sub64_counts hle hroom
  cases lang with
  | cpp =>
    cases op with
    | tryPush item =>
      simp only [pushCount, hdist] at h
      split at h
      · cases h
      · cases h
        exact ⟨1, rfl, le_rfl, by omega⟩
    | bulkPush items =>
      simp only [pushCount, hdist, sub64_of_le hroom (by omega : c.capacity < 2 ^ 64),
        Option.some.injEq] at h
      exact ⟨_, h.symm, min_le_left _ _, by omega⟩
  | python =>
    cases op with
    | tryPush item =>
      simp only [pushCount] at h
      split at h
      · cases h
      · cases h
        refine ⟨1, rfl, le_rfl, ?_⟩
        simp only [PushOp.items, List.length_singleton, reduceCtorEq, false_or] at hsafe
        obtain hsame | hfits := hsafe
        · omega
        · omega
    | bulkPush items =>
      simp only [pushCount, Option.some.injEq] at h
      simp only [PushOp.items, reduceCtorEq, false_or] at hsafe ⊢
      refine ⟨count.toNat, ?_, ?_, ?_⟩
      all_goals
        obtain hsame | hfits := hsafe
        · omega
        · omega

/-- A pop that is not misled by wrapped indices moves no more items than are unread. -/
theorem popCount_counts {a r : ℕ} (hle : r ≤ a) (hroom : a - r ≤ c.capacity) {lang : Language}
    {op : PopOp} (hsafe : lang = .cpp ∨ r % 2 ^ 64 ≤ a % 2 ^ 64 ∨ op = .tryPop) {count : ℤ}
    (h : popCount (a % 2 ^ 64) (r % 2 ^ 64) lang op = some count) : ∃ n : ℕ, count = n ∧ n ≤ a - r := by
  have hdist := sub64_counts hle hroom
  cases op with
  | tryPop =>
    have hcount : a % 2 ^ 64 ≠ r % 2 ^ 64 ∧ count = 1 := by
      cases lang <;> simp only [popCount] at h <;> split at h <;> simp_all
    refine ⟨1, hcount.2, ?_⟩
    by_contra hempty
    have hsame : a = r := by omega
    exact hcount.1 (congrArg (· % 2 ^ 64) hsame)
  | bulkPop asked =>
    cases lang with
    | cpp =>
      simp only [popCount, hdist, Option.some.injEq] at h
      exact ⟨_, h.symm, min_le_right _ _⟩
    | python =>
      simp only [reduceCtorEq, false_or, or_false] at hsafe
      simp only [popCount, Option.some.injEq] at h
      exact ⟨count.toNat, by omega, by omega⟩

/-- An index that can be stored counts on modulo `2 ^ 64`. -/
theorem storedIndex_counts {lang : Language} {n moved : ℕ}
    (h : fits64 lang ((n % 2 ^ 64 : ℕ) + (moved : ℤ)) = true) :
    storedIndex lang ((n % 2 ^ 64 : ℕ) + (moved : ℤ)) = (n + moved) % 2 ^ 64 := by
  rw [storedIndex, if_pos h]
  omega

end Arithmetic

namespace Ring

variable {α : Type} (c : RingConfig)

/-- A Python push that loaded a head below the tail has room for all its items, a Python pop of several
items did not load a head below its tail, and neither is about to store an index that does not fit. -/
def WrapSafe (x : Ring α) : RingEvent α → Prop
  | .produce =>
    match x.producer with
    | .idle => True
    | .loaded lang op head =>
      lang = .cpp ∨ x.tail ≤ head ∨ op.items.length + sub64 head x.tail ≤ c.capacity
    | .copying lang head count items done => done < items.length ∨ fits64 lang (head + count) = true
  | .consume =>
    match x.consumer with
    | .idle => True
    | .loaded lang op tail => lang = .cpp ∨ tail ≤ x.head ∨ op = .tryPop
    | .copying lang tail count got => got.length < count.toNat ∨ fits64 lang (tail + count) = true
  | _ => True

instance (x : Ring α) (e : RingEvent α) : Decidable (x.WrapSafe c e) := by
  cases e with
  | produce =>
    unfold WrapSafe
    cases x.producer <;> infer_instance
  | consume =>
    unfold WrapSafe
    cases x.consumer <;> infer_instance
  | _ => exact isTrue trivial

/-- What holds of the producer between two of its steps. The items it has copied stand right
behind the unread ones. -/
def ProducerInv (x : Ring α) : Producer α → Prop
  | .idle => True
  | .loaded _ _ head => head = x.head
  | .copying _ head count items done =>
    head = x.head ∧ count = items.length ∧ done ≤ items.length ∧
      x.accepted.length + items.length ≤ x.received.length + c.capacity ∧
      Holds c.capacity x.data x.accepted.length (items.take done)

/-- What holds of the consumer between two of its steps. The items it has copied are the next
unread ones. -/
def ConsumerInv (x : Ring α) : Consumer α → Prop
  | .idle => True
  | .loaded _ _ tail => tail = x.tail
  | .copying _ tail count got =>
    tail = x.tail ∧ ∃ n : ℕ, count = n ∧ got.length ≤ n ∧
      x.received.length + n ≤ x.accepted.length ∧ x.received ++ got <+: x.accepted

/-- The indices count the accepted and the received items, the items between them are the next
ones in the slots, and both sides are where they say. -/
structure Inv (x : Ring α) : Prop where
  head : x.head = x.accepted.length % 2 ^ 64
  tail : x.tail = x.received.length % 2 ^ 64
  unread : ∃ unread, x.accepted = x.received ++ unread ∧ unread.length ≤ c.capacity ∧
    Holds c.capacity x.data x.received.length unread
  producer : x.ProducerInv c x.producer
  consumer : x.ConsumerInv x.consumer

/-- Nothing is lost, added or changed, and the indices are at most the capacity apart. -/
structure Lossless (x : Ring α) : Prop where
  queue : x.received ++ x.unread c = x.accepted
  bounded : sub64 x.head x.tail ≤ c.capacity

variable {c} {x : Ring α}

theorem inv_init (data : ℕ → α) : (init data).Inv c where
  head := rfl
  tail := rfl
  unread := ⟨[], rfl, Nat.zero_le _, holds_nil _ _ _⟩
  producer := trivial
  consumer := trivial

/-- The items between the indices, with their number. -/
theorem Inv.split (h : x.Inv c) : ∃ unread, x.accepted = x.received ++ unread ∧
    x.accepted.length = x.received.length + unread.length ∧ unread.length ≤ c.capacity ∧
    Holds c.capacity x.data x.received.length unread := by
  obtain ⟨unread, hsplit, hbound, hholds⟩ := h.unread
  refine ⟨unread, hsplit, ?_, hbound, hholds⟩
  rw [hsplit, List.length_append]

theorem Inv.received_le (h : x.Inv c) : x.received.length ≤ x.accepted.length ∧
    x.accepted.length - x.received.length ≤ c.capacity := by
  obtain ⟨unread, -, hlength, hbound, -⟩ := h.split
  omega

theorem Inv.lossless (h : x.Inv c) : x.Lossless c := by
  obtain ⟨hle, hroom⟩ := h.received_le
  have hdist : sub64 x.head x.tail = x.accepted.length - x.received.length := by
    rw [h.head, h.tail]
    exact sub64_counts hle hroom
  obtain ⟨unread, hsplit, hlength, -, hholds⟩ := h.split
  constructor
  · have hwindow : x.unread c = window c.capacity x.data x.received.length unread.length := by
      rw [Ring.unread, hdist, hlength, Nat.add_sub_cancel_left, window]
      simp only [c.and_mask, h.tail, c.mod_capacity]
    rw [hwindow, window_eq hholds, hsplit]
  · rwa [hdist]

theorem consumerInv_mono {y : Ring α} (htail : y.tail = x.tail) (hreceived : y.received = x.received)
    (haccepted : x.accepted <+: y.accepted) {phase : Consumer α} (h : x.ConsumerInv phase) :
    y.ConsumerInv phase := by
  cases phase with
  | idle => trivial
  | loaded lang op tail => exact Eq.trans h htail.symm
  | copying lang tail count got =>
    obtain ⟨hload, n, hcount, hgot, hn, hprefix⟩ := h
    refine ⟨hload.trans htail.symm, n, hcount, hgot, ?_, ?_⟩
    · rw [hreceived]
      exact hn.trans haccepted.length_le
    · rw [hreceived]
      exact hprefix.trans haccepted

theorem producerInv_mono {y : Ring α} (hhead : y.head = x.head) (haccepted : y.accepted = x.accepted)
    (hdata : y.data = x.data) (hreceived : x.received.length ≤ y.received.length)
    {phase : Producer α} (h : x.ProducerInv c phase) : y.ProducerInv c phase := by
  cases phase with
  | idle => trivial
  | loaded lang op head => exact Eq.trans h hhead.symm
  | copying lang head count items done =>
    obtain ⟨hload, hcount, hdone, hfits, hcopied⟩ := h
    refine ⟨hload.trans hhead.symm, hcount, hdone, ?_, ?_⟩
    · rw [haccepted]
      omega
    · rwa [haccepted, hdata]

section Producer

variable {lang : Language} {op : PushOp α} {head done : ℕ} {count : ℤ} {items : List α}

/-- Loading the tail and deciding how many items fit. -/
theorem inv_produce_loaded (h : x.Inv c) (hphase : x.producer = .loaded lang op head)
    (hsafe : x.WrapSafe c .produce) : (x.produce c).Inv c := by
  obtain ⟨hle, hroom⟩ := h.received_le
  have hhead := h.producer
  unfold produce
  simp only [ProducerInv, hphase] at hhead
  simp only [WrapSafe, hphase] at hsafe
  cases hcount : pushCount c head x.tail lang op with
  | none =>
    simp only [hphase, hcount]
    exact ⟨h.head, h.tail, h.unread, trivial, h.consumer⟩
  | some count =>
    simp only [hphase, hcount]
    rw [hhead, h.head, h.tail] at hcount hsafe
    obtain ⟨n, rfl, hitems, hfits⟩ := pushCount_counts hle hroom hsafe hcount
    have hlength : (op.items.take (n : ℤ).toNat).length = n := by
      rw [List.length_take, Int.toNat_natCast, min_eq_left hitems]
    refine ⟨h.head, h.tail, h.unread, ⟨hhead, ?_, Nat.zero_le _, ?_, ?_⟩, h.consumer⟩
    · rw [hlength]
    · rw [hlength]
      change x.accepted.length + n ≤ x.received.length + c.capacity
      omega
    · exact holds_nil _ _ _

/-- Copying one item into the slot behind the unread and the copied ones. -/
theorem inv_produce_item (h : x.Inv c) (hphase : x.producer = .copying lang head count items done)
    {item : α} (hitem : items[done]? = some item) : (x.produce c).Inv c := by
  have hproducer := h.producer
  unfold produce
  simp only [ProducerInv, hphase] at hproducer
  obtain ⟨hhead, hcount, hdone, hfits, hcopied⟩ := hproducer
  obtain ⟨hlt, hget⟩ := List.getElem?_eq_some_iff.mp hitem
  obtain ⟨unread, hsplit, hlength, hbound, hholds⟩ := h.split
  have hslot : slotOf c head items.length done lang = (x.accepted.length + done) % c.capacity := by
    rw [hhead, h.head]
    exact slotOf_counts hlt (by omega) lang
  simp only [hphase, hitem, hslot]
  refine ⟨h.head, h.tail, ⟨unread, hsplit, hbound, ?_⟩, ⟨hhead, hcount, hlt, hfits, ?_⟩, h.consumer⟩
  · rw [hlength, add_assoc]
    exact hholds.update (by omega) (by omega) item
  · have hdone' : (items.take done).length = done := by
      rw [List.length_take, min_eq_left hdone]
    have hpush := hcopied.push (by omega) item
    rw [hdone'] at hpush
    rwa [List.take_add_one, hitem]

/-- Storing the head: the copied items are accepted, and unread. -/
theorem inv_produce_store (h : x.Inv c) (hphase : x.producer = .copying lang head count items done)
    (hitem : items[done]? = none) (hsafe : x.WrapSafe c .produce) : (x.produce c).Inv c := by
  have hproducer := h.producer
  have hlast := List.getElem?_eq_none_iff.mp hitem
  unfold produce
  simp only [ProducerInv, hphase] at hproducer
  simp only [WrapSafe, hphase, hlast.not_gt, false_or] at hsafe
  obtain ⟨hhead, hcount, hdone, hfits, hcopied⟩ := hproducer
  rw [List.take_of_length_le hlast] at hcopied
  simp only [hphase, hitem, hsafe, if_true]
  rw [hhead, h.head, hcount] at hsafe ⊢
  obtain ⟨unread, hsplit, hlength, hbound, hholds⟩ := h.split
  refine ⟨?_, h.tail, ⟨unread ++ items, ?_, ?_, ?_⟩, trivial, ?_⟩
  · rw [storedIndex_counts hsafe, List.length_append]
  · rw [hsplit, List.append_assoc]
  · rw [List.length_append]
    omega
  · rw [holds_append, ← hlength]
    exact ⟨hholds, hcopied⟩
  · apply consumerInv_mono (x := x) _ _ _ h.consumer
    · rfl
    · rfl
    · exact List.prefix_append _ _

theorem inv_produce (h : x.Inv c) (hsafe : x.WrapSafe c .produce) : (x.produce c).Inv c := by
  cases hphase : x.producer with
  | idle =>
    unfold produce
    rw [hphase]
    exact h
  | loaded lang op head => exact inv_produce_loaded h hphase hsafe
  | copying lang head count items done =>
    cases hitem : items[done]? with
    | some item => exact inv_produce_item h hphase hitem
    | none => exact inv_produce_store h hphase hitem hsafe

end Producer

section Consumer

variable {lang : Language} {op : PopOp} {tail : ℕ} {count : ℤ} {got : List α}

/-- Loading the head and deciding how many items to take. -/
theorem inv_consume_loaded (h : x.Inv c) (hphase : x.consumer = .loaded lang op tail)
    (hsafe : x.WrapSafe c .consume) : (x.consume c).Inv c := by
  obtain ⟨hle, hroom⟩ := h.received_le
  have htail := h.consumer
  unfold consume
  simp only [ConsumerInv, hphase] at htail
  simp only [WrapSafe, hphase] at hsafe
  cases hcount : popCount x.head tail lang op with
  | none =>
    simp only [hphase, hcount]
    exact ⟨h.head, h.tail, h.unread, h.producer, trivial⟩
  | some count =>
    simp only [hphase, hcount]
    rw [htail, h.head, h.tail] at hcount hsafe
    obtain ⟨n, rfl, hn⟩ := popCount_counts hle hroom hsafe hcount
    refine ⟨h.head, h.tail, h.unread, h.producer, htail, n, rfl, Nat.zero_le _, ?_, ?_⟩
    · change x.received.length + n ≤ x.accepted.length
      omega
    · obtain ⟨unread, hsplit, _⟩ := h.unread
      exact ⟨unread, by simp [hsplit]⟩

theorem inv_consume_item (h : x.Inv c) (hphase : x.consumer = .copying lang tail count got)
    (hmore : got.length < count.toNat) : (x.consume c).Inv c := by
  have hconsumer := h.consumer
  unfold consume
  simp only [ConsumerInv, hphase] at hconsumer
  obtain ⟨htail, n, rfl, hgot, hn, hprefix⟩ := hconsumer
  obtain ⟨unread, hsplit, hlength, hbound, hholds⟩ := h.split
  rw [hsplit, List.prefix_append_right_inj] at hprefix
  rw [Int.toNat_natCast] at hmore
  have hlt : got.length < unread.length := by omega
  have hslot : slotOf c tail n got.length lang = (x.received.length + got.length) % c.capacity := by
    rw [htail, h.tail]
    exact slotOf_counts hmore (by omega) lang
  simp only [hphase, Int.toNat_natCast, hmore, if_true]
  refine ⟨h.head, h.tail, ⟨unread, hsplit, hbound, hholds⟩, h.producer, htail, n, rfl, ?_, hn, ?_⟩
  · simpa [Nat.succ_le_iff] using hmore
  · have hitem : x.data (slotOf c tail n got.length lang) = unread[got.length] := by
      rw [hslot]
      exact hholds got.length hlt
    rw [hitem, hsplit, List.prefix_append_right_inj]
    obtain ⟨rest, rfl⟩ := hprefix
    cases rest with
    | nil => simp at hlt
    | cons item rest => exact ⟨rest, by simp⟩

/-- Storing the tail: the copied items are received, and no longer unread. -/
theorem inv_consume_store (h : x.Inv c) (hphase : x.consumer = .copying lang tail count got)
    (hmore : ¬ got.length < count.toNat) (hsafe : x.WrapSafe c .consume) : (x.consume c).Inv c := by
  have hconsumer := h.consumer
  unfold consume
  simp only [ConsumerInv, hphase] at hconsumer
  simp only [WrapSafe, hphase, hmore, false_or] at hsafe
  obtain ⟨htail, n, rfl, hgot, hn, hprefix⟩ := hconsumer
  obtain ⟨unread, hsplit, hlength, hbound, hholds⟩ := h.split
  rw [hsplit, List.prefix_append_right_inj] at hprefix
  rw [Int.toNat_natCast] at hmore
  have hall : got.length = n := by omega
  simp only [hphase, Int.toNat_natCast, hmore, hsafe, if_false, if_true]
  rw [htail, h.tail] at hsafe ⊢
  have hrest : got ++ unread.drop n = unread := by
    rw [← hall]
    conv_rhs => rw [← List.take_append_drop got.length unread]
    rw [← List.prefix_iff_eq_take.mp hprefix]
  refine ⟨h.head, ?_, ⟨unread.drop n, ?_, ?_, ?_⟩, ?_, trivial⟩
  · rw [storedIndex_counts hsafe, List.length_append, hall]
  · rw [List.append_assoc, hrest, hsplit]
  · rw [List.length_drop]
    omega
  · rw [List.length_append, hall]
    exact hholds.drop (by omega)
  · apply producerInv_mono (x := x) _ _ _ _ h.producer
    · rfl
    · rfl
    · rfl
    · simp

theorem inv_consume (h : x.Inv c) (hsafe : x.WrapSafe c .consume) : (x.consume c).Inv c := by
  cases hphase : x.consumer with
  | idle =>
    unfold consume
    rw [hphase]
    exact h
  | loaded lang op tail => exact inv_consume_loaded h hphase hsafe
  | copying lang tail count got =>
    by_cases hmore : got.length < count.toNat
    · exact inv_consume_item h hphase hmore
    · exact inv_consume_store h hphase hmore hsafe

end Consumer

theorem inv_step (h : x.Inv c) (e : RingEvent α) (hsafe : x.WrapSafe c e) : (x.step c e).Inv c := by
  cases e with
  | push lang op =>
    unfold step
    cases hphase : x.producer with
    | idle => exact ⟨h.head, h.tail, h.unread, rfl, h.consumer⟩
    | loaded _ _ _ => exact h
    | copying _ _ _ _ _ => exact h
  | produce => exact inv_produce h hsafe
  | abandon => exact ⟨h.head, h.tail, h.unread, trivial, h.consumer⟩
  | pop lang op =>
    unfold step
    cases hphase : x.consumer with
    | idle => exact ⟨h.head, h.tail, h.unread, h.producer, rfl⟩
    | loaded _ _ _ => exact h
    | copying _ _ _ _ => exact h
  | consume => exact inv_consume h hsafe

variable (c)

/-- A step leaves a lossless queue, and one that neither accepts nor receives an item changes
neither the indices nor what the consumer finds between them. -/
def Faithful (x : Ring α) (e : RingEvent α) : Prop :=
  (x.step c e).Lossless c ∧
    ((x.step c e).accepted = x.accepted → (x.step c e).received = x.received →
      (x.step c e).unread c = x.unread c ∧ (x.step c e).head = x.head ∧
        (x.step c e).tail = x.tail)

/-- In every run whose steps are not misled by wrapped indices, the consumer receives a prefix of
the accepted items after every step, with the unread ones in the slots, and a push that is not
accepted changes nothing it can see. -/
theorem faithful_of_wrapSafe (data : ℕ → α) (events : List (RingEvent α))
    (h : Along (step c) (WrapSafe c) (init data) events) :
    Along (step c) (Faithful c) (init data) events := by
  apply along_imp (Inv c) _ _ (inv_init data) h
  · intro x e hx hsafe
    exact inv_step hx e hsafe
  · intro x e hx hsafe
    have hnext := inv_step hx e hsafe
    refine ⟨hnext.lossless, ?_⟩
    intro haccepted hreceived
    refine ⟨?_, ?_, ?_⟩
    · have hqueue := hnext.lossless.queue
      rw [haccepted, hreceived, ← hx.lossless.queue] at hqueue
      exact List.append_cancel_left hqueue
    · rw [hnext.head, hx.head, haccepted]
    · rw [hnext.tail, hx.tail, hreceived]

/-- One item goes through the ring, both sides in C++. -/
def lap (a : α) : List (RingEvent α) :=
  [.push .cpp (.tryPush a), .produce, .produce, .produce, .pop .cpp .tryPop, .consume, .consume,
    .consume]

/-- The ring between two laps of one item. -/
def between (n : ℕ) (a : α) (accepted received : List α) : Ring α where
  head := n
  tail := n
  data := fun _ => a
  accepted := accepted
  received := received

theorem run_lap {n : ℕ} (hn : n + 1 < 2 ^ 64) (a : α) (accepted received : List α) :
    run (step c) (between n a accepted received) (lap a) =
      between (n + 1) a (accepted ++ [a]) (received ++ [a]) := by
  have hpos := c.capacity_pos
  have hsame : sub64 n n = 0 := by
    rw [sub64_of_le le_rfl (by omega), Nat.sub_self]
  have hstored : storedIndex .cpp ((n : ℤ) + 1) = n + 1 := by
    simp only [storedIndex, fits64, if_true]
    omega
  simp [lap, between, step, produce, consume, pushCount, popCount, PushOp.items, hsame, hpos.ne',
    hstored, fits64]

theorem run_laps {n : ℕ} (hn : n < 2 ^ 64) (a : α) :
    run (step c) (init fun _ => a) (List.replicate n (lap a)).flatten =
      between n a (List.replicate n a) (List.replicate n a) := by
  induction n with
  | zero => rfl
  | succ n ih =>
    rw [List.replicate_succ', List.flatten_append, List.flatten_singleton, run_append,
      ih (by omega), run_lap c hn, ← List.replicate_succ']

/-- A ring of two slots. -/
def pair : RingConfig := ⟨1, by decide⟩

/-- One item is pushed, which wraps the head; a Python pop of several items moves the tail back
onto it; another item is pushed and popped. -/
def misled : List (RingEvent ℕ) :=
  [.push .cpp (.tryPush 1), .produce, .produce, .produce, .pop .python (.bulkPop 1), .consume,
    .consume] ++ lap 2

theorem accepted_misled (accepted received : List ℕ) :
    (run (step pair) (between (2 ^ 64 - 1) 0 accepted received) misled).accepted =
      accepted ++ [1] ++ [2] := by
  simp [misled, lap, between, step, produce, consume, pushCount, popCount, PushOp.items, sub64,
    storedIndex, fits64, pair, RingConfig.capacity]

theorem received_misled (accepted received : List ℕ) :
    (run (step pair) (between (2 ^ 64 - 1) 0 accepted received) misled).received =
      received ++ [] ++ [2] := by
  simp [misled, lap, between, step, produce, consume, pushCount, popCount, PushOp.items, sub64,
    storedIndex, fits64, slotOf, pair, RingConfig.capacity, RingConfig.mask]

/-- After `2 ^ 64 - 1` laps the next item is never received, and the one after it is. -/
theorem not_prefix_of_misled : ¬ (run (step pair) (init fun _ => 0)
        ((List.replicate (2 ^ 64 - 1) (lap 0)).flatten ++ misled)).received <+:
      (run (step pair) (init fun _ => 0)
        ((List.replicate (2 ^ 64 - 1) (lap 0)).flatten ++ misled)).accepted := by
  rw [run_append, run_laps pair (by norm_num), accepted_misled, received_misled, List.append_nil,
    List.append_assoc, List.prefix_append_right_inj]
  decide

/-- A lap is not misled. -/
theorem faithful_lap : Along (step pair) (Faithful pair) (init fun _ => 0) (lap 7) :=
  faithful_of_wrapSafe pair (fun _ => 0) (lap 7) (by decide +kernel)

end Ring

end TradingSim.Shm
