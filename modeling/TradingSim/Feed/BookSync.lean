import TradingSim.Foundations.Run
import TradingSim.Feed.Broadcasts

/-!
# Whether a client's books follow the server's

The server keeps one record of the books it last broadcast, for all clients. A client that joins
later starts from a snapshot instead, and taking the snapshot changes the cached books without
changing that record. Its books are right after a broadcast exactly when the books it held, the
record and the new books reconcile at every price; a broadcast of full books always brings them in
line.
-/

namespace TradingSim.Feed

open Foundations Foundations.KeyedList
open Exchange (OrderBook OrderBookLevel)
open Market

/-- A client's entry has the levels of a book. -/
def MirrorsBook (entry : Option BookEntry) (book : OrderBook) : Prop :=
  match entry with
  | some entry => entry.bids.Perm book.bids ∧ entry.asks.Perm book.asks
  | none => False

instance (entry : Option BookEntry) (book : OrderBook) : Decidable (MirrorsBook entry book) :=
  match entry with
  | some entry =>
    inferInstanceAs (Decidable (entry.bids.Perm book.bids ∧ entry.asks.Perm book.asks))
  | none => isFalse id

/-- The book a message holds under a key. -/
def MarketMessage.book? (message : MarketMessage) (key : String) : Option BookEntry :=
  message.orderbooks.bind fun books => books.find? key

/-- The changes a message holds under a key. -/
def MarketMessage.delta? (message : MarketMessage) (key : String) : Option DeltaEntry :=
  message.orderbookDeltas.bind fun deltas => deltas.find? key

/-- Everything in a message stands under the key of its exchange and symbol. -/
structure MarketMessage.Filed (message : MarketMessage) : Prop where
  books : ∀ books, message.orderbooks = some books → BooksFiled books
  deltas : ∀ deltas, message.orderbookDeltas = some deltas → DeltasFiled deltas

theorem nonEmpty_bind_find? {α : Type} (d : Dict String α) (key : String) :
    ((nonEmpty d).bind fun d => d.find? key) = d.find? key := by
  unfold nonEmpty
  by_cases hempty : d.entries = []
  · rw [if_pos hempty, Option.bind_none, Dict.find?, hempty]
    rfl
  · rw [if_neg hempty, Option.bind_some]

theorem eq_of_nonEmpty {α : Type} {d d' : Dict String α} (h : nonEmpty d = some d') : d = d' := by
  unfold nonEmpty at h
  split at h
  · cases h
  · exact Option.some.inj h

section Processing

variable {d : Decoder} {client : ClientState} {message : MarketMessage} {key : String}

theorem find?_processMessage_of_book (hfiled : message.Filed) {entry : BookEntry}
    (h : message.book? key = some entry) : (d.processMessage client message).orderbooks.find? key =
      (message.delta? key).elim (some entry) fun delta => some (d.applyEntry entry delta) := by
  obtain ⟨type, seq, timestamp, candles, books, deltas⟩ := message
  cases books with
  | none => cases h
  | some books =>
    have hbook : (d.updateOrderbooks client.orderbooks books).find? key = some entry :=
      find?_updateOrderbooks (hfiled.books books rfl) h
    cases deltas with
    | none => exact hbook
    | some deltas =>
      refine (find?_updateDeltas (hfiled.deltas deltas rfl) key).trans ?_
      rw [hbook]
      rfl

theorem find?_processMessage_of_no_books (hfiled : message.Filed) (h : message.orderbooks = none) :
    (d.processMessage client message).orderbooks.find? key =
      (message.delta? key).elim (client.orderbooks.find? key) fun delta =>
        (client.orderbooks.find? key).map fun book => d.applyEntry book delta := by
  obtain ⟨type, seq, timestamp, candles, books, deltas⟩ := message
  subst h
  cases deltas with
  | none => rfl
  | some deltas => exact find?_updateDeltas (hfiled.deltas deltas rfl) key

end Processing

variable {σ : Type} {L : Library σ} {c : MarketConfig} {d : Decoder} {id : ℕ}

theorem messageFor_filed (s : Server σ) (seq : ℕ) (subs : Finset String) :
    (s.messageFor c seq (s.buildOrderbookData L c) subs).Filed := by
  unfold Server.messageFor
  split
  · refine ⟨fun books h => ?_, fun deltas h => ?_⟩
    · exact eq_of_nonEmpty h ▸ booksFiled_build s
    · exact eq_of_nonEmpty h ▸ deltasFiled_build s
  · refine ⟨fun books h => ?_, fun deltas h => ?_⟩
    · exact eq_of_nonEmpty h ▸ (booksFiled_build s).filter _
    · exact eq_of_nonEmpty h ▸ (deltasFiled_build s).filter _

variable {read : (String × String) × OrderBook} {subs : Finset String} {s : Server σ}

/-- For a subscribed pair a broadcast holds the full book of the pass over all pairs. -/
theorem book?_messageFor (h : read ∈ (s.readBooks L c).1) (seq : ℕ) (hsub : read.1.2 ∈ subs) :
    (s.messageFor c seq (s.buildOrderbookData L c) subs).book? (bookKey read.1) =
      (addView read ⟨none, none, s.lastOrderbooks.find? (bookKey read.1)⟩).full := by
  rw [← view_of_read h]
  unfold Server.messageFor
  split
  · exact nonEmpty_bind_find? _ _
  · refine (nonEmpty_bind_find? _ _).trans ?_
    rw [Dict.find?_filter]
    change Option.filter _ ((s.buildOrderbookData L c).view (bookKey read.1)).full =
      ((s.buildOrderbookData L c).view (bookKey read.1)).full
    rw [view_of_read h]
    cases s.lastOrderbooks.find? (bookKey read.1) with
    | none => simp [bookEntry, hsub]
    | some last => simp

/-- For a subscribed pair a broadcast holds the changes of the pass over all pairs. -/
theorem delta?_messageFor (h : read ∈ (s.readBooks L c).1) (seq : ℕ) (hsub : read.1.2 ∈ subs) :
    (s.messageFor c seq (s.buildOrderbookData L c) subs).delta? (bookKey read.1) =
      (addView read ⟨none, none, s.lastOrderbooks.find? (bookKey read.1)⟩).delta := by
  rw [← view_of_read h]
  unfold Server.messageFor
  split
  · exact nonEmpty_bind_find? _ _
  · refine (nonEmpty_bind_find? _ _).trans ?_
    rw [Dict.find?_filter]
    change Option.filter _ ((s.buildOrderbookData L c).view (bookKey read.1)).delta =
      ((s.buildOrderbookData L c).view (bookKey read.1)).delta
    rw [view_of_read h]
    cases s.lastOrderbooks.find? (bookKey read.1) with
    | none => rfl
    | some last =>
      rw [addView_some]
      cases hdelta : bookDelta last read with
      | none => rfl
      | some delta => simp [bookDelta_eq_some hdelta, hsub]

/-- The server has a last broadcast book for every pair, or for none. -/
def EncodesUniformly (c : MarketConfig) (s : Server σ) : Prop :=
  (∀ pair ∈ c.pairs, s.lastOrderbooks.find? (bookKey pair) = none) ∨
    ∀ pair ∈ c.pairs, (s.lastOrderbooks.find? (bookKey pair)).isSome

/-- Once the server has broadcast, no broadcast carries a full book. -/
theorem orderbooks_messageFor (h : ∀ pair ∈ c.pairs, (s.lastOrderbooks.find? (bookKey pair)).isSome) (seq : ℕ)
    (subs : Finset String) : (s.messageFor c seq (s.buildOrderbookData L c) subs).orderbooks = none := by
  have hempty : (s.buildOrderbookData L c).orderbooks.entries = [] := by
    rw [List.eq_nil_iff_forall_not_mem]
    rintro ⟨key, entry⟩ hentry
    rw [Dict.mem_entries_iff] at hentry
    obtain ⟨hnone, read, hread, hkey, -⟩ := orderbooks_build_eq_some hentry
    have hlast := h read.1 (pair_mem_of_read hread)
    rw [hkey, hnone] at hlast
    cases hlast
  unfold Server.messageFor
  split
  · simp [Server.buildFullMessage, nonEmpty, hempty]
  · simp [Server.buildFilteredMessage, nonEmpty, Dict.filter, hempty]

/-- The client's entry, the last broadcast book and the book at this broadcast reconcile. -/
def ReconcilesBook (last : Option EncodedBook) (entry : Option BookEntry) (book : OrderBook) : Prop :=
  ∀ last', last = some last' → ∀ entry', entry = some entry' →
    Reconciles last'.bids entry'.bids book.bids ∧ Reconciles last'.asks entry'.asks book.asks

theorem applySide_nil_perm (side : BookSide) (levels : List OrderBookLevel) :
    (d.applySide side levels []).Perm levels := by
  cases d with
  | dashboard => exact sort_perm side levels
  | bot => exact List.Perm.refl levels

theorem mirrorsBook_processMessage_iff (h : read ∈ (s.readBooks L c).1) (seq : ℕ) (hsub : read.1.2 ∈ subs)
    (huniform : EncodesUniformly c s) {client : ClientState}
    (hheld : (client.orderbooks.find? (bookKey read.1)).isSome) : MirrorsBook ((d.processMessage client
        (s.messageFor c seq (s.buildOrderbookData L c) subs)).orderbooks.find? (bookKey read.1)) read.2 ↔
      ReconcilesBook (s.lastOrderbooks.find? (bookKey read.1))
        (client.orderbooks.find? (bookKey read.1)) read.2 := by
  have hfiled := messageFor_filed (L := L) (c := c) s seq subs
  have hbook := book?_messageFor h seq hsub
  have hdelta := delta?_messageFor h seq hsub
  obtain ⟨entry, hentry⟩ := Option.isSome_iff_exists.mp hheld
  cases hlast : s.lastOrderbooks.find? (bookKey read.1) with
  | none =>
    rw [hlast, addView_none] at hbook hdelta
    rw [find?_processMessage_of_book hfiled hbook, hdelta]
    refine iff_of_true ⟨List.Perm.refl _, List.Perm.refl _⟩ ?_
    intro last' hlast'
    cases hlast'
  | some last =>
    have hall : ∀ pair ∈ c.pairs, (s.lastOrderbooks.find? (bookKey pair)).isSome := by
      rcases huniform with hnone | hall
      · rw [hnone read.1 (pair_mem_of_read h)] at hlast
        cases hlast
      · exact hall
    rw [hlast, addView_some] at hdelta
    rw [find?_processMessage_of_no_books hfiled (orderbooks_messageFor hall seq subs), hdelta,
      hentry]
    have hiff : ReconcilesBook (some last) (some entry) read.2 ↔
        Reconciles last.bids entry.bids read.2.bids ∧
          Reconciles last.asks entry.asks read.2.asks := by
      constructor
      · intro hreconciles
        exact hreconciles last rfl entry rfl
      · rintro hreconciles _ ⟨⟩ _ ⟨⟩
        exact hreconciles
    rw [hiff, ← applySide_perm_iff d .bids, ← applySide_perm_iff d .asks]
    cases hchange : bookDelta last read with
    | none =>
      obtain ⟨hbids, hasks⟩ := bookDelta_eq_none hchange
      rw [hbids, hasks, (applySide_nil_perm .bids entry.bids).congr_left,
        (applySide_nil_perm .asks entry.asks).congr_left]
      rfl
    | some delta =>
      rw [bookDelta_eq_some hchange]
      rfl

/-- A broadcast leaves every book the client holds for a subscribed pair in place. -/
theorem isSome_processMessage (seq : ℕ)
    (huniform : EncodesUniformly c s) {client : ClientState} {pair : String × String}
    (hpair : pair ∈ c.pairs) (hsub : pair.2 ∈ subs)
    (hheld : (client.orderbooks.find? (bookKey pair)).isSome) : ((d.processMessage client
      (s.messageFor c seq (s.buildOrderbookData L c) subs)).orderbooks.find? (bookKey pair)).isSome := by
  have hfiled := messageFor_filed (L := L) (c := c) s seq subs
  rcases huniform with hnone | hall
  · obtain ⟨book, hread⟩ := exists_read (L := L) s hpair
    have hbook := book?_messageFor hread seq hsub
    rw [hnone pair hpair, addView_none] at hbook
    rw [find?_processMessage_of_book hfiled hbook]
    cases (s.messageFor c seq (s.buildOrderbookData L c) subs).delta? (bookKey pair) <;> rfl
  · rw [find?_processMessage_of_no_books hfiled (orderbooks_messageFor hall seq subs)]
    cases (s.messageFor c seq (s.buildOrderbookData L c) subs).delta? (bookKey pair) with
    | none => exact hheld
    | some delta => rw [Option.elim_some, Option.isSome_map]; exact hheld

theorem encodesUniformly_broadcast (s : Server σ) : EncodesUniformly c (s.broadcastMarketData L c).1 := by
  refine Or.inr fun pair hpair => ?_
  obtain ⟨book, hread⟩ := exists_read (L := L) s hpair
  have hview := congrArg KeyView.last (view_of_read hread)
  change (s.buildOrderbookData L c).lastOrderbooks.find? (bookKey pair) = _ at hview
  change ((s.buildOrderbookData L c).lastOrderbooks.find? (bookKey pair)).isSome
  rw [hview]
  cases s.lastOrderbooks.find? (bookKey pair) <;> rfl

end TradingSim.Feed
