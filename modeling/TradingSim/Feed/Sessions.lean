import TradingSim.Feed.BookSync

/-!
# Synchronisation along a session

A client that has processed a snapshot holds a book for every pair of its subscription, and goes on
doing so whatever the server and the other clients do. With that, each broadcast of a run leaves the
client with the server's books exactly when the books reconcile at it.
-/

namespace TradingSim.Feed

open Foundations
open Exchange (OrderBook OrderBookLevel Numerics)
open Market

namespace Session

variable {σ : Type} {L : Library σ} {c : MarketConfig} {d : Decoder} {id : ℕ}

/-- What holds of a session at any time: the record of broadcast books is uniform, connections
are numbered in order, and a client that has joined holds its books. -/
structure Tracked (c : MarketConfig) (id : ℕ) (x : Session σ) : Prop where
  uniform : EncodesUniformly c x.server
  issued : ∀ client subs, x.server.clientSubscriptions.find? client = some subs →
    client < x.server.nextClient
  known : x.joined = true → id < x.server.nextClient
  held : x.joined = true → ∀ pair ∈ c.pairs, pair.2 ∈ x.subscription id →
    (x.client.orderbooks.find? (bookKey pair)).isSome

/-- The full books of all pairs. -/
def CarriesAll (c : MarketConfig) (message : MarketMessage) : Prop :=
  message.Filed ∧ message.orderbookDeltas = none ∧
    ∀ pair ∈ c.pairs, (message.book? (bookKey pair)).isSome

variable {x : Session σ} {message : MarketMessage}

theorem carriesAll_of_reads (s : Server σ) (hbooks : message.orderbooks =
      some (Dict.ofList (fun read => bookKey read.1) bookEntry (s.readBooks L c).1))
    (hdeltas : message.orderbookDeltas = none) : CarriesAll c message := by
  refine ⟨⟨fun books h => ?_, fun deltas h => ?_⟩, hdeltas, fun pair hpair => ?_⟩
  · cases hbooks.symm.trans h
    exact booksFiled_ofList _
  · cases hdeltas.symm.trans h
  · rw [MarketMessage.book?, hbooks, Option.bind_some]
    exact isSome_find?_ofList s hpair

theorem addressed_single (client : ℕ) (message : MarketMessage) :
    addressed id [(client, message)] = if client = id then [message] else [] := by
  by_cases h : client = id
  · simp [addressed, h]
  · simp [addressed, h]

theorem addressed_broadcast (s : Server σ) : addressed id (s.broadcastMarketData L c).2 =
      ((s.clientSubscriptions.find? id).map fun subs =>
        s.messageFor c (s.sequenceNumber + 1) (s.buildOrderbookData L c) subs).toList := by
  unfold addressed Server.broadcastMarketData
  rw [List.filter_map, List.map_map]
  change ((s.clientSubscriptions.entries.filter fun entry => decide (entry.1 = id)).map
    fun entry => s.messageFor c (s.sequenceNumber + 1) (s.buildOrderbookData L c) entry.2) = _
  rw [Dict.filter_entries]
  cases s.clientSubscriptions.find? id with
  | none => rfl
  | some subs => rfl

theorem step_eq (x : Session σ) (e : Event) : x.step L c d id e =
      (addressed id (x.server.step L c e).2).foldl (deliver d)
        { x with server := (x.server.step L c e).1 } := rfl

/-- A server step that sends the client nothing keeps the session tracked when the record and
the client's subscription survive it. -/
theorem Tracked.silent (h : x.Tracked c id) {s : Server σ}
    (hlast : s.lastOrderbooks = x.server.lastOrderbooks)
    (hissued : ∀ client subs, s.clientSubscriptions.find? client = some subs → client < s.nextClient)
    (hnext : x.server.nextClient ≤ s.nextClient)
    (hsubs : x.joined = true → (s.clientSubscriptions.find? id).getD ∅ ⊆ x.subscription id) :
    ({ x with server := s } : Session σ).Tracked c id where
  uniform := by
    unfold EncodesUniformly
    rw [hlast]
    exact h.uniform
  issued := hissued
  known := fun hjoined => lt_of_lt_of_le (h.known hjoined) hnext
  held := fun hjoined pair hpair hsub => h.held hjoined pair hpair (hsubs hjoined hsub)

/-- Processing all books gives the client a book for every pair. -/
theorem Tracked.deliverAll (huniform : EncodesUniformly c x.server)
    (hissued : ∀ client subs, x.server.clientSubscriptions.find? client = some subs →
      client < x.server.nextClient) (hid : id < x.server.nextClient) (hall : CarriesAll c message) :
    (x.deliver d message).Tracked c id where
  uniform := huniform
  issued := hissued
  known := fun _ => hid
  held := by
    intro _ pair hpair _
    obtain ⟨hfiled, hdeltas, hbooks⟩ := hall
    obtain ⟨entry, hentry⟩ := Option.isSome_iff_exists.mp (hbooks pair hpair)
    change ((d.processMessage x.client message).orderbooks.find? (bookKey pair)).isSome
    rw [find?_processMessage_of_book hfiled hentry, MarketMessage.delta?, hdeltas]
    rfl

/-- Sending all books to some client keeps the session tracked. -/
theorem Tracked.unicast (h : x.Tracked c id) {s : Server σ} {client : ℕ} (hall : CarriesAll c message)
    (hlast : s.lastOrderbooks = x.server.lastOrderbooks)
    (hnext : s.nextClient = x.server.nextClient) (hclient : client < x.server.nextClient)
    (hissued : ∀ client subs, s.clientSubscriptions.find? client = some subs → client < s.nextClient)
    (hsubs : client ≠ id → s.clientSubscriptions.find? id = x.server.clientSubscriptions.find? id) :
    ((addressed id [(client, message)]).foldl (deliver d) { x with server := s }).Tracked c id := by
  rw [addressed_single]
  by_cases hself : client = id
  · rw [if_pos hself]
    refine Tracked.deliverAll ?_ hissued ?_ hall
    · unfold EncodesUniformly
      rw [hlast]
      exact h.uniform
    · rw [hnext, ← hself]
      exact hclient
  · rw [if_neg hself]
    refine h.silent hlast hissued (le_of_eq hnext.symm) fun _ => ?_
    rw [hsubs hself]
    exact subset_rfl

theorem Tracked.broadcast (h : x.Tracked c id) :
    ((addressed id (x.server.broadcastMarketData L c).2).foldl (deliver d)
      { x with server := (x.server.broadcastMarketData L c).1 }).Tracked c id := by
  rw [addressed_broadcast]
  cases hsubs : x.server.clientSubscriptions.find? id with
  | none =>
    refine ⟨encodesUniformly_broadcast x.server, h.issued, h.known, ?_⟩
    intro _ pair _ hsub
    change pair.2 ∈ (x.server.clientSubscriptions.find? id).getD ∅ at hsub
    rw [hsubs] at hsub
    exact absurd hsub (Finset.notMem_empty _)
  | some subs =>
    refine ⟨encodesUniformly_broadcast x.server, h.issued, fun _ => h.issued id subs hsubs, ?_⟩
    intro hjoined pair hpair hsub
    change pair.2 ∈ (x.server.clientSubscriptions.find? id).getD ∅ at hsub
    have hwas : x.joined = true := by
      change (x.joined || decide ((x.server.messageFor c _ _ subs).type = .snapshot)) = true at hjoined
      unfold Server.messageFor at hjoined
      split at hjoined
      · simpa [Server.buildFullMessage] using hjoined
      · simpa [Server.buildFilteredMessage] using hjoined
    have hin : pair.2 ∈ subs := by
      rw [hsubs] at hsub
      exact hsub
    exact isSome_processMessage (x.server.sequenceNumber + 1) h.uniform hpair hin
      (h.held hwas pair hpair hsub)

/-- Changing the subscription of a connected client leaves the connections numbered. -/
theorem issued_setSubscription {s : Server σ} {client : ℕ} {subs subs' : Finset String}
    (hissued : ∀ client subs, s.clientSubscriptions.find? client = some subs → client < s.nextClient)
    (hclient : s.clientSubscriptions.find? client = some subs) (other : ℕ) (found : Finset String)
    (hfound : (s.setSubscription client subs').clientSubscriptions.find? other = some found) :
    other < s.nextClient := by
  by_cases hother : other = client
  · rw [hother]
    exact hissued client subs hclient
  · refine hissued other found ?_
    rw [← hfound]
    exact (Dict.find?_insert_of_ne _ hother _).symm

theorem Tracked.step (h : x.Tracked c id) (e : Event) : (x.step L c d id e).Tracked c id := by
  rw [step_eq]
  cases e with
  | connect =>
    refine h.silent rfl ?_ (Nat.le_succ _) ?_
    · intro client subs hsubs
      change (x.server.clientSubscriptions.insert x.server.nextClient _).find? client = _ at hsubs
      rw [Dict.find?_insert] at hsubs
      split at hsubs
      · rename_i hnew
        rw [hnew]
        exact Nat.lt_succ_self _
      · exact Nat.lt_succ_of_lt (h.issued client subs hsubs)
    · intro hjoined
      change ((x.server.clientSubscriptions.insert x.server.nextClient _).find? id).getD ∅ ⊆ _
      rw [Dict.find?_insert_of_ne _ (ne_of_lt (h.known hjoined))]
      exact subset_rfl
  | disconnect client =>
    refine h.silent rfl ?_ (le_refl _) ?_
    · intro other subs hsubs
      change (x.server.clientSubscriptions.erase client).find? other = _ at hsubs
      rw [Dict.find?_erase] at hsubs
      split at hsubs
      · cases hsubs
      · exact h.issued other subs hsubs
    · intro _
      change ((x.server.clientSubscriptions.erase client).find? id).getD ∅ ⊆ _
      rw [Dict.find?_erase]
      split
      · exact Finset.empty_subset _
      · exact subset_rfl
  | snapshot client =>
    cases hsubs : x.server.clientSubscriptions.find? client with
    | none =>
      simp only [Server.step, hsubs]
      exact h
    | some subs =>
      simp only [Server.step, hsubs]
      exact h.unicast (carriesAll_of_reads (L := L) x.server rfl rfl) rfl rfl
        (h.issued client subs hsubs) h.issued fun _ => rfl
  | subscribe client symbols =>
    cases hsubs : x.server.clientSubscriptions.find? client with
    | none =>
      simp only [Server.step, hsubs]
      exact h
    | some subs =>
      simp only [Server.step, hsubs]
      refine h.unicast (carriesAll_of_reads (L := L) (x.server.setSubscription client _) rfl rfl)
        rfl rfl (h.issued client subs hsubs) (issued_setSubscription h.issued hsubs) ?_
      intro hne
      exact Dict.find?_insert_of_ne _ (Ne.symm hne) _
  | unsubscribe client symbols =>
    cases hsubs : x.server.clientSubscriptions.find? client with
    | none =>
      simp only [Server.step, hsubs]
      exact h
    | some subs =>
      simp only [Server.step, hsubs]
      refine h.silent rfl (issued_setSubscription h.issued hsubs) (le_refl _) ?_
      intro _
      change ((x.server.clientSubscriptions.insert client _).find? id).getD ∅ ⊆ _
      rw [Dict.find?_insert]
      split
      · rename_i hid
        rw [subscription, hid, hsubs]
        exact Finset.sdiff_subset
      · exact subset_rfl
  | syncState client lastTs =>
    cases hsubs : x.server.clientSubscriptions.find? client with
    | none =>
      simp only [Server.step, hsubs]
      exact h
    | some subs =>
      simp only [Server.step, hsubs]
      exact h.unicast (carriesAll_of_reads (L := L) x.server rfl rfl) rfl rfl
        (h.issued client subs hsubs) h.issued fun _ => rfl
  | readBook pair => exact h.silent rfl h.issued (le_refl _) fun _ => subset_rfl
  | loop =>
    simp only [Server.step, Server.broadcastLoop]
    cases x.server.phase with
    | waiting =>
      simp only
      split
      · exact h
      · exact h.silent rfl h.issued (le_refl _) fun _ => subset_rfl
    | ticked => exact h.broadcast

theorem tracked_init (rng : σ) : (Session.init L c rng).Tracked c id where
  uniform := Or.inl fun _ _ => rfl
  issued := fun _ _ h => by cases h
  known := fun h => by cases h
  held := fun h => by cases h

/-- After a broadcast to it, a client that has joined mirrors the books of its subscription. -/
def Mirrored (L : Library σ) (c : MarketConfig) (d : Decoder) (id : ℕ) (x : Session σ) (e : Event) :
    Prop :=
  x.Broadcasting e → x.joined = true → ∀ read ∈ (x.server.readBooks L c).1,
    read.1.2 ∈ x.subscription id →
      MirrorsBook ((x.step L c d id e).client.orderbooks.find? (bookKey read.1)) read.2

instance (x : Session σ) (e : Event) : Decidable (x.Mirrored L c d id e) :=
  inferInstanceAs (Decidable (_ → _ → ∀ read ∈ (x.server.readBooks L c).1, _ → _))

/-- At a broadcast, the books of a client that has joined reconcile with the record and the
new books. -/
def Reconciled (L : Library σ) (c : MarketConfig) (id : ℕ) (x : Session σ) (e : Event) : Prop :=
  x.Broadcasting e → x.joined = true → ∀ read ∈ (x.server.readBooks L c).1,
    read.1.2 ∈ x.subscription id →
      ReconcilesBook (x.server.lastOrderbooks.find? (bookKey read.1))
        (x.client.orderbooks.find? (bookKey read.1)) read.2

theorem Tracked.mirrored_iff (h : x.Tracked c id) (e : Event) :
    x.Mirrored L c d id e ↔ x.Reconciled L c id e := by
  refine forall_congr' fun hbroadcasting => forall_congr' fun hjoined => forall_congr' fun read =>
    forall_congr' fun hread => forall_congr' fun hsub => ?_
  obtain ⟨rfl, hphase⟩ := hbroadcasting
  cases hsubs : x.server.clientSubscriptions.find? id with
  | none =>
    rw [subscription, hsubs] at hsub
    exact absurd hsub (Finset.notMem_empty _)
  | some subs =>
    have hin : read.1.2 ∈ subs := by
      rw [subscription, hsubs] at hsub
      exact hsub
    have hclient : (x.step L c d id .loop).client = d.processMessage x.client
        (x.server.messageFor c (x.server.sequenceNumber + 1) (x.server.buildOrderbookData L c) subs) := by
      have hloop : x.server.step L c .loop = x.server.broadcastMarketData L c := by
        simp only [Server.step, Server.broadcastLoop, hphase]
      rw [step_eq, hloop, addressed_broadcast, hsubs]
      rfl
    rw [hclient]
    exact mirrorsBook_processMessage_iff hread _ hin h.uniform
      (h.held hjoined read.1 (pair_mem_of_read hread) hsub)

/-- Along every run, the books of a client that has joined follow the server's at every
broadcast exactly when they reconcile at every broadcast. -/
theorem mirrored_iff_reconciled (L : Library σ) (c : MarketConfig) (d : Decoder) (id : ℕ) (rng : σ)
    (events : List Event) : Along (step L c d id) (Mirrored L c d id) (Session.init L c rng) events ↔
      Along (step L c d id) (Reconciled L c id) (Session.init L c rng) events :=
  along_congr (Tracked c id) (fun _ e h _ => h.step e) (fun _ e h => h.mirrored_iff e) events
    (tracked_init rng)

/-- A library whose uniform draws come from a list and whose normal draws are zero. Its `exp` and
`sqrt` are right at the arguments that a market without drift takes them at. -/
def tapedLibrary (draws : List ℚ) : Library ℕ where
  numerics := Numerics.decimal
  exp := fun x => 1 + x
  sqrt := fun x => if x = 14400 then 120 else 4 / 5
  random := fun position => (draws.getD position 0, position + 1)
  gauss := fun position => (0, position)
  below := fun _ position => (0, position + 1)

/-- One symbol at a constant price of 100 on one exchange, with one level on each side. -/
def stillMarket : MarketConfig where
  symbols := ["BTC/USDT"]
  exchanges := ["binance"]
  initialPrices := fun _ => 100
  volatility := fun _ => 4 / 5
  symbolCorr := fun _ => 3 / 5
  timeframeSeconds := 2190
  drift := 0
  warmupCandles := 0
  orderBookDepth := 1
  symbols_nodup := by decide
  exchanges_nodup := by decide
  symbols_ne_nil := by decide
  exchanges_ne_nil := by decide
  timeframe_pos := by decide
  separator_free := by decide

/-- A second client connects between two broadcasts. -/
def lateJoin : List Event :=
  [.connect, .snapshot 0, .loop, .loop, .connect, .snapshot 1, .loop, .loop]

/-- The two quantity draws after the first broadcast. -/
def lateJoinDraws : List ℚ := [0, 0, 0, 0, 0, 0, 0, 0, 0, 3 / 5, 0, 0, 0, 0, 2 / 5]

/-- The snapshot of the second client finds quantity 0.051 where both broadcasts have 0.05, so
nothing is sent for that level and neither decoder's book follows. -/
theorem not_mirrored_lateJoin : ¬ Along (step (tapedLibrary lateJoinDraws) stillMarket .dashboard 1)
        (Mirrored (tapedLibrary lateJoinDraws) stillMarket .dashboard 1)
        (Session.init (tapedLibrary lateJoinDraws) stillMarket 0) lateJoin ∧
      ¬ Along (step (tapedLibrary lateJoinDraws) stillMarket .bot 1)
        (Mirrored (tapedLibrary lateJoinDraws) stillMarket .bot 1)
        (Session.init (tapedLibrary lateJoinDraws) stillMarket 0) lateJoin := by
  decide +kernel

end Session

end TradingSim.Feed
