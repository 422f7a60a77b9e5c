import Mathlib.Data.List.Dedup
import TradingSim.Foundations.Dict
import TradingSim.Foundations.Run

/-!
# Broadcasts to a changing set of clients

A broadcast awaits between its sends, and meanwhile the connection handlers change the set of
clients and their encodings. `_broadcast_to_clients` iterates over the live set and sends the JSON
text it is given; the other broadcasts start one task a client over a copy, with the payload chosen
at the start or looked up when the task gets its turn.
-/

namespace TradingSim.Gateway

open Foundations

/-- The value kept as a client's encoding: the two the server knows, any other hashable value, and
the values that cannot be the key of a dictionary. -/
inductive Encoding
  | json
  | msgpack
  | other (key : ℕ)
  | unhashable
deriving DecidableEq

/-- The type of a frame: JSON goes out as text, msgpack as binary. -/
inductive Format
  | text
  | binary
deriving DecidableEq

/-- The clients of the server. -/
structure Hub where
  hasMsgpack : Bool
  clients : List ℕ
  nodup : clients.Nodup
  encodings : Dict ℕ Encoding := Dict.empty
  /-- The sockets on which a send raises `ConnectionClosed`. -/
  closed : List ℕ := []

namespace Hub

/-- The encoding of a client; the default is JSON. -/
def encodingOf (h : Hub) (c : ℕ) : Encoding := (h.encodings.find? c).getD .json

/-- The type of the frames `_encode` makes. -/
def format (h : Hub) (encoding : Encoding) : Format :=
  if encoding = .msgpack ∧ h.hasMsgpack = true then .binary else .text

/-- Every connected client's encoding can be the key of a dictionary. -/
def Hashable (h : Hub) : Prop := ∀ c ∈ h.clients, h.encodingOf c ≠ .unhashable

instance (h : Hub) : Decidable h.Hashable := inferInstanceAs (Decidable (∀ _ ∈ _, _))

/-- The encodings among those of the listed clients that are new to the table of variants. -/
def addVariants (h : Hub) (variants : List Encoding) : List ℕ → Option (List Encoding)
  | [] => some variants
  | c :: rest =>
    if h.encodingOf c = .unhashable then none
    else if h.encodingOf c ∈ variants then h.addVariants variants rest
    else h.addVariants (variants ++ [h.encodingOf c]) rest

/-- The encodings a payload is encoded in; none if looking one up raises. -/
def encodedVariants (h : Hub) : Option (List Encoding) := h.addVariants [] h.clients

/-- `_handle_client`: a socket joins. -/
def connect (h : Hub) (c : ℕ) : Hub :=
  { h with clients := h.clients.insert c, nodup := h.nodup.insert }

/-- `_cleanup_client`: the handler of a socket ends. -/
def cleanup (h : Hub) (c : ℕ) : Hub :=
  { h with
    clients := h.clients.erase c
    nodup := h.nodup.erase c
    encodings := h.encodings.erase c }

/-- The encoding `_handle_subscribe` keeps. -/
def negotiated (h : Hub) (encoding : Encoding) : Encoding :=
  if encoding = .msgpack ∧ h.hasMsgpack = false then .json else encoding

def subscribe (h : Hub) (c : ℕ) (encoding : Encoding) : Hub :=
  { h with encodings := h.encodings.insert c (h.negotiated encoding) }

/-- The clients whose sends failed are removed. -/
def remove (h : Hub) (disconnected : List ℕ) : Hub :=
  { h with
    clients := h.clients.filter (· ∉ disconnected)
    nodup := h.nodup.filter _ }

theorem addVariants_eq_some {h : Hub} {clients : List ℕ} (variants : List Encoding)
    (hhash : ∀ c ∈ clients, h.encodingOf c ≠ .unhashable) :
    ∃ all, h.addVariants variants clients = some all ∧ (∀ e ∈ variants, e ∈ all) ∧
      ∀ c ∈ clients, h.encodingOf c ∈ all := by
  induction clients generalizing variants with
  | nil => exact ⟨variants, rfl, fun _ he => he, fun c hc => (by cases hc)⟩
  | cons c rest ih =>
    rw [List.forall_mem_cons] at hhash
    simp only [addVariants, if_neg hhash.1]
    split
    · rename_i hmem
      obtain ⟨all, heq, hold, hrest⟩ := ih variants hhash.2
      exact ⟨all, heq, hold, List.forall_mem_cons.mpr ⟨hold _ hmem, hrest⟩⟩
    · obtain ⟨all, heq, hold, hrest⟩ := ih (variants ++ [h.encodingOf c]) hhash.2
      refine ⟨all, heq, fun e he => hold e (List.mem_append_left _ he), ?_⟩
      exact List.forall_mem_cons.mpr ⟨hold _ (by simp), hrest⟩

theorem encodedVariants_eq_some {h : Hub} (hhash : h.Hashable) :
    ∃ all, h.encodedVariants = some all ∧ ∀ c ∈ h.clients, h.encodingOf c ∈ all := by
  obtain ⟨all, heq, -, hall⟩ := addVariants_eq_some [] hhash
  exact ⟨all, heq, hall⟩

end Hub

/-- The broadcasts: over the live set with one client left out, of a batch of fills, and of market
data, with or without an arbitrage message. -/
inductive Broadcast
  | toClients (exclude : Option ℕ)
  | fillsBatch
  | marketData (withArbitrage : Bool)

/-- What one broadcast sends: its message, and the arbitrage message that comes with it. -/
inductive Payload
  | main
  | extra
deriving DecidableEq

namespace Broadcast

def payloads : Broadcast → List Payload
  | .marketData true => [.main, .extra]
  | _ => [.main]

/-- The client is the one that is left out. -/
def excludes : Broadcast → ℕ → Prop
  | .toClients exclude, c => exclude = some c
  | _, _ => False

instance (b : Broadcast) (c : ℕ) : Decidable (b.excludes c) := by
  cases b <;> unfold excludes <;> infer_instance

end Broadcast

/-- What a client's task does between two awaits: it sends a payload chosen before, or looks the
variant of the client's encoding up and sends that. -/
inductive SendStage
  | send (payload : Payload) (format : Format)
  | lookUp (payload : Payload)

def SendStage.payload : SendStage → Payload
  | .send payload _ => payload
  | .lookUp payload => payload

/-- Where a broadcast stands: the loop over the live set keeps the clients not reached and the size at its
start, the others what each task has still to do. -/
inductive BroadcastProgress
  | looping (rest : List ℕ) (size : ℕ)
  | gathering (variants : List Encoding) (tasks : Dict ℕ (List SendStage))
  | ended
  | raised

namespace BroadcastProgress

def isLooping : BroadcastProgress → Bool
  | .looping _ _ => true
  | _ => false

def hasEnded : BroadcastProgress → Bool
  | .ended => true
  | _ => false

def hasRaised : BroadcastProgress → Bool
  | .raised => true
  | _ => false

end BroadcastProgress

/-- A frame that was sent. -/
structure SentFrame where
  client : ℕ
  payload : Payload
  format : Format

/-- A broadcast under way, with the clients as they were at its start and what has happened to them
since. -/
structure BroadcastRun where
  kind : Broadcast
  initial : Hub
  hub : Hub
  progress : BroadcastProgress
  disconnected : List ℕ := []
  sent : List SentFrame := []
  /-- The encodings negotiated since the start. -/
  subscribed : List (ℕ × Encoding) := []
  /-- The sockets that were closed or whose handler ended since the start. -/
  left : List ℕ := []

/-- What can happen at the await points of a broadcast. -/
inductive HubEvent
  /-- A socket joins; an iteration under way goes on in the given order. -/
  | connects (c : ℕ) (order : List ℕ)
  | closes (c : ℕ)
  | cleansUp (c : ℕ)
  | subscribes (c : ℕ) (encoding : Encoding)
  /-- What the broadcast itself awaits is there. -/
  | resumes
  /-- A client's task goes on. -/
  | turn (c : ℕ)

namespace BroadcastRun

/-- Send a frame on a socket that is still open. -/
def deliver (x : BroadcastRun) (c : ℕ) (payload : Payload) (format : Format) : BroadcastRun :=
  if c ∈ x.hub.closed then { x with disconnected := x.disconnected ++ [c] }
  else { x with sent := x.sent ++ [⟨c, payload, format⟩] }

/-- The broadcast returns. -/
def finish (x : BroadcastRun) : BroadcastRun :=
  { x with hub := x.hub.remove x.disconnected, progress := .ended }

/-- `_broadcast_to_clients` up to its next await. -/
def loop (x : BroadcastRun) (size : ℕ) : List ℕ → BroadcastRun
  | [] => x.finish
  | c :: rest =>
    if x.kind.excludes c then x.loop size rest
    else { x.deliver c .main .text with progress := .looping rest size }

/-- The iterator of the set compares sizes before it yields. -/
def iterate (x : BroadcastRun) (size : ℕ) (rest : List ℕ) : BroadcastRun :=
  if x.hub.clients.length = size then x.loop size rest else { x with progress := .raised }

/-- A task sends and goes on, or it ends because the socket is closed. -/
def taskSend (x : BroadcastRun) (variants : List Encoding) (tasks : Dict ℕ (List SendStage))
    (c : ℕ) (payload : Payload) (format : Format) (rest : List SendStage) : BroadcastRun :=
  { x.deliver c payload format with
    progress := .gathering variants (tasks.insert c (if c ∈ x.hub.closed then [] else rest)) }

/-- One stage of a client's task. A variant that is not in the table raises `KeyError`, which
`gather` keeps to itself. -/
def runStage (x : BroadcastRun) (variants : List Encoding) (tasks : Dict ℕ (List SendStage))
    (c : ℕ) (rest : List SendStage) : SendStage → BroadcastRun
  | .send payload format => x.taskSend variants tasks c payload format rest
  | .lookUp payload =>
    if x.hub.encodingOf c ∈ variants then
      x.taskSend variants tasks c payload (x.hub.format (x.hub.encodingOf c)) rest
    else { x with progress := .gathering variants (tasks.insert c []) }

def step (x : BroadcastRun) : HubEvent → BroadcastRun
  | .connects c order =>
    if c ∈ x.hub.clients then x else
      let hub := x.hub.connect c
      match x.progress with
      | .looping _ size =>
        { x with hub := hub, progress := .looping (order.filter (· ∈ hub.clients)) size }
      | _ => { x with hub := hub }
  | .closes c => { x with hub := { x.hub with closed := c :: x.hub.closed }, left := c :: x.left }
  | .cleansUp c =>
    let y := { x with hub := x.hub.cleanup c, left := c :: x.left }
    match x.progress with
    | .looping rest size => { y with progress := .looping (rest.filter (· ≠ c)) size }
    | _ => y
  | .subscribes c encoding =>
    { x with
      hub := x.hub.subscribe c encoding
      subscribed := (c, x.hub.negotiated encoding) :: x.subscribed }
  | .resumes =>
    match x.progress with
    | .looping rest size => x.iterate size rest
    | .gathering _ tasks => if tasks.values.all List.isEmpty then x.finish else x
    | _ => x
  | .turn c =>
    match x.progress with
    | .gathering variants tasks =>
      match tasks.find? c with
      | some (stage :: rest) => x.runStage variants tasks c rest stage
      | _ => x
    | _ => x

/-- What the task of a client does. -/
def stages (h : Hub) : Broadcast → ℕ → List SendStage
  | .toClients _, _ => []
  | .fillsBatch, _ => [.lookUp .main]
  | .marketData false, c => [.send .main (h.format (h.encodingOf c))]
  | .marketData true, c => [.send .main (h.format (h.encodingOf c)), .lookUp .extra]

/-- The tasks `gather` is given: one for each client connected now. -/
def tasks (h : Hub) (kind : Broadcast) : Dict ℕ (List SendStage) :=
  ⟨h.clients.map fun c => (c, stages h kind c), by simpa [Function.comp_def] using h.nodup⟩

/-- A broadcast up to its first await. -/
def start (kind : Broadcast) (h : Hub) : BroadcastRun :=
  let x : BroadcastRun := { kind := kind, initial := h, hub := h, progress := .raised }
  match kind with
  | .toClients _ => x.iterate h.clients.length h.clients
  | .fillsBatch =>
    match h.encodedVariants with
    | none => x
    | some variants => { x with progress := .gathering variants (tasks h kind) }
  | .marketData withArbitrage =>
    match if withArbitrage then h.encodedVariants else some [] with
    | none => x
    | some variants =>
      -- the cache of payloads is keyed by the encodings as well
      if h.Hashable then { x with progress := .gathering variants (tasks h kind) } else x

/-- What was sent to a client. -/
def payloadsTo (x : BroadcastRun) (c : ℕ) : List Payload :=
  (x.sent.filter (·.client = c)).map SentFrame.payload

/-- The client was connected when the broadcast began, has been since, and is not left out. -/
def Owes (x : BroadcastRun) (c : ℕ) : Prop :=
  c ∈ x.initial.clients ∧ c ∉ x.initial.closed ∧ c ∉ x.left ∧ ¬ x.kind.excludes c

instance (x : BroadcastRun) (c : ℕ) : Decidable (x.Owes c) := inferInstanceAs (Decidable (_ ∧ _))

/-- The client has negotiated an encoding of the format: the one it had when the broadcast began or
one it subscribed with since. -/
def Offered (x : BroadcastRun) (c : ℕ) (format : Format) : Prop :=
  x.initial.format (x.initial.encodingOf c) = format ∨
    ∃ e ∈ x.subscribed, e.1 = c ∧ x.initial.format e.2 = format

instance (x : BroadcastRun) (c : ℕ) (format : Format) : Decidable (x.Offered c format) :=
  inferInstanceAs (Decidable (_ ∨ _))

/-- The broadcast has not raised, and if it has returned, every client it owes its messages to was
sent each of them once, in a format it negotiated. -/
def ReachesAll (x : BroadcastRun) : Prop :=
  x.progress.hasRaised = false ∧ (x.progress.hasEnded = true → ∀ c ∈ x.initial.clients, x.Owes c →
    x.payloadsTo c = x.kind.payloads ∧ ∀ s ∈ x.sent, s.client = c → x.Offered c s.format)

instance (x : BroadcastRun) : Decidable x.ReachesAll := inferInstanceAs (Decidable (_ ∧ _))

/-- What the clients must be like at the start: for the loop over the live set, those it is meant for take
text; for the others, every encoding can be a key. -/
def Suits (kind : Broadcast) (h : Hub) : Prop :=
  match kind with
  | .toClients exclude => ∀ c ∈ h.clients, c ∉ h.closed → exclude ≠ some c →
      h.format (h.encodingOf c) = .text
  | _ => h.Hashable

instance (kind : Broadcast) (h : Hub) : Decidable (Suits kind h) := by
  cases kind <;> unfold Suits <;> infer_instance

/-- The task of a client is to look a variant up next. -/
def looksUp (x : BroadcastRun) (c : ℕ) : Bool :=
  match x.progress with
  | .gathering _ tasks =>
    match tasks.find? c with
    | some (.lookUp _ :: _) => true
    | _ => false
  | _ => false

/-- The set keeps its members while it is iterated, and a client whose variant is looked up has an encoding
some client had at the start. -/
def Undisturbed (x : BroadcastRun) : HubEvent → Prop
  | .connects c _ => c ∉ x.hub.clients → x.progress.isLooping = false
  | .cleansUp c => c ∈ x.hub.clients → x.progress.isLooping = false
  | .turn c => x.looksUp c = true → x.Owes c →
      ∃ d ∈ x.initial.clients, x.initial.encodingOf d = x.hub.encodingOf c
  | _ => True

instance (x : BroadcastRun) (e : HubEvent) : Decidable (x.Undisturbed e) := by
  cases e <;> unfold Undisturbed <;> infer_instance

/-- What a broadcast that stands there still has to send to a client. -/
def due : BroadcastProgress → ℕ → List Payload
  | .looping rest _, c => if c ∈ rest then [.main] else []
  | .gathering _ tasks, c => ((tasks.find? c).getD []).map SendStage.payload
  | _, _ => []

/-- Each client is owed what was sent to it and what is due to it. -/
def Balanced (x : BroadcastRun) (progress : BroadcastProgress) : Prop :=
  ∀ c, x.Owes c → x.payloadsTo c ++ due progress c = x.kind.payloads

/-- What is due can be sent: the set has the size it had, and the clients to come take text; a task has a
negotiated payload, and variants for the encodings of the start. -/
def Sendable (x : BroadcastRun) : BroadcastProgress → Prop
  | .looping rest size => x.hub.clients.length = size ∧ rest.Nodup ∧ ∀ c, x.Owes c → x.Offered c .text
  | .gathering variants tasks => ∀ c, x.Owes c → ∀ stage ∈ (tasks.find? c).getD [], match stage with
      | .send _ format => x.Offered c format
      | .lookUp _ => ∀ d ∈ x.initial.clients, x.initial.encodingOf d ∈ variants
  | .ended => True
  | .raised => False

/-- The encodings and the closed sockets differ from those of the start by what has happened
since. -/
structure Tracked (x : BroadcastRun) : Prop where
  hasMsgpack : x.hub.hasMsgpack = x.initial.hasMsgpack
  encoding : ∀ c, c ∉ x.left → x.hub.encodingOf c = x.initial.encodingOf c ∨
    (c, x.hub.encodingOf c) ∈ x.subscribed
  closed : ∀ c ∈ x.hub.closed, c ∈ x.initial.closed ∨ c ∈ x.left

/-- The state of a broadcast that nothing has disturbed, if it stands where `progress` says. -/
structure OnCourse (x : BroadcastRun) (progress : BroadcastProgress) : Prop where
  balanced : x.Balanced progress
  sendable : x.Sendable progress
  offered : ∀ s ∈ x.sent, x.Owes s.client → x.Offered s.client s.format
  tracked : x.Tracked

variable {x : BroadcastRun} {c : ℕ}

theorem Tracked.open_of_owes (h : x.Tracked) (howes : x.Owes c) : c ∉ x.hub.closed := by
  intro hmem
  rcases h.closed c hmem with hinitial | hleft
  · exact howes.2.1 hinitial
  · exact howes.2.2.1 hleft

/-- The encoding a client has now is one it negotiated. -/
theorem Tracked.offered_current (h : x.Tracked) (howes : x.Owes c) :
    x.Offered c (x.hub.format (x.hub.encodingOf c)) := by
  have hformat : x.hub.format = x.initial.format := by
    funext encoding
    simp only [Hub.format, h.hasMsgpack]
  rw [hformat]
  rcases h.encoding c howes.2.2.1 with hsame | hsubscribed
  · rw [hsame]
    exact Or.inl rfl
  · exact Or.inr ⟨_, hsubscribed, rfl, rfl⟩

theorem OnCourse.reachesAll (h : x.OnCourse x.progress) : x.ReachesAll := by
  constructor
  · cases hprogress : x.progress with
    | raised => exact absurd h.sendable (by rw [hprogress]; exact id)
    | _ => rfl
  · intro hended c _ howes
    have hdue : due x.progress c = [] := by
      cases hprogress : x.progress with
      | ended => rfl
      | _ =>
        rw [hprogress] at hended
        cases hended
    have hbalanced := h.balanced c howes
    rw [hdue, List.append_nil] at hbalanced
    exact ⟨hbalanced, fun s hs hclient => hclient ▸ h.offered s hs (hclient ▸ howes)⟩

/-- An event that only concerns the clients: it sends nothing, and the size of the set matters to a
loop alone. -/
theorem OnCourse.of_hub {x y : BroadcastRun} (h : x.OnCourse x.progress)
    (hkind : y.kind = x.kind) (hinitial : y.initial = x.initial)
    (hprogress : y.progress = x.progress) (hsent : y.sent = x.sent) (hleft : x.left ⊆ y.left)
    (hsubscribed : x.subscribed ⊆ y.subscribed)
    (hsize : x.progress.isLooping = true → y.hub.clients.length = x.hub.clients.length)
    (htracked : y.Tracked) : y.OnCourse y.progress := by
  have howes : ∀ c, y.Owes c → x.Owes c := by
    intro c hc
    rw [Owes, hkind, hinitial] at hc
    exact ⟨hc.1, hc.2.1, fun hmem => hc.2.2.1 (hleft hmem), hc.2.2.2⟩
  have hoffered : ∀ c format, x.Offered c format → y.Offered c format := by
    intro c format hc
    rw [Offered, hinitial]
    rcases hc with hc | ⟨e, he, hclient, hformat⟩
    · exact Or.inl hc
    · exact Or.inr ⟨e, hsubscribed he, hclient, hformat⟩
  rw [hprogress]
  constructor
  · intro c hc
    rw [payloadsTo, hsent, hkind]
    exact h.balanced c (howes c hc)
  · have hsendable := h.sendable
    revert hsendable
    cases hcase : x.progress with
    | looping rest size =>
      rintro ⟨hlength, hnodup, htext⟩
      rw [hcase] at hsize
      exact ⟨(hsize rfl).trans hlength, hnodup, fun c hc => hoffered c _ (htext c (howes c hc))⟩
    | gathering variants tasks =>
      intro hstages c hc stage hstage
      have hx := hstages c (howes c hc) stage hstage
      cases stage with
      | send payload format => exact hoffered c format hx
      | lookUp payload =>
        simp only [hinitial]
        exact hx
    | ended => exact id
    | raised => exact id
  · intro s hs hc
    rw [hsent] at hs
    exact hoffered _ _ (h.offered s hs (howes _ hc))
  · exact htracked

/-- What a client has been sent after one more send. -/
theorem payloadsTo_deliver (x : BroadcastRun) (c c' : ℕ) (payload : Payload) (format : Format) :
    (x.deliver c payload format).payloadsTo c' =
      x.payloadsTo c' ++ if c' = c ∧ c ∉ x.hub.closed then [payload] else [] := by
  unfold deliver
  split
  · rename_i hclosed
    simp [payloadsTo, hclosed]
  · rename_i hopen
    by_cases hc : c' = c
    · subst hc
      simp [payloadsTo, hopen]
    · have hne : c ≠ c' := fun h => hc h.symm
      simp [payloadsTo, hc, hne]

variable {payload : Payload} {variants : List Encoding} {format : Format}

theorem owes_deliver {c c' : ℕ} : (x.deliver c payload format).Owes c' ↔ x.Owes c' := by
  unfold deliver
  split <;> exact Iff.rfl

theorem offered_deliver {c c' : ℕ} {format format' : Format} :
    (x.deliver c payload format).Offered c' format' ↔ x.Offered c' format' := by
  unfold deliver
  split <;> exact Iff.rfl

theorem hub_deliver (x : BroadcastRun) (c : ℕ) (payload : Payload) (format : Format) :
    (x.deliver c payload format).hub = x.hub := by
  unfold deliver
  split <;> rfl

theorem kind_deliver (x : BroadcastRun) (c : ℕ) (payload : Payload) (format : Format) :
    (x.deliver c payload format).kind = x.kind := by
  unfold deliver
  split <;> rfl

theorem initial_deliver (x : BroadcastRun) (c : ℕ) (payload : Payload) (format : Format) :
    (x.deliver c payload format).initial = x.initial := by
  unfold deliver
  split <;> rfl

theorem Tracked.deliver (h : x.Tracked) (c : ℕ) (payload : Payload)
    (format : Format) : (x.deliver c payload format).Tracked := by
  unfold BroadcastRun.deliver
  split <;> exact ⟨h.hasMsgpack, h.encoding, h.closed⟩

/-- A frame sent in a negotiated format keeps the formats right. -/
theorem offered_of_deliver (h : ∀ s ∈ x.sent, x.Owes s.client → x.Offered s.client s.format)
    (hformat : x.Owes c → x.Offered c format) : ∀ s ∈ (x.deliver c payload format).sent,
      (x.deliver c payload format).Owes s.client →
        (x.deliver c payload format).Offered s.client s.format := by
  intro s hs howes
  rw [offered_deliver]
  rw [owes_deliver] at howes
  unfold deliver at hs
  split at hs
  · exact h s hs howes
  · rcases List.mem_append.mp hs with hold | hnew
    · exact h s hold howes
    · rw [List.mem_singleton] at hnew
      subst hnew
      exact hformat howes

/-- Sending what is due first keeps the balance: the rest is due afterwards. -/
theorem Balanced.deliver {progress progress' : BroadcastProgress}
    (h : x.Balanced progress) (htracked : x.Tracked) (format : Format)
    (hself : x.Owes c → due progress c = payload :: due progress' c)
    (hothers : ∀ c' ≠ c, due progress' c' = due progress c') :
    (x.deliver c payload format).Balanced progress' := by
  intro c' howes
  rw [owes_deliver] at howes
  rw [payloadsTo_deliver, kind_deliver, ← h c' howes]
  by_cases hc : c' = c
  · subst hc
    rw [hself howes, if_pos ⟨rfl, htracked.open_of_owes howes⟩, List.append_assoc,
      List.singleton_append]
  · rw [hothers c' hc, if_neg (fun hand => hc hand.1), List.append_nil]

/-- The broadcast returns when nothing is due any more. -/
theorem OnCourse.finish {progress : BroadcastProgress}
    (h : x.OnCourse progress) (hdue : ∀ c, x.Owes c → due progress c = []) :
    x.finish.OnCourse x.finish.progress := by
  constructor
  · intro c howes
    have hbalanced := h.balanced c howes
    rw [hdue c howes] at hbalanced
    exact hbalanced
  · exact trivial
  · exact h.offered
  · exact ⟨h.tracked.hasMsgpack, h.tracked.encoding, h.tracked.closed⟩

/-- The loop over the live set, by induction on the clients it has not reached: it passes over the
one that is left out and stops after its next send. -/
theorem OnCourse.loop {size : ℕ} {rest : List ℕ} (h : x.OnCourse (.looping rest size)) :
    (x.loop size rest).OnCourse (x.loop size rest).progress := by
  induction rest with
  | nil => exact h.finish fun c _ => by simp [due]
  | cons c rest ih =>
    obtain ⟨hlength, hnodup, htext⟩ := h.sendable
    rw [List.nodup_cons] at hnodup
    unfold BroadcastRun.loop
    split
    · rename_i hexcluded
      refine ih ⟨fun c' howes => ?_, ⟨hlength, hnodup.2, htext⟩, h.offered, h.tracked⟩
      have hne : c' ≠ c := by
        rintro rfl
        exact howes.2.2.2 hexcluded
      have hbalanced := h.balanced c' howes
      simpa [due, hne] using hbalanced
    · have hbalanced : (x.deliver c .main .text).Balanced (.looping rest size) :=
        h.balanced.deliver h.tracked .text (fun _ => by simp [due, hnodup.1])
          (fun c' hne => by simp [due, hne])
      constructor
      · exact hbalanced
      · refine ⟨?_, hnodup.2, fun c' howes => ?_⟩
        · rw [← hlength]
          exact congrArg (fun hub : Hub => hub.clients.length) (x.hub_deliver c .main .text)
        · exact offered_deliver.mpr (htext c' (owes_deliver.mp howes))
      · exact offered_of_deliver h.offered (htext c)
      · exact ⟨(h.tracked.deliver c .main .text).hasMsgpack,
          (h.tracked.deliver c .main .text).encoding, (h.tracked.deliver c .main .text).closed⟩

/-- The stages of a client's task after the tasks of a client have been replaced. -/
theorem getD_insert (tasks : Dict ℕ (List SendStage)) (c c' : ℕ) (rest : List SendStage) :
    ((tasks.insert c rest).find? c').getD [] = if c' = c then rest else (tasks.find? c').getD [] := by
  rw [Dict.find?_insert]
  split <;> rfl

theorem OnCourse.taskSend {tasks : Dict ℕ (List SendStage)} {stage : SendStage} {rest : List SendStage}
    (h : x.OnCourse (.gathering variants tasks))
    (htask : tasks.find? c = some (stage :: rest)) (hformat : x.Owes c → x.Offered c format) :
    (x.taskSend variants tasks c stage.payload format rest).OnCourse
      (x.taskSend variants tasks c stage.payload format rest).progress := by
  have hopen : ∀ c', x.Owes c' → c' ∉ x.hub.closed := fun c' => h.tracked.open_of_owes
  have hbalanced : (x.deliver c stage.payload format).Balanced
      (.gathering variants (tasks.insert c (if c ∈ x.hub.closed then [] else rest))) := by
    refine h.balanced.deliver h.tracked format (fun howes => ?_) (fun c' hne => ?_)
    · simp [due, htask, hopen c howes]
    · simp only [due, getD_insert, if_neg hne]
  constructor
  · exact hbalanced
  · intro c' howes stage' hstage
    have howes' : x.Owes c' := owes_deliver.mp howes
    have hstage' : stage' ∈ (tasks.find? c').getD [] := by
      rw [getD_insert] at hstage
      split at hstage
      · rename_i hc
        subst hc
        rw [if_neg (hopen c' howes')] at hstage
        rw [htask]
        exact List.mem_cons_of_mem _ hstage
      · exact hstage
    have hx := h.sendable c' howes' stage' hstage'
    cases stage' with
    | send payload' format' => exact offered_deliver.mpr hx
    | lookUp payload' =>
      intro d hd
      have hinitial := x.initial_deliver c stage.payload format
      change d ∈ (x.deliver c stage.payload format).initial.clients at hd
      change (x.deliver c stage.payload format).initial.encodingOf d ∈ variants
      rw [hinitial] at hd ⊢
      exact hx d hd
  · exact offered_of_deliver h.offered hformat
  · exact ⟨(h.tracked.deliver c stage.payload format).hasMsgpack,
      (h.tracked.deliver c stage.payload format).encoding,
      (h.tracked.deliver c stage.payload format).closed⟩

/-- A task that ends because its client's variant is missing: nothing was owed to that client. -/
theorem OnCourse.dropTask {tasks : Dict ℕ (List SendStage)} (h : x.OnCourse (.gathering variants tasks))
    (hnot : ¬ x.Owes c) : ({ x with progress := .gathering variants (tasks.insert c []) } :
      BroadcastRun).OnCourse (.gathering variants (tasks.insert c [])) := by
  have hne : ∀ c', x.Owes c' → c' ≠ c := by
    rintro c' howes rfl
    exact hnot howes
  constructor
  · intro c' howes
    have hbalanced := h.balanced c' howes
    simp only [due, getD_insert, if_neg (hne c' howes)]
    exact hbalanced
  · intro c' howes stage hstage
    rw [getD_insert, if_neg (hne c' howes)] at hstage
    exact h.sendable c' howes stage hstage
  · exact h.offered
  · exact ⟨h.tracked.hasMsgpack, h.tracked.encoding, h.tracked.closed⟩

/-- One stage of a task: the payload was chosen in a negotiated format, or the encoding the client
has now is among the variants. -/
theorem OnCourse.turn (h : x.OnCourse x.progress) (hguard : x.Undisturbed (.turn c)) :
    (x.step (.turn c)).OnCourse (x.step (.turn c)).progress := by
  cases hprogress : x.progress with
  | gathering variants tasks =>
    rw [hprogress] at h
    cases htask : tasks.find? c with
    | none =>
      simp only [step, hprogress, htask]
      exact hprogress ▸ h
    | some stages =>
      cases stages with
      | nil =>
        simp only [step, hprogress, htask]
        exact hprogress ▸ h
      | cons stage rest =>
        simp only [step, hprogress, htask]
        cases stage with
        | send payload format =>
          refine h.taskSend htask fun howes => ?_
          exact h.sendable c howes (.send payload format) (by simp [htask])
        | lookUp payload =>
          simp only [runStage]
          split
          · exact h.taskSend htask h.tracked.offered_current
          · rename_i hmissing
            refine h.dropTask fun howes => hmissing ?_
            obtain ⟨d, hd, heq⟩ := hguard (by simp [looksUp, hprogress, htask]) howes
            rw [← heq]
            exact h.sendable c howes (.lookUp payload) (by simp [htask]) d hd
  | _ =>
    simp only [step, hprogress]
    exact hprogress ▸ h

/-- What the broadcast awaits is there: the loop goes on, or the tasks are all done. -/
theorem OnCourse.resumes (h : x.OnCourse x.progress) :
    (x.step .resumes).OnCourse (x.step .resumes).progress := by
  cases hprogress : x.progress with
  | looping rest size =>
    rw [hprogress] at h
    simp only [step, hprogress, iterate, if_pos h.sendable.1]
    exact h.loop
  | gathering variants tasks =>
    simp only [step, hprogress]
    split
    · rename_i hdone
      rw [hprogress] at h
      refine h.finish fun c _ => ?_
      cases htask : tasks.find? c with
      | none => simp [due, htask]
      | some stages =>
        have hmem : stages ∈ tasks.values :=
          List.mem_map.mpr ⟨(c, stages), (tasks.mem_entries_iff c stages).mpr htask, rfl⟩
        have hnil := List.isEmpty_iff.mp (List.all_eq_true.mp hdone stages hmem)
        simp [due, htask, hnil]
    · exact h
  | _ =>
    simp only [step, hprogress]
    exact hprogress ▸ h

/-- Passing over a client to whom nothing is owed. -/
theorem OnCourse.passOver {size : ℕ} {rest : List ℕ}
    (h : x.OnCourse (.looping rest size)) (hnot : ¬ x.Owes c) :
    ({ x with progress := .looping (rest.filter (· ≠ c)) size } : BroadcastRun).OnCourse
      (.looping (rest.filter (· ≠ c)) size) := by
  obtain ⟨hlength, hnodup, htext⟩ := h.sendable
  refine ⟨fun c' howes => ?_, ⟨hlength, hnodup.filter _, htext⟩, h.offered,
    ⟨h.tracked.hasMsgpack, h.tracked.encoding, h.tracked.closed⟩⟩
  have hne : c' ≠ c := by
    rintro rfl
    exact hnot howes
  have hdue : due (.looping (rest.filter (· ≠ c)) size) c' = due (.looping rest size) c' := by
    simp [due, hne]
  rw [hdue]
  exact h.balanced c' howes

/-- The handler of a client ends: the set shrinks only if no loop runs over it. -/
theorem OnCourse.cleansUp (h : x.OnCourse x.progress) (hguard : x.Undisturbed (.cleansUp c)) :
    (x.step (.cleansUp c)).OnCourse (x.step (.cleansUp c)).progress := by
  have hencoding : ∀ c', c' ∉ c :: x.left →
      (x.hub.cleanup c).encodingOf c' = x.hub.encodingOf c' := by
    intro c' hc'
    rw [Hub.encodingOf, Hub.cleanup, Dict.find?_erase_of_ne _ (List.ne_of_not_mem_cons hc'),
      Hub.encodingOf]
  have hhub : ({ x with hub := x.hub.cleanup c, left := c :: x.left } : BroadcastRun).OnCourse
      x.progress := by
    refine h.of_hub rfl rfl rfl rfl (List.subset_cons_self c x.left) (List.Subset.refl _)
      (fun hlooping => ?_) ⟨h.tracked.hasMsgpack, ?_, ?_⟩
    · have habsent : c ∉ x.hub.clients := fun hmem => by
        rw [hguard hmem] at hlooping
        cases hlooping
      simp only [Hub.cleanup, List.erase_of_not_mem habsent]
    · intro c' hc'
      simp only [hencoding c' hc']
      exact h.tracked.encoding c' (List.not_mem_of_not_mem_cons hc')
    · intro c' hc'
      exact (h.tracked.closed c' hc').imp_right (List.mem_cons_of_mem c)
  have hnot : ¬ ({ x with hub := x.hub.cleanup c, left := c :: x.left } : BroadcastRun).Owes c :=
    fun howes => howes.2.2.1 List.mem_cons_self
  cases hprogress : x.progress with
  | looping rest size =>
    rw [hprogress] at hhub
    simp only [step, hprogress]
    exact hhub.passOver hnot
  | _ =>
    simp only [step, hprogress]
    exact hprogress ▸ hhub

theorem onCourse_step (x : BroadcastRun) (e : HubEvent) (h : x.OnCourse x.progress)
    (hguard : x.Undisturbed e) : (x.step e).OnCourse (x.step e).progress := by
  cases e with
  | connects c order =>
    simp only [step]
    split
    · exact h
    · rename_i hnew
      have hstill : x.progress.isLooping = false := hguard hnew
      have hhub : ({ x with hub := x.hub.connect c } : BroadcastRun).OnCourse x.progress :=
        h.of_hub rfl rfl rfl rfl (List.Subset.refl _) (List.Subset.refl _)
          (fun hlooping => absurd hlooping (by simp [hstill]))
          ⟨h.tracked.hasMsgpack, h.tracked.encoding, h.tracked.closed⟩
      split
      · rename_i hprogress
        rw [hprogress] at hstill
        cases hstill
      · exact hhub
  | closes c =>
    refine h.of_hub rfl rfl rfl rfl (List.subset_cons_self c x.left) (List.Subset.refl _)
      (fun _ => rfl) ⟨h.tracked.hasMsgpack, ?_, ?_⟩
    · intro c' hc'
      exact h.tracked.encoding c' fun hmem => hc' (List.mem_cons_of_mem c hmem)
    · intro c' hc'
      rcases List.mem_cons.mp hc' with rfl | hold
      · exact Or.inr List.mem_cons_self
      · exact (h.tracked.closed c' hold).imp_right (List.mem_cons_of_mem c)
  | cleansUp c => exact h.cleansUp hguard
  | subscribes c encoding =>
    refine h.of_hub rfl rfl rfl rfl (List.Subset.refl _) (List.subset_cons_self _ _)
      (fun _ => rfl) ⟨h.tracked.hasMsgpack, ?_, h.tracked.closed⟩
    intro c' hc'
    by_cases hc : c' = c
    · subst hc
      right
      simp [step, Hub.subscribe, Hub.encodingOf]
    · have hsame : (x.hub.subscribe c encoding).encodingOf c' = x.hub.encodingOf c' := by
        rw [Hub.encodingOf, Hub.subscribe, Dict.find?_insert_of_ne _ hc, Hub.encodingOf]
      simp only [step, hsame]
      exact (h.tracked.encoding c' hc').imp_right (List.mem_cons_of_mem _)
  | resumes => exact h.resumes
  | turn c => exact h.turn hguard

theorem find?_tasks (kind : Broadcast) (h : Hub) (hc : c ∈ h.clients) :
    (tasks h kind).find? c = some (stages h kind c) :=
  (Dict.mem_entries_iff _ _ _).mp (List.mem_map.mpr ⟨c, hc, rfl⟩)

/-- The tasks begin with everything to send, in the formats of the start or by variants that are
there. -/
theorem onCourse_tasks {kind : Broadcast} {h : Hub}
    (hkind : ∀ c, (stages h kind c).map SendStage.payload = kind.payloads)
    (hvariants : ∀ c payload, .lookUp payload ∈ stages h kind c →
      ∀ d ∈ h.clients, h.encodingOf d ∈ variants)
    (hformats : ∀ c payload format, .send payload format ∈ stages h kind c →
      h.format (h.encodingOf c) = format) :
    ({ kind := kind, initial := h, hub := h, progress := .gathering variants (tasks h kind) } :
      BroadcastRun).OnCourse (.gathering variants (tasks h kind)) := by
  constructor
  · intro c howes
    simp only [due, find?_tasks kind h howes.1, Option.getD_some, hkind]
    rfl
  · intro c howes stage hstage
    rw [find?_tasks kind h howes.1, Option.getD_some] at hstage
    cases stage with
    | send payload format => exact Or.inl (hformats c payload format hstage)
    | lookUp payload => exact hvariants c payload hstage
  · intro s hs
    cases hs
  · exact ⟨rfl, fun _ _ => Or.inl rfl, fun _ => Or.inl⟩

theorem onCourse_start {kind : Broadcast} {h : Hub} (hsuits : Suits kind h) :
    (BroadcastRun.start kind h).OnCourse (BroadcastRun.start kind h).progress := by
  cases kind with
  | toClients exclude =>
    simp only [BroadcastRun.start, iterate, if_true]
    refine OnCourse.loop ⟨fun c howes => ?_, ⟨rfl, h.nodup, fun c howes => ?_⟩, ?_, ?_⟩
    · simp only [due, if_pos howes.1]
      rfl
    · exact Or.inl (hsuits c howes.1 howes.2.1 howes.2.2.2)
    · intro s hs
      cases hs
    · exact ⟨rfl, fun _ _ => Or.inl rfl, fun _ => Or.inl⟩
  | fillsBatch =>
    obtain ⟨variants, heq, hall⟩ := Hub.encodedVariants_eq_some hsuits
    simp only [BroadcastRun.start, heq]
    exact onCourse_tasks (fun _ => rfl) (fun _ _ _ => hall) (by simp [stages])
  | marketData withArbitrage =>
    have hhash : h.Hashable := hsuits
    cases withArbitrage with
    | false =>
      simp only [BroadcastRun.start, Bool.false_eq_true, if_false, if_pos hhash]
      refine onCourse_tasks (fun _ => rfl) (by simp [stages]) fun c payload format hmem => ?_
      simp only [stages, List.mem_singleton, SendStage.send.injEq] at hmem
      exact hmem.2.symm
    | true =>
      obtain ⟨variants, heq, hall⟩ := Hub.encodedVariants_eq_some hhash
      simp only [BroadcastRun.start, if_true, heq, if_pos hhash]
      refine onCourse_tasks (fun _ => rfl) (fun _ _ _ => hall) fun c payload format hmem => ?_
      simp only [stages, List.mem_cons, SendStage.send.injEq, List.not_mem_nil, or_false,
        reduceCtorEq] at hmem
      exact hmem.2.symm

/-- In every run that nothing disturbs, of a broadcast that suits the clients it begins with, every
reached state has sent each client its messages once, or will. -/
theorem reachesAll_of_undisturbed (kind : Broadcast) (h : Hub) (events : List HubEvent)
    (hsuits : Suits kind h) (hundisturbed : Along step Undisturbed (BroadcastRun.start kind h) events) :
    (run step (BroadcastRun.start kind h) events).ReachesAll := by
  have hcourse := run_invariant_of_along (fun x => x.OnCourse x.progress) onCourse_step
    (onCourse_start hsuits) hundisturbed
  exact hcourse.reachesAll

/-- Two clients that negotiated nothing. -/
def twoClients : Hub := { hasMsgpack := true, clients := [0, 1], nodup := by decide }

/-- One client with JSON and one with msgpack. -/
def mixedClients : Hub :=
  { twoClients with encodings := ⟨[(1, .msgpack)], by decide⟩ }

/-- A third client joins while the first one is being sent the message: the iteration raises, and
the second client is never reached. -/
theorem not_reachesAll_joined : ¬ (run step (BroadcastRun.start (.toClients none) twoClients)
      [.connects 2 [1, 2], .resumes]).ReachesAll := by
  decide

/-- A client that changes to an encoding another one had at the start is still sent the fills, and
one that joins is not waited for. -/
theorem reachesAll_resubscribed : (run step (BroadcastRun.start .fillsBatch mixedClients)
      [.subscribes 0 .msgpack, .turn 0, .connects 2 [], .turn 1, .resumes]).ReachesAll :=
  reachesAll_of_undisturbed .fillsBatch mixedClients _ (by decide) (by decide)

end BroadcastRun

end TradingSim.Gateway
