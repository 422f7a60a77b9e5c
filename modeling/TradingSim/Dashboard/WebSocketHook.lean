import Mathlib.Data.List.Nodup
import TradingSim.Foundations.Run

/-!
# The socket of the dashboard

The hook keeps its socket in a ref and makes a new one when it is asked to connect and the one in the
ref is not open. The handlers of a socket act on the shared state whichever socket is in the ref: the
close event of an old socket clears the flag of the new one and schedules a retry, and a socket that
is still opening is replaced by another without being closed.
-/

namespace TradingSim.Dashboard

open Foundations

/-- A browser socket: the events it has delivered and whether `close` was called. -/
structure Socket where
  opened : Bool := false
  closeCalled : Bool := false
  closed : Bool := false
  deriving DecidableEq

/-- The ready state is `OPEN`. -/
def Socket.isOpen (s : Socket) : Bool := s.opened && !s.closeCalled && !s.closed

/-- A socket that has neither closed nor been asked to. -/
def Socket.isLive (s : Socket) : Bool := !s.closeCalled && !s.closed

/-- The options of the hook. -/
structure HookOptions where
  autoConnect : Bool := true
  maxReconnects : ℕ := 20

/-- The sockets made, the pending retry timers, and the refs. `disconnected` is bookkeeping: `disconnect`
was called, and not `connect` since. -/
structure WebSocketHook where
  sockets : List Socket := []
  wsRef : Option ℕ := none
  timers : List ℕ := []
  reconnectTimer : Option ℕ := none
  nextTimer : ℕ := 0
  reconnectAttempts : ℕ := 0
  manualClose : Bool := false
  isRetry : Bool := false
  connected : Bool := false
  disconnected : Bool := false
  deriving DecidableEq

/-- What happens: calls of the hook's functions, events of a socket, and a retry timer that fires. The
constructor of a socket may fail. -/
inductive HookEvent
  | connect (fails : Bool)
  | disconnect
  | opened (s : ℕ)
  | message (s : ℕ)
  | closed (s : ℕ)
  | retry (timer : ℕ) (fails : Bool)
  deriving DecidableEq

namespace WebSocketHook

variable (o : HookOptions)

/-- The ready state of the socket in the ref is `OPEN`. -/
def wsOpen (x : WebSocketHook) : Bool :=
  x.wsRef.any fun s => (x.sockets[s]?).any Socket.isOpen

def live (x : WebSocketHook) (s : ℕ) : Bool := (x.sockets[s]?).any Socket.isLive

def setSocket (x : WebSocketHook) (s : ℕ) (f : Socket → Socket) : WebSocketHook :=
  { x with sockets := x.sockets.modify s f }

def scheduleRetry (x : WebSocketHook) : WebSocketHook :=
  let x := { x with reconnectAttempts := x.reconnectAttempts + 1 }
  if o.autoConnect = false ∨ o.maxReconnects ≤ x.reconnectAttempts then x
  else
    { x with
      timers := x.timers ++ [x.nextTimer]
      reconnectTimer := some x.nextTimer
      nextTimer := x.nextTimer + 1 }

/-- Clear the timer in the ref. -/
def clearTimer (x : WebSocketHook) : WebSocketHook :=
  match x.reconnectTimer with
  | some timer => { x with timers := x.timers.erase timer, reconnectTimer := none }
  | none => x

/-- The body of `connect`. -/
def openSocket (x : WebSocketHook) (fails : Bool) : WebSocketHook :=
  if x.wsOpen then x
  else
    let x := x.clearTimer
    let x := if x.isRetry then { x with isRetry := false } else { x with reconnectAttempts := 0 }
    let x := { x with manualClose := false }
    if fails then x.scheduleRetry o
    else { x with sockets := x.sockets ++ [({} : Socket)], wsRef := some x.sockets.length }

def disconnect (x : WebSocketHook) : WebSocketHook :=
  let x := { x.clearTimer with manualClose := true }
  let x := match x.wsRef with
    | some s => x.setSocket s fun socket => { socket with closeCalled := true }
    | none => x
  { x with wsRef := none, connected := false, disconnected := true }

def onOpen (x : WebSocketHook) (s : ℕ) : WebSocketHook :=
  { x.setSocket s fun socket => { socket with opened := true } with
    connected := true
    reconnectAttempts := 0 }

def onClose (x : WebSocketHook) (s : ℕ) : WebSocketHook :=
  let x := { x.setSocket s fun socket => { socket with closed := true } with connected := false }
  if x.manualClose then x else x.scheduleRetry o

/-- The events that the browser may deliver: one `open`, then messages, and one `close`. -/
def Possible (x : WebSocketHook) : HookEvent → Prop
  | .connect _ => True
  | .disconnect => True
  | .opened s => (x.sockets[s]?).any (fun socket => !socket.opened && !socket.closed) = true
  | .message s => (x.sockets[s]?).any (fun socket => socket.opened && !socket.closed) = true
  | .closed s => (x.sockets[s]?).any (fun socket => !socket.closed) = true
  | .retry timer _ => timer ∈ x.timers

instance (x : WebSocketHook) (e : HookEvent) : Decidable (x.Possible e) := by
  cases e <;> unfold Possible <;> infer_instance

/-- What an event that is possible does. -/
def handle (x : WebSocketHook) : HookEvent → WebSocketHook
  | .connect fails => { x with disconnected := false }.openSocket o fails
  | .disconnect => x.disconnect
  | .opened s => x.onOpen s
  | .message _ => x
  | .closed s => x.onClose o s
  | .retry timer fails =>
    { x with
      timers := x.timers.erase timer
      reconnectTimer := none
      isRetry := true }.openSocket o fails

def step (x : WebSocketHook) (e : HookEvent) : WebSocketHook := if x.Possible e then x.handle o e else x

/-- The socket whose message is handed to `onMessage`. -/
def handed (x : WebSocketHook) : HookEvent → Option ℕ
  | .message s => if x.Possible (.message s) then some s else none
  | _ => none

/-- What the hook owes its user at an event. -/
structure Reliable (x : WebSocketHook) (e : HookEvent) : Prop where
  /-- There is at most one live socket. -/
  single : ∀ s s', (x.step o e).live s = true → (x.step o e).live s' = true → s = s'
  /-- Messages are handed on only from the socket in the ref. -/
  current : ∀ s ∈ x.handed e, x.wsRef = some s
  /-- `connected` tells whether the socket in the ref is open. -/
  truthful : (x.step o e).connected = true ↔ (x.step o e).wsOpen = true
  /-- After `disconnect` no retry is pending, and no socket is made. -/
  quiet : (x.step o e).disconnected = true →
    (x.step o e).timers = [] ∧ (x.step o e).sockets.length = x.sockets.length

/-- An attempt to connect finds the socket in the ref open, or makes no second live one. -/
def MayConnect (x : WebSocketHook) (fails : Bool) : Prop :=
  fails = true ∨ x.wsOpen = true ∨ ∀ s, x.live s = false

/-- The condition on an event. -/
def Orderly (x : WebSocketHook) (e : HookEvent) : Prop :=
  x.Possible e →
    match e with
    | .connect fails => x.MayConnect fails
    | .disconnect => ∀ timer ∈ x.timers, x.reconnectTimer = some timer
    | .opened s => x.wsRef = some s ∨ x.wsOpen = true
    | .message s => x.wsRef = some s
    | .closed s => x.wsRef = some s ∨ x.wsOpen = false
    | .retry _ fails => x.MayConnect fails

variable {o : HookOptions} {x : WebSocketHook}

/-- What holds of the hook as long as it is reliable. -/
structure Consistent (x : WebSocketHook) : Prop where
  single : ∀ s s', x.live s = true → x.live s' = true → s = s'
  truthful : x.connected = true ↔ x.wsOpen = true
  quiet : x.disconnected = true → x.timers = [] ∧ x.manualClose = true
  held : ∀ s, x.wsRef = some s → ∃ socket, x.sockets[s]? = some socket ∧ socket.closeCalled = false
  nodup : x.timers.Nodup
  issued : ∀ timer ∈ x.timers, timer < x.nextTimer

variable {y : WebSocketHook} {s : ℕ}

theorem live_iff : x.live s = true ↔ ∃ socket, x.sockets[s]? = some socket ∧ socket.isLive = true := by
  rw [live, Option.any_eq_true]

/-- Sockets and the ref decide which sockets are live and whether the one in the ref is open. -/
theorem wsOpen_congr (hsockets : y.sockets = x.sockets) (href : y.wsRef = x.wsRef) : y.wsOpen = x.wsOpen := by
  rw [wsOpen, wsOpen, hsockets, href]

theorem live_congr (hsockets : y.sockets = x.sockets) (s : ℕ) : y.live s = x.live s := by
  rw [live, live, hsockets]

/-- The timers are different and their numbers have been given out. -/
def TimersFit (x : WebSocketHook) : Prop := x.timers.Nodup ∧ ∀ timer ∈ x.timers, timer < x.nextTimer

theorem scheduleRetry_spec (h : x.TimersFit) :
    (x.scheduleRetry o).sockets = x.sockets ∧ (x.scheduleRetry o).wsRef = x.wsRef ∧
      (x.scheduleRetry o).connected = x.connected ∧
      (x.scheduleRetry o).disconnected = x.disconnected ∧ (x.scheduleRetry o).TimersFit := by
  unfold scheduleRetry
  dsimp only
  split
  · exact ⟨rfl, rfl, rfl, rfl, h⟩
  · refine ⟨rfl, rfl, rfl, rfl, ?_, ?_⟩
    · refine List.nodup_append.mpr ⟨h.1, List.nodup_singleton _, ?_⟩
      rintro timer htimer _ hnew rfl
      rw [List.mem_singleton.mp hnew] at htimer
      exact Nat.lt_irrefl _ (h.2 _ htimer)
    · intro timer htimer
      rcases List.mem_append.mp htimer with hold | hnew
      · exact Nat.lt_succ_of_lt (h.2 timer hold)
      · rw [List.mem_singleton.mp hnew]
        exact Nat.lt_succ_self _

theorem TimersFit.erase (h : x.TimersFit) (timer : ℕ) (reconnectTimer : Option ℕ) :
    ({ x with timers := x.timers.erase timer, reconnectTimer := reconnectTimer } :
      WebSocketHook).TimersFit :=
  ⟨h.1.erase _, fun _ hmem => h.2 _ (List.mem_of_mem_erase hmem)⟩

theorem clearTimer_spec (h : x.TimersFit) :
    x.clearTimer.sockets = x.sockets ∧ x.clearTimer.wsRef = x.wsRef ∧
      x.clearTimer.connected = x.connected ∧ x.clearTimer.disconnected = x.disconnected ∧
      x.clearTimer.isRetry = x.isRetry ∧ x.clearTimer.TimersFit := by
  unfold clearTimer
  split
  · exact ⟨rfl, rfl, rfl, rfl, rfl, h.erase _ _⟩
  · exact ⟨rfl, rfl, rfl, rfl, rfl, h⟩

/-- An attempt to connect does nothing, fails, or puts a new socket into the ref. -/
theorem openSocket_spec (h : x.TimersFit) (fails : Bool) : (x.openSocket o fails).connected = x.connected ∧
      (x.openSocket o fails).disconnected = x.disconnected ∧ (x.openSocket o fails).TimersFit ∧
      ((x.wsOpen = true ∧ x.openSocket o fails = x) ∨
        (fails = true ∧ (x.openSocket o fails).sockets = x.sockets ∧
          (x.openSocket o fails).wsRef = x.wsRef) ∨ (x.wsOpen = false ∧ fails = false ∧
          (x.openSocket o fails).sockets = x.sockets ++ [({} : Socket)] ∧
          (x.openSocket o fails).wsRef = some x.sockets.length)) := by
  by_cases hopen : x.wsOpen = true
  · have hsame : x.openSocket o fails = x := if_pos hopen
    rw [hsame]
    exact ⟨rfl, rfl, h, Or.inl ⟨hopen, rfl⟩⟩
  · obtain ⟨hsockets, href, hconnected, hdisconnected, hretry, htimers⟩ := clearTimer_spec h
    let y : WebSocketHook :=
      { (if x.clearTimer.isRetry then { x.clearTimer with isRetry := false }
        else { x.clearTimer with reconnectAttempts := 0 }) with manualClose := false }
    have hy : y.sockets = x.sockets ∧ y.wsRef = x.wsRef ∧ y.connected = x.connected ∧
        y.disconnected = x.disconnected ∧ y.TimersFit := by
      dsimp only [y]
      split
      · exact ⟨hsockets, href, hconnected, hdisconnected, htimers⟩
      · exact ⟨hsockets, href, hconnected, hdisconnected, htimers⟩
    obtain ⟨hsockets, href, hconnected, hdisconnected, htimers⟩ := hy
    have hstep : x.openSocket o fails = if fails then y.scheduleRetry o
        else { y with sockets := y.sockets ++ [({} : Socket)], wsRef := some y.sockets.length } :=
      if_neg hopen
    rw [hstep]
    cases fails with
    | true =>
      obtain ⟨hsockets', href', hconnected', hdisconnected', htimers'⟩ :=
        scheduleRetry_spec (o := o) htimers
      exact ⟨hconnected'.trans hconnected, hdisconnected'.trans hdisconnected, htimers',
        Or.inr (Or.inl ⟨rfl, hsockets'.trans hsockets, href'.trans href⟩)⟩
    | false =>
      refine ⟨hconnected, hdisconnected, htimers, Or.inr (Or.inr ⟨by simpa using hopen, rfl, ?_, ?_⟩)⟩
      · exact congrArg (· ++ [({} : Socket)]) hsockets
      · exact congrArg (fun sockets : List Socket => some sockets.length) hsockets

theorem Consistent.timersFit (h : x.Consistent) : x.TimersFit := ⟨h.nodup, h.issued⟩

/-- The same sockets and the same ref, flag and mode. -/
theorem Consistent.congr (h : x.Consistent) (hsockets : y.sockets = x.sockets)
    (href : y.wsRef = x.wsRef) (hconnected : y.connected = x.connected)
    (hquiet : y.disconnected = true → y.timers = [] ∧ y.manualClose = true) (htimers : y.TimersFit) :
    y.Consistent where
  single s s' := by
    rw [live_congr hsockets, live_congr hsockets]
    exact h.single s s'
  truthful := by
    rw [hconnected, wsOpen_congr hsockets href]
    exact h.truthful
  quiet := hquiet
  held := by
    rw [hsockets, href]
    exact h.held
  nodup := htimers.1
  issued := htimers.2

/-- The sockets once a new one is made. -/
theorem live_append (hsockets : y.sockets = x.sockets ++ [({} : Socket)]) (s : ℕ) :
    y.live s = true ↔ x.live s = true ∨ s = x.sockets.length := by
  rw [live, hsockets]
  rcases Nat.lt_trichotomy s x.sockets.length with hlt | heq | hgt
  · rw [List.getElem?_append_left hlt]
    exact (or_iff_left (Nat.ne_of_lt hlt)).symm
  · rw [heq, List.getElem?_concat_length]
    exact iff_of_true rfl (Or.inr rfl)
  · have hbeyond : (x.sockets ++ [({} : Socket)])[s]? = none := by
      rw [List.getElem?_eq_none_iff, List.length_append, List.length_singleton]
      exact hgt
    have hnone : x.live s = false := by
      rw [live, List.getElem?_eq_none_iff.mpr (Nat.le_of_lt hgt)]
      rfl
    rw [hbeyond, hnone]
    exact iff_of_false Bool.false_ne_true (not_or.mpr ⟨Bool.false_ne_true, Nat.ne_of_gt hgt⟩)

/-- An attempt to connect leaves a single live socket exactly if it may be made. -/
theorem Consistent.openSocket (h : x.Consistent) (hdisconnected : x.disconnected = false) (fails : Bool) :
    ((∀ s s', (x.openSocket o fails).live s = true → (x.openSocket o fails).live s' = true → s = s') ↔
        x.MayConnect fails) ∧
      ((x.openSocket o fails).connected = true ↔ (x.openSocket o fails).wsOpen = true) ∧
      (x.openSocket o fails).disconnected = false ∧
      (x.MayConnect fails → (x.openSocket o fails).Consistent) := by
  obtain ⟨hconnected, hdisconnected', htimers, hcases⟩ :=
    openSocket_spec (o := o) h.timersFit fails
  have hstays := hdisconnected'.trans hdisconnected
  have hquiet : (x.openSocket o fails).disconnected = true →
      (x.openSocket o fails).timers = [] ∧ (x.openSocket o fails).manualClose = true := by
    intro hnow
    rw [hstays] at hnow
    cases hnow
  rcases hcases with ⟨hopen, heq⟩ | ⟨hfails, hsockets, href⟩ | ⟨hclosed, hfails, hsockets, href⟩
  · rw [heq]
    exact ⟨iff_of_true h.single (Or.inr (Or.inl hopen)), h.truthful, hdisconnected, fun _ => h⟩
  · have hkept := h.congr hsockets href hconnected hquiet htimers
    exact ⟨iff_of_true hkept.single (Or.inl hfails), hkept.truthful, hstays, fun _ => hkept⟩
  · have hlive := live_append hsockets
    have hsingle : (∀ s s', (x.openSocket o fails).live s = true →
        (x.openSocket o fails).live s' = true → s = s') ↔ x.MayConnect fails := by
      constructor
      · intro hone
        refine Or.inr (Or.inr fun s => ?_)
        by_contra hs
        have hs' : x.live s = true := by simpa using hs
        have heq := hone s x.sockets.length ((hlive s).mpr (Or.inl hs')) ((hlive _).mpr (Or.inr rfl))
        obtain ⟨socket, hsocket, -⟩ := live_iff.mp hs'
        exact absurd heq (Nat.ne_of_lt (List.getElem?_eq_some_iff.mp hsocket).1)
      · rintro (htrue | hopen | hnone)
        · rw [hfails] at htrue
          cases htrue
        · rw [hclosed] at hopen
          cases hopen
        · intro s s' hs hs'
          rw [hlive, hnone, or_iff_right Bool.false_ne_true] at hs hs'
          rw [hs, hs']
    have hnew : (x.openSocket o fails).sockets[x.sockets.length]? = some ({} : Socket) := by
      rw [hsockets, List.getElem?_concat_length]
    have htruthful : (x.openSocket o fails).connected = true ↔
        (x.openSocket o fails).wsOpen = true := by
      rw [hconnected, h.truthful, hclosed, wsOpen, href, Option.any_some, hnew]
      rfl
    refine ⟨hsingle, htruthful, hstays, fun hmay => ⟨hsingle.mpr hmay, htruthful, hquiet, ?_,
      htimers.1, htimers.2⟩⟩
    intro s hs
    rw [href, Option.some_inj] at hs
    subst hs
    exact ⟨_, hnew, rfl⟩

theorem getElem?_setSocket (s i : ℕ) (f : Socket → Socket) :
    (x.setSocket s f).sockets[i]? = (x.sockets[i]?).map fun socket => if s = i then f socket else socket :=
  List.getElem?_modify ..

theorem live_of_setSocket (f : Socket → Socket)
    (hf : ∀ socket, (f socket).isLive = true → socket.isLive = true) {s i : ℕ}
    (h : (x.setSocket s f).live i = true) : x.live i = true := by
  obtain ⟨after, hafter, hlive⟩ := live_iff.mp h
  rw [getElem?_setSocket, Option.map_eq_some_iff] at hafter
  obtain ⟨before, hbefore, rfl⟩ := hafter
  refine live_iff.mpr ⟨before, hbefore, ?_⟩
  split at hlive
  · exact hf before hlive
  · exact hlive

theorem wsOpen_setSocket_of_ne (hs : x.wsRef ≠ some s) (f : Socket → Socket) :
    (x.setSocket s f).wsOpen = x.wsOpen := by
  unfold wsOpen
  change (x.wsRef.any fun i => ((x.setSocket s f).sockets[i]?).any Socket.isOpen) = _
  cases href : x.wsRef with
  | none => rfl
  | some i =>
    have hne : s ≠ i := by
      rintro rfl
      exact hs href
    simp only [Option.any_some, getElem?_setSocket, if_neg hne, Option.map_id']

theorem wsOpen_setSocket (hs : x.wsRef = some s) {socket : Socket}
    (hsocket : x.sockets[s]? = some socket) (f : Socket → Socket) :
    (x.setSocket s f).wsOpen = (f socket).isOpen := by
  change (x.wsRef.any fun i => ((x.setSocket s f).sockets[i]?).any Socket.isOpen) = _
  rw [hs, Option.any_some, getElem?_setSocket, hsocket, Option.map_some, Option.any_some, if_pos rfl]

theorem held_setSocket (h : x.Consistent) (f : Socket → Socket)
    (hf : ∀ socket, (f socket).closeCalled = socket.closeCalled) (s : ℕ) :
    ∀ i, x.wsRef = some i → ∃ socket, (x.setSocket s f).sockets[i]? = some socket ∧
      socket.closeCalled = false := by
  intro i hi
  obtain ⟨socket, hsocket, hasked⟩ := h.held i hi
  refine ⟨_, by rw [getElem?_setSocket, hsocket]; rfl, ?_⟩
  split
  · rw [hf, hasked]
  · exact hasked

/-- The handler of an open event, as far as the sockets and the flag go. -/
theorem Consistent.onOpen (h : x.Consistent) (hpossible : x.Possible (.opened s)) :
    (((x.onOpen s).connected = true ↔ (x.onOpen s).wsOpen = true) ↔ x.wsRef = some s ∨ x.wsOpen = true) ∧
      ((x.wsRef = some s ∨ x.wsOpen = true) → (x.onOpen s).Consistent) := by
  have hopen : (x.onOpen s).wsOpen =
      (x.setSocket s fun socket => { socket with opened := true }).wsOpen := rfl
  have htruthful : ((x.onOpen s).connected = true ↔ (x.onOpen s).wsOpen = true) ↔
      x.wsRef = some s ∨ x.wsOpen = true := by
    rw [hopen]
    by_cases href : x.wsRef = some s
    · obtain ⟨socket, hsocket, hasked⟩ := h.held s href
      have hunclosed : socket.closed = false := by
        have hunopened : (x.sockets[s]?).any (fun socket => !socket.opened && !socket.closed) = true :=
          hpossible
        rw [hsocket] at hunopened
        simpa using ((Bool.and_eq_true _ _).mp hunopened).2
      rw [wsOpen_setSocket href hsocket]
      refine iff_of_true (iff_of_true rfl ?_) (Or.inl href)
      simp [Socket.isOpen, hasked, hunclosed]
    · rw [wsOpen_setSocket_of_ne href]
      change (true = true ↔ x.wsOpen = true) ↔ _
      simp [href]
  refine ⟨htruthful, fun hcurrent => ⟨?_, htruthful.mpr hcurrent, h.quiet, ?_, h.nodup, h.issued⟩⟩
  · intro i i' hi hi'
    have hlive : ∀ j, (x.onOpen s).live j = true → x.live j = true := fun j hj =>
      live_of_setSocket (fun socket => { socket with opened := true }) (fun _ halive => halive) hj
    exact h.single i i' (hlive i hi) (hlive i' hi')
  · exact held_setSocket h (fun socket => { socket with opened := true }) (fun _ => rfl) s

theorem Consistent.onClose (h : x.Consistent) :
    (((x.onClose o s).connected = true ↔ (x.onClose o s).wsOpen = true) ↔
        x.wsRef = some s ∨ x.wsOpen = false) ∧ (∀ i, (x.onClose o s).live i = true → x.live i = true) ∧
      (x.onClose o s).sockets.length = x.sockets.length ∧ ((x.onClose o s).disconnected = true →
        (x.onClose o s).timers = [] ∧ (x.onClose o s).manualClose = true) ∧
      ((x.wsRef = some s ∨ x.wsOpen = false) → (x.onClose o s).Consistent) := by
  let closed : WebSocketHook :=
    { x.setSocket s fun socket => { socket with closed := true } with connected := false }
  have hfits : closed.TimersFit := h.timersFit
  obtain ⟨hsockets, href, hconnected, hdisconnected, htimers⟩ :
      (x.onClose o s).sockets = closed.sockets ∧ (x.onClose o s).wsRef = closed.wsRef ∧
        (x.onClose o s).connected = closed.connected ∧
        (x.onClose o s).disconnected = closed.disconnected ∧ (x.onClose o s).TimersFit := by
    unfold WebSocketHook.onClose
    dsimp only
    split
    · exact ⟨rfl, rfl, rfl, rfl, hfits⟩
    · exact scheduleRetry_spec hfits
  have hquiet : (x.onClose o s).disconnected = true →
      (x.onClose o s).timers = [] ∧ (x.onClose o s).manualClose = true := by
    intro hnow
    obtain ⟨hempty, hmanual⟩ := h.quiet (hdisconnected.symm.trans hnow)
    have hsame : x.onClose o s = closed := if_pos hmanual
    rw [hsame]
    exact ⟨hempty, hmanual⟩
  have hlive : ∀ i, (x.onClose o s).live i = true → x.live i = true := by
    intro i hi
    rw [live_congr hsockets] at hi
    refine live_of_setSocket (fun socket => { socket with closed := true }) ?_ hi
    intro socket halive
    simp [Socket.isLive] at halive
  have hopen : (x.onClose o s).wsOpen = closed.wsOpen := wsOpen_congr hsockets href
  have hflag : (x.onClose o s).connected = false := hconnected
  have htruthful : ((x.onClose o s).connected = true ↔ (x.onClose o s).wsOpen = true) ↔
      x.wsRef = some s ∨ x.wsOpen = false := by
    rw [hflag, hopen]
    change (false = true ↔
      (x.setSocket s fun socket => { socket with closed := true }).wsOpen = true) ↔ _
    by_cases hcurrent : x.wsRef = some s
    · obtain ⟨socket, hsocket, -⟩ := h.held s hcurrent
      rw [wsOpen_setSocket hcurrent hsocket]
      simp [Socket.isOpen, hcurrent]
    · rw [wsOpen_setSocket_of_ne hcurrent]
      simp [hcurrent]
  have hlength : (x.onClose o s).sockets.length = x.sockets.length := by
    rw [hsockets]
    exact List.length_modify ..
  refine ⟨htruthful, hlive, hlength, hquiet, fun hcurrent => ⟨?_, htruthful.mpr hcurrent, hquiet, ?_,
    htimers.1, htimers.2⟩⟩
  · exact fun i i' hi hi' => h.single i i' (hlive i hi) (hlive i' hi')
  · rw [hsockets, href]
    exact held_setSocket h (fun socket => { socket with closed := true }) (fun _ => rfl) s

theorem Consistent.disconnect (h : x.Consistent) :
    (x.disconnect.timers = [] ↔ ∀ timer ∈ x.timers, x.reconnectTimer = some timer) ∧
      (∀ i, x.disconnect.live i = true → x.live i = true) ∧
      x.disconnect.sockets.length = x.sockets.length ∧ x.disconnect.wsRef = none ∧
      x.disconnect.connected = false ∧ x.disconnect.manualClose = true ∧ x.disconnect.TimersFit := by
  obtain ⟨hsockets, href, -, -, -, htimers⟩ := clearTimer_spec h.timersFit
  have hcleared : x.clearTimer.timers = [] ↔ ∀ timer ∈ x.timers, x.reconnectTimer = some timer := by
    unfold clearTimer
    cases href : x.reconnectTimer with
    | none =>
      simp [List.eq_nil_iff_forall_not_mem]
    | some timer =>
      simp only [List.eq_nil_iff_forall_not_mem, h.nodup.mem_erase_iff, Option.some_inj, not_and,
        not_imp_not, ne_eq]
      exact forall_congr' fun other => imp_congr_right fun _ => eq_comm
  have hstate : x.disconnect.timers = x.clearTimer.timers ∧
      x.disconnect.nextTimer = x.clearTimer.nextTimer ∧ x.disconnect.manualClose = true ∧
      x.disconnect.sockets = match x.wsRef with
        | some s => x.sockets.modify s fun socket => { socket with closeCalled := true }
        | none => x.sockets := by
    unfold WebSocketHook.disconnect
    dsimp only
    rw [href]
    cases x.wsRef with
    | none => exact ⟨rfl, rfl, rfl, hsockets⟩
    | some s => exact ⟨rfl, rfl, rfl, congrArg (List.modify · s _) hsockets⟩
  obtain ⟨htimers', hnext, hmanual, hclosed⟩ := hstate
  refine ⟨htimers' ▸ hcleared, ?_, ?_, rfl, rfl, hmanual, ?_⟩
  · intro i hi
    rw [live, hclosed] at hi
    cases href : x.wsRef with
    | none =>
      rw [href] at hi
      exact hi
    | some s =>
      rw [href] at hi
      refine live_of_setSocket (fun socket => { socket with closeCalled := true }) ?_ hi
      intro socket halive
      simp [Socket.isLive] at halive
  · rw [hclosed]
    cases x.wsRef with
    | none => rfl
    | some s => exact List.length_modify ..
  · unfold TimersFit
    rw [htimers', hnext]
    exact htimers

theorem reliable_iff {e : HookEvent} (hhanded : x.handed e = none) : x.Reliable o e ↔
      (∀ s s', (x.step o e).live s = true → (x.step o e).live s' = true → s = s') ∧
        ((x.step o e).connected = true ↔ (x.step o e).wsOpen = true) ∧ ((x.step o e).disconnected = true →
          (x.step o e).timers = [] ∧ (x.step o e).sockets.length = x.sockets.length) := by
  constructor
  · exact fun h => ⟨h.single, h.truthful, h.quiet⟩
  · rintro ⟨hsingle, htruthful, hquiet⟩
    refine ⟨hsingle, ?_, htruthful, hquiet⟩
    rw [hhanded]
    exact fun _ hs => nomatch hs

theorem Consistent.attempt (h : y.Consistent) (hdisconnected : y.disconnected = false)
    {e : HookEvent} (fails : Bool) (hhanded : x.handed e = none)
    (hstep : x.step o e = y.openSocket o fails) (hmay : y.MayConnect fails ↔ x.MayConnect fails) :
    (x.Reliable o e ↔ x.MayConnect fails) ∧ (x.MayConnect fails → (x.step o e).Consistent) := by
  obtain ⟨hsingle, htruthful, hstays, hkept⟩ := h.openSocket (o := o) hdisconnected fails
  rw [reliable_iff hhanded, hstep, hsingle, hmay]
  constructor
  · refine and_iff_left ⟨htruthful, fun hnow => ?_⟩
    rw [hstays] at hnow
    cases hnow
  · exact fun hx => hkept (hmay.mpr hx)

/-- At an event that is in order, and only then, the hook is reliable; what holds of it is kept. -/
def Settles (x : WebSocketHook) (o : HookOptions) (e : HookEvent) : Prop :=
  (x.Reliable o e ↔ x.Orderly e) ∧ (x.Orderly e → (x.step o e).Consistent)

theorem Consistent.settles_connect (h : x.Consistent) {fails : Bool}
    (hpossible : x.Possible (.connect fails)) : x.Settles o (.connect fails) := by
  have hstep : x.step o (.connect fails) = x.handle o (.connect fails) := if_pos hpossible
  have hasked : ({ x with disconnected := false } : WebSocketHook).Consistent :=
    h.congr rfl rfl rfl (nomatch ·) h.timersFit
  obtain ⟨hiff, hkept⟩ := hasked.attempt (o := o) (x := x) rfl fails rfl hstep Iff.rfl
  have horderly : x.Orderly (.connect fails) ↔ x.MayConnect fails := forall_prop_of_true hpossible
  rw [Settles, horderly]
  exact ⟨hiff, hkept⟩

theorem Consistent.settles_retry (h : x.Consistent) {timer : ℕ} {fails : Bool}
    (hpossible : x.Possible (.retry timer fails)) : x.Settles o (.retry timer fails) := by
  have hstep : x.step o (.retry timer fails) = x.handle o (.retry timer fails) := if_pos hpossible
  have hpending : timer ∈ x.timers := hpossible
  have hon : x.disconnected = false := by
    by_contra hnow
    rw [(h.quiet (by simpa using hnow)).1] at hpending
    cases hpending
  have hfired : ({ x with
      timers := x.timers.erase timer
      reconnectTimer := none
      isRetry := true } : WebSocketHook).Consistent := by
    refine h.congr rfl rfl rfl ?_ (h.timersFit.erase timer none)
    intro hnow
    rw [hon] at hnow
    cases hnow
  obtain ⟨hiff, hkept⟩ := hfired.attempt (o := o) (x := x) hon fails rfl hstep Iff.rfl
  have horderly : x.Orderly (.retry timer fails) ↔ x.MayConnect fails :=
    forall_prop_of_true hpossible
  rw [Settles, horderly]
  exact ⟨hiff, hkept⟩

theorem Consistent.settles_disconnect (h : x.Consistent) (hpossible : x.Possible .disconnect) :
    x.Settles o .disconnect := by
  have hstep : x.step o .disconnect = x.handle o .disconnect := if_pos hpossible
  obtain ⟨htimers, hlive, hlength, href, hconnected, hmanual, hfits⟩ := h.disconnect
  have hsingle : ∀ s s', x.disconnect.live s = true → x.disconnect.live s' = true → s = s' :=
    fun s s' hs hs' => h.single s s' (hlive s hs) (hlive s' hs')
  have htruthful : x.disconnect.connected = true ↔ x.disconnect.wsOpen = true := by
    rfl
  have horderly : x.Orderly .disconnect ↔
      ∀ timer ∈ x.timers, x.reconnectTimer = some timer := forall_prop_of_true hpossible
  rw [Settles, reliable_iff rfl, hstep, horderly, ← htimers]
  constructor
  · constructor
    · exact fun hreliable => (hreliable.2.2 rfl).1
    · exact fun hempty => ⟨hsingle, htruthful, fun _ => ⟨hempty, hlength⟩⟩
  · intro hempty
    refine ⟨hsingle, htruthful, fun _ => ⟨hempty, hmanual⟩, ?_, hfits.1, hfits.2⟩
    intro s hs
    cases href.symm.trans hs

theorem Consistent.settles_opened (h : x.Consistent) (hpossible : x.Possible (.opened s)) :
    x.Settles o (.opened s) := by
  have hstep : x.step o (.opened s) = x.handle o (.opened s) := if_pos hpossible
  obtain ⟨htruthful, hkept⟩ := h.onOpen hpossible
  have horderly : x.Orderly (.opened s) ↔ x.wsRef = some s ∨ x.wsOpen = true :=
    forall_prop_of_true hpossible
  rw [Settles, reliable_iff rfl, hstep, horderly]
  refine ⟨?_, hkept⟩
  constructor
  · exact fun hreliable => htruthful.mp hreliable.2.1
  · intro hcurrent
    have hafter := hkept hcurrent
    refine ⟨hafter.single, hafter.truthful, fun hnow => ⟨(hafter.quiet hnow).1, ?_⟩⟩
    exact List.length_modify ..

theorem Consistent.settles_message (h : x.Consistent) (hpossible : x.Possible (.message s)) :
    x.Settles o (.message s) := by
  have hstep : x.step o (.message s) = x.handle o (.message s) := if_pos hpossible
  have horderly : x.Orderly (.message s) ↔ x.wsRef = some s := forall_prop_of_true hpossible
  rw [Settles, hstep, horderly]
  refine ⟨?_, fun _ => h⟩
  constructor
  · exact fun hreliable => hreliable.current s (if_pos hpossible)
  · intro hcurrent
    have hsame : x.step o (.message s) = x := hstep
    refine ⟨?_, ?_, ?_, ?_⟩
    · rw [hsame]
      exact h.single
    · intro s' hs'
      have hhanded : x.handed (.message s) = some s := if_pos hpossible
      rw [hhanded, Option.mem_some_iff] at hs'
      rw [← hs']
      exact hcurrent
    · rw [hsame]
      exact h.truthful
    · rw [hsame]
      exact fun hnow => ⟨(h.quiet hnow).1, rfl⟩

theorem Consistent.settles_closed (h : x.Consistent) (hpossible : x.Possible (.closed s)) :
    x.Settles o (.closed s) := by
  have hstep : x.step o (.closed s) = x.handle o (.closed s) := if_pos hpossible
  obtain ⟨htruthful, hlive, hlength, hquiet, hkept⟩ := h.onClose (o := o) (s := s)
  have horderly : x.Orderly (.closed s) ↔ x.wsRef = some s ∨ x.wsOpen = false :=
    forall_prop_of_true hpossible
  rw [Settles, reliable_iff rfl, hstep, horderly]
  refine ⟨?_, hkept⟩
  constructor
  · exact fun hreliable => htruthful.mp hreliable.2.1
  · intro hcurrent
    have hafter := hkept hcurrent
    exact ⟨hafter.single, hafter.truthful, fun hnow => ⟨(hquiet hnow).1, hlength⟩⟩

/-- An event that is not possible changes nothing. -/
theorem Consistent.settles_impossible (h : x.Consistent) {e : HookEvent} (hpossible : ¬ x.Possible e) :
    x.Settles o e := by
  have hstep : x.step o e = x := if_neg hpossible
  have hhanded : x.handed e = none := by
    cases e with
    | message s => exact if_neg hpossible
    | _ => rfl
  rw [Settles, reliable_iff hhanded, hstep]
  refine ⟨iff_of_true ⟨h.single, h.truthful, fun hnow => ⟨(h.quiet hnow).1, rfl⟩⟩ ?_, fun _ => h⟩
  exact fun hnow => absurd hnow hpossible

/-- Each event is reliable exactly if it is orderly, and then leaves the hook consistent. -/
theorem Consistent.step (h : x.Consistent) (e : HookEvent) :
    (x.Reliable o e ↔ x.Orderly e) ∧ (x.Orderly e → (x.step o e).Consistent) := by
  by_cases hpossible : x.Possible e
  · cases e with
    | connect fails => exact h.settles_connect hpossible
    | retry timer fails => exact h.settles_retry hpossible
    | disconnect => exact h.settles_disconnect hpossible
    | opened s => exact h.settles_opened hpossible
    | message s => exact h.settles_message hpossible
    | closed s => exact h.settles_closed hpossible
  · exact h.settles_impossible hpossible

theorem consistent_init : ({} : WebSocketHook).Consistent where
  single _ _ hs := nomatch hs
  truthful := Iff.rfl
  quiet := (nomatch ·)
  held _ hs := nomatch hs
  nodup := List.nodup_nil
  issued _ htimer := nomatch htimer

/-- Every event of a run is reliable exactly if every event is orderly. -/
theorem reliable_iff_orderly (o : HookOptions) (events : List HookEvent) :
    Along (step o) (Reliable o) {} events ↔ Along (step o) Orderly {} events := by
  have hinit := consistent_init
  generalize ({} : WebSocketHook) = x at hinit
  induction events generalizing x with
  | nil => exact Iff.rfl
  | cons e rest ih =>
    obtain ⟨hiff, hkept⟩ := hinit.step (o := o) e
    rw [Along, Along, hiff]
    exact and_congr_right fun horderly => ih _ (hkept horderly)

/-- The token changes while the socket is open: the old one closes when the new one is open. -/
def tokenChange : List HookEvent :=
  [.connect false, .opened 0, .disconnect, .connect false, .opened 1]

/-- `connect` is called while the socket is opening. -/
def connectTwice : List HookEvent := [.connect false]

/-- The old socket closes late and the new one fails, and each of them schedules a retry. -/
def twoRetries : List HookEvent :=
  [.connect false, .opened 0, .disconnect, .connect false, .closed 0, .closed 1]

/-- The open socket is reported as closed; there are two live sockets; a retry is pending after
`disconnect`. -/
theorem not_reliable_tokenChange : ¬ Along (step {}) (Reliable {}) {} (tokenChange ++ [.closed 0]) ∧
      ¬ Along (step {}) (Reliable {}) {} (connectTwice ++ [.connect false]) ∧
      ¬ Along (step {}) (Reliable {}) {} (twoRetries ++ [.disconnect]) := by
  refine ⟨fun h => ?_, fun h => ?_, fun h => ?_⟩
  · have hlast := ((along_append ..).mp h).2.1
    have htruthful := hlast.truthful
    revert htruthful
    decide
  · have hlast := ((along_append ..).mp h).2.1
    exact absurd (hlast.single 0 1 rfl rfl) (by decide)
  · have hlast := ((along_append ..).mp h).2.1
    have hquiet := (hlast.quiet rfl).1
    revert hquiet
    decide

end WebSocketHook

end TradingSim.Dashboard
