import TradingSim.Bot.ClientOrderIds
import TradingSim.Bot.KillSwitch
import TradingSim.Shm.SignalCodec

/-!
# The copies of a published signal

The signal engine publishes a signal over the websocket and pushes it into the shared memory ring.
The bot rebuilds each copy for itself and puts both into one queue, from which the main loop takes
them as if they were two signals. Only the engaged symbols hold the second copy back, until the
first one's order has ended.
-/

namespace TradingSim.Bot

open Foundations
open Shm (SignalDict ConsumedSignal packSignalDict consumeSignal)

/-- How the two sides of the ring number the symbols. -/
structure SymbolNumbers where
  symbolMap : Dict String ℕ
  symbols : List String

/-- The direction that a text names. -/
def readDirection (text : String) : Direction :=
  if text = "LONG" then .long else if text = "SHORT" then .short else .neutral

/-- The second of a broadcast by the system clock. -/
abbrev UnixSecond := { t : ℤ // 0 < t ∧ t < 2 ^ 32 }

/-- `handle_signal_msg`, for a signal broadcast at some second. -/
def handleSignalMsg (signal : SignalDict) (sentAt : UnixSecond) : Option RatedSignal :=
  (websocketTimestamp (some (.int sentAt))).map fun timestamp =>
    { symbol := signal.symbol.getD ""
      direction := readDirection (signal.direction.getD "NEUTRAL")
      confidence := signal.confidence.getD 0
      entryPrice := signal.entryPrice.getD 0
      stopLoss := signal.stopLoss.getD 0
      takeProfit := signal.takeProfit.getD 0
      timestamp := timestamp }

/-- The consumer's signal for the main loop. -/
def ratedConsumed (consumed : ConsumedSignal) : RatedSignal where
  symbol := consumed.symbol
  direction := consumed.direction
  confidence := consumed.confidence
  entryPrice := consumed.entryPrice
  stopLoss := consumed.stopLoss
  takeProfit := consumed.takeProfit
  leverage := consumed.leverage
  timestamp := consumed.timestamp

/-- The copy that the ring carries; none if the record does not pack. -/
def ringCopy (numbers : SymbolNumbers) (signal : SignalDict) (nowNs : ℤ) : Option RatedSignal :=
  (packSignalDict signal numbers.symbolMap nowNs).map fun msg =>
    ratedConsumed (consumeSignal numbers.symbols msg)

/-- A step: the engine publishes a signal, a copy arrives, the main loop takes the next signal of the queue,
or the bot does something else. -/
inductive CopyEvent where
  | publish (signal : SignalDict) (sentAt : UnixSecond) (nowNs : ℤ) (viaWebsocket viaRing : Bool)
  | deliver (index : ℕ)
  | pop (now : ℤ)
  | loop (action : LoopAction)

/-- The bot with its queue of signals, each with the number of what it was made of. `current` is the one
taken last, and `sent` are the orders sent for published signals. -/
structure SignalQueue (c : LoopConfig) where
  loop : TradingLoop c
  published : ℕ := 0
  onTheWay : List (ℕ × RatedSignal) := []
  aiSignalQueue : List (ℕ × RatedSignal) := []
  current : Option ℕ := none
  sent : List (ℕ × Approval c.params) := []

namespace SignalQueue

variable {c : LoopConfig} (numbers : SymbolNumbers) (x : SignalQueue c)

/-- The copies of a signal that the engine publishes now. -/
def copies (signal : SignalDict) (sentAt : UnixSecond) (nowNs : ℤ) (viaWebsocket viaRing : Bool) :
    List RatedSignal :=
  (if viaWebsocket then (handleSignalMsg signal sentAt).toList else []) ++
    (if viaRing then (ringCopy numbers signal nowNs).toList else [])

/-- A copy reaches the bot: a long or short signal is queued while one of the sixteen slots is
free. -/
def enqueue (copy : ℕ × RatedSignal) : SignalQueue c :=
  if copy.2.isActionable ∧ x.aiSignalQueue.length < 16 then
    { x with aiSignalQueue := x.aiSignalQueue ++ [copy] }
  else x

/-- The main loop is about to take a signal from the queue. -/
def atQueue : Bool :=
  match x.loop.stage with
  | .idle => decide x.loop.MainFree && x.loop.canTrade && decide (x.loop.phase = .aiSignals)
  | _ => false

/-- The signal the main loop takes next. -/
def next? : Option (ℕ × RatedSignal) := if x.atQueue then x.aiSignalQueue.head? else none

/-- What else the bot can do: it takes signals from the queue only by `pop`, and does not leave the
queue before it is empty. -/
def permits : LoopAction → Bool
  | .main (.checkSignal .ai _ _) => false
  | .main .nextLoop => !x.atQueue || x.aiSignalQueue.isEmpty
  | _ => true

/-- The signal the main loop works on after a step of the loop. -/
def workedOn : Option ℕ :=
  match x.loop.stage with
  | .idle => none
  | _ => x.current

/-- The orders for published signals that a step of the loop sends. -/
def sentBy (action : LoopAction) : List (ℕ × Approval c.params) :=
  match x.current, x.loop.stage with
  | some number, .approved a =>
    if (x.loop.handed action).any Frame.isOrder then [(number, a)] else []
  | _, _ => []

def step (x : SignalQueue c) : CopyEvent → SignalQueue c
  | .publish signal sentAt nowNs viaWebsocket viaRing =>
    { x with
      published := x.published + 1
      onTheWay := x.onTheWay ++
        (copies numbers signal sentAt nowNs viaWebsocket viaRing).map (x.published, ·) }
  | .deliver index =>
    match x.onTheWay[index]? with
    | some copy => { x with onTheWay := x.onTheWay.eraseIdx index }.enqueue copy
    | none => x
  | .pop now =>
    match x.next? with
    | some (number, signal) =>
      { x with
        aiSignalQueue := x.aiSignalQueue.tail
        current := some number
        loop := x.loop.step (.main (.checkSignal .ai signal now)) }
    | none => x
  | .loop action =>
    if x.permits action then
      { x with
        loop := x.loop.step action
        current := x.workedOn
        sent := x.sent ++ x.sentBy action }
    else x

/-- The orders sent for one signal carry one `client_order_id`. -/
def OneOrder : Prop :=
  ∀ o ∈ x.sent, ∀ o' ∈ x.sent, o.1 = o'.1 →
    o.2.signal.clientOrderId = o'.2.signal.clientOrderId

instance : Decidable x.OneOrder := inferInstanceAs (Decidable (∀ o ∈ _, ∀ o' ∈ _, _ → _))

/-- The main loop goes on with a signal: it passes the signal-level check and its symbol is not
engaged. -/
def Admits (signal : RatedSignal) : Prop :=
  (c.params.checkSignal x.loop.bot.riskMgr signal x.loop.currentBalance
    x.loop.bot.posMgr.positionCount).passed = true ∧
  ¬ x.loop.bot.posMgr.hasPosition signal.symbol = true

instance (signal : RatedSignal) : Decidable (x.Admits signal) :=
  inferInstanceAs (Decidable (_ ∧ _))

/-- The main loop does not go on with a copy of a signal for which an order was sent: the symbol is
still engaged, or the signal is refused. -/
def Guarded (x : SignalQueue c) : CopyEvent → Prop
  | .pop _ => ∀ copy ∈ x.next?, copy.1 ∈ x.sent.map Prod.fst → ¬ x.Admits copy.2
  | _ => True

/-- The main loop works on an approved order of a signal for which another one was sent. -/
def repeats : Bool :=
  match x.current, x.loop.stage with
  | some number, .approved a => a.signal.isActionable && decide (number ∈ x.sent.map Prod.fst)
  | _, _ => false

/-- What the guard lets pass a second time does not get to the socket: there is no connection, or
sending fails. -/
def HeldBack (x : SignalQueue c) : CopyEvent → Prop
  | .loop (.main (.submit handed)) => x.repeats = true → x.loop.MainFree → x.loop.connected = true →
      handed = false
  | _ => True

instance (x : SignalQueue c) (e : CopyEvent) : Decidable (x.Guarded e) := by
  unfold Guarded
  split <;> infer_instance

instance (x : SignalQueue c) (e : CopyEvent) : Decidable (x.HeldBack e) := by
  unfold HeldBack
  split <;> infer_instance

end SignalQueue

namespace TradingLoop

variable {c : LoopConfig} {x : TradingLoop c}

theorem approved_checkSignal (hidle : x.stage = .idle) {path : OrderPath}
    {signal : RatedSignal} {now : ℤ} {a : Approval c.params}
    (h : (x.checkSignal path signal now).stage = .approved a) : a.signal = signal ∧
      (c.params.checkSignal x.bot.riskMgr signal x.currentBalance
        x.bot.posMgr.positionCount).passed = true ∧ ¬ x.bot.posMgr.hasPosition signal.symbol = true := by
  simp only [checkSignal] at h
  split_ifs at h with hadmits hsized
  · refine ⟨?_, hadmits⟩
    simp only [precheckOrder] at h
    split_ifs at h
    cases h
    rfl
  · rw [hidle] at h
    cases h
  · rw [hidle] at h
    cases h

/-- An approved order is handed over by the main loop's submission only. -/
theorem isOrder_handed_iff {a : Approval c.params} (hstage : x.stage = .approved a) (e : LoopAction) :
    (x.handed e).any Frame.isOrder = true ↔
      e = .main (.submit true) ∧ x.MainFree ∧ x.connected = true ∧ a.signal.isActionable = true := by
  unfold handed
  cases e with
  | main action =>
    simp only [perform]
    split_ifs with hfree
    · unfold act
      rw [hstage]
      cases action with
      | submit handed =>
        cases handed <;>
          by_cases hsent : x.connected = true ∧ a.signal.isActionable = true <;>
          simp [submit, hfree, hsent, Approval.frame, Frame.isOrder]
      | _ => simp
    · simp [hfree]
  | callback index now =>
    obtain hnone | ⟨b, next, rest, -, -, hcallback⟩ := x.callback_cases index now
    · simp [perform, hnone]
    · simp only [perform, hcallback, reduceCtorEq, false_and, iff_false, Bool.not_eq_true,
        List.any_eq_false]
      intro frame hmem
      simp [isOrder_runCallback hmem]
  | fill index fee =>
    simp only [perform]
    split <;> simp
  | ended index status =>
    simp only [perform]
    split <;> simp
  | _ => simp [perform]

/-- Only the main loop itself begins or ends the work on an order. -/
theorem stage_of_ne_idle (hbusy : x.stage ≠ .idle) (e : LoopAction) :
    (x.step e).stage = x.stage ∨ ∀ a, (x.step e).stage ≠ .approved a := by
  have hsteps := x.steps e
  generalize x.step e = y at hsteps ⊢
  cases hsteps with
  | proceed action y hidle hproceeds => exact absurd hidle hbusy
  | submit a handed hstage =>
    right
    simp only [TradingLoop.submit]
    split_ifs <;> simp
  | register a hstage =>
    right
    simp [TradingLoop.register]
  | activate reason =>
    left
    unfold TradingLoop.activate
    split_ifs <;> rfl
  | callback index now a next rest ha hremaining =>
    left
    have hkept := x.control_runCallback now next
    simp only [control, Prod.mk.injEq] at hkept
    exact hkept.2.2.2.1
  | _ => exact Or.inl rfl

end TradingLoop

namespace SignalQueue

variable {c : LoopConfig} {numbers : SymbolNumbers} {x : SignalQueue c}

/-- The number of a copy, and whether it came over the ring, which brings no time. -/
def tag (copy : ℕ × RatedSignal) : ℕ × Bool := (copy.1, decide (copy.2.timestamp = 0))

/-- The copy whose order the main loop works on. -/
def working (x : SignalQueue c) : List (ℕ × RatedSignal) :=
  match x.current, x.loop.stage with
  | some number, .approved a => [(number, a.signal)]
  | _, _ => []

/-- All copies that are on their way, queued, worked on or sent. -/
def allCopies (x : SignalQueue c) : List (ℕ × RatedSignal) :=
  x.onTheWay ++ (x.aiSignalQueue ++ (x.working ++ x.sent.map fun o => (o.1, o.2.signal)))

/-- Of every published signal there is one copy at most for each channel. -/
structure Separate (x : SignalQueue c) : Prop where
  nodup : (x.allCopies.map tag).Nodup
  published : ∀ copy ∈ x.allCopies, copy.1 < x.published

theorem Separate.of_subperm {y : SignalQueue c} (h : x.Separate)
    (hcopies : y.allCopies.Subperm x.allCopies) (hpublished : y.published = x.published) :
    y.Separate := by
  obtain ⟨kept, hperm, hsub⟩ := hcopies
  constructor
  · exact ((hperm.map tag).nodup_iff).mp (h.nodup.sublist (hsub.map tag))
  · intro copy hcopy
    rw [hpublished]
    exact h.published copy (hsub.subset (hperm.mem_iff.mpr hcopy))

/-- The copies of one signal differ in whether they bring a time. -/
theorem nodup_copies (numbers : SymbolNumbers) (number : ℕ) (signal : SignalDict) (sentAt : UnixSecond)
    (nowNs : ℤ) (viaWebsocket viaRing : Bool) :
    (((copies numbers signal sentAt nowNs viaWebsocket viaRing).map (number, ·)).map tag).Nodup := by
  have hwebsocket : ∀ copy ∈ handleSignalMsg signal sentAt, tag (number, copy) = (number, false) := by
    intro copy hcopy
    obtain ⟨timestamp, htime, rfl⟩ := Option.map_eq_some_iff.mp hcopy
    obtain ⟨hpos, hlt⟩ := sentAt.2
    have hne : timestamp ≠ 0 := by
      rw [websocketTimestamp, Option.some.injEq, Int.bmod_def] at htime
      split_ifs at htime <;> omega
    simp [tag, hne]
  have hring : ∀ copy ∈ ringCopy numbers signal nowNs, tag (number, copy) = (number, true) := by
    intro copy hcopy
    obtain ⟨msg, -, rfl⟩ := Option.map_eq_some_iff.mp hcopy
    rfl
  unfold copies
  cases hw : handleSignalMsg signal sentAt with
  | none => cases hr : ringCopy numbers signal nowNs <;> cases viaRing <;> simp
  | some copy =>
    cases hr : ringCopy numbers signal nowNs with
    | none => cases viaWebsocket <;> simp
    | some copy' =>
      have hcopy := hwebsocket copy hw
      have hcopy' := hring copy' hr
      cases viaWebsocket <;> cases viaRing <;> simp [hcopy, hcopy']

/-- Where the main loop is when it takes a signal. -/
theorem atQueue_iff (x : SignalQueue c) :
    x.atQueue = true ↔ x.loop.stage = .idle ∧ x.loop.MainFree ∧ x.loop.canTrade = true ∧
      x.loop.phase = .aiSignals := by
  unfold atQueue
  split
  · rename_i hidle
    simp [hidle, and_assoc]
  · rename_i hbusy
    constructor
    · intro h
      cases h
    · intro h
      exact absurd h.1 hbusy

/-- Taking a signal is the check of the main loop on it. -/
theorem step_pop (hready : x.atQueue = true) (signal : RatedSignal) (now : ℤ) :
    x.loop.step (.main (.checkSignal .ai signal now)) = x.loop.checkSignal .ai signal now := by
  obtain ⟨hidle, hfree, hcan, hphase⟩ := x.atQueue_iff.mp hready
  simp [TradingLoop.step, TradingLoop.perform, TradingLoop.act, TradingLoop.proceed, hidle, hfree,
    hcan, hphase, OrderPath.runsIn]

/-- A signal is taken from the front of the queue while the main loop works on no order. -/
theorem next?_eq_some {copy : ℕ × RatedSignal} (h : x.next? = some copy) :
    x.atQueue = true ∧ x.loop.stage = .idle ∧ x.aiSignalQueue = copy :: x.aiSignalQueue.tail := by
  unfold next? at h
  split_ifs at h with hready
  exact ⟨hready, (x.atQueue_iff.mp hready).1, (List.cons_head?_tail h).symm⟩

/-- What a step of the loop sends is nothing, or the order that the main loop works on. -/
theorem sentBy_cases (x : SignalQueue c) (action : LoopAction) : x.sentBy action = [] ∨
    ∃ number a, x.current = some number ∧ x.loop.stage = .approved a ∧
      (x.loop.handed action).any Frame.isOrder = true ∧ x.sentBy action = [(number, a)] := by
  unfold sentBy
  split
  · rename_i number a hcurrent hstage
    split_ifs with horder
    · exact Or.inr ⟨number, a, hcurrent, hstage, horder, rfl⟩
    · exact Or.inl rfl
  · exact Or.inl rfl

/-- After a step of the loop the main loop works on no order, or on the one it has not sent. -/
theorem working_loop (numbers : SymbolNumbers) (x : SignalQueue c) (action : LoopAction)
    (hpermits : x.permits action = true) :
    (step numbers x (.loop action)).working = [] ∨
      (step numbers x (.loop action)).working = x.working ∧ x.sentBy action = [] := by
  have hstep : (step numbers x (.loop action)).working = working { x with
      loop := x.loop.step action
      current := x.workedOn
      sent := x.sent ++ x.sentBy action } := by
    rw [step, if_pos hpermits]
  rw [hstep]
  cases hstage : x.loop.stage with
  | idle =>
    left
    simp [working, workedOn, hstage]
  | approved a =>
    have hbusy : x.loop.stage ≠ .idle := by simp [hstage]
    rcases TradingLoop.stage_of_ne_idle hbusy action with hsame | hnot
    · right
      refine ⟨by simp [working, workedOn, hsame, hstage], ?_⟩
      obtain hnone | ⟨number, b, -, hstage', horder, -⟩ := x.sentBy_cases action
      · exact hnone
      · obtain ⟨rfl, hfree, hconnected, hactionable⟩ :=
          (TradingLoop.isOrder_handed_iff hstage' _).mp horder
        simp [TradingLoop.step, TradingLoop.perform, TradingLoop.act, TradingLoop.submit, hfree,
          hstage', hconnected, hactionable] at hsame
    · left
      unfold working
      split
      · exact absurd ‹_› (hnot _)
      · rfl
  | sent a =>
    have hbusy : x.loop.stage ≠ .idle := by simp [hstage]
    left
    unfold working
    split
    · rename_i b _ hstage'
      rcases TradingLoop.stage_of_ne_idle hbusy action with hsame | hnot
      · simp [hsame, hstage] at hstage'
      · exact absurd hstage' (hnot b)
    · rfl

/-- A copy that arrives takes its place in the queue, or is dropped. -/
theorem separate_deliver (h : x.Separate) (index : ℕ) :
    (step numbers x (.deliver index)).Separate := by
  simp only [step]
  split
  · rename_i copy hcopy
    have herase : (copy :: x.onTheWay.eraseIdx index).Perm x.onTheWay := by
      obtain ⟨hlt, rfl⟩ := List.getElem?_eq_some_iff.mp hcopy
      exact List.getElem_cons_eraseIdx_perm hlt
    unfold enqueue
    split_ifs
    · have hplaced : ∀ rest, (x.onTheWay.eraseIdx index ++ ((x.aiSignalQueue ++ [copy]) ++ rest)).Perm
          (x.onTheWay ++ (x.aiSignalQueue ++ rest)) := by
        intro rest
        rw [List.append_assoc, ← List.append_assoc, List.singleton_append]
        refine List.perm_middle.trans ?_
        rw [← List.cons_append, ← List.cons_append, List.append_assoc]
        exact herase.append_right _
      exact h.of_subperm (hplaced _).subperm rfl
    · refine h.of_subperm ?_ rfl
      exact (List.subperm_append_right _).mpr (List.Subperm.cons_self.trans herase.subperm)
  · exact h

/-- The main loop works on the signal it has taken, or drops it. -/
theorem separate_pop (h : x.Separate) (now : ℤ) : (step numbers x (.pop now)).Separate := by
  simp only [step]
  split
  · rename_i number signal hnext
    obtain ⟨hready, hidle, hqueue⟩ := next?_eq_some hnext
    have hbefore : x.working = [] := by simp [working, hidle]
    have hafter : ∀ y : SignalQueue c, y.current = some number →
        y.loop = x.loop.checkSignal .ai signal now → y.working.Sublist [(number, signal)] := by
      intro y hcurrent hloop
      unfold working
      rw [hcurrent, hloop]
      split
      · rename_i number' a hnumber hstage
        rw [← Option.some.inj hnumber, (TradingLoop.approved_checkSignal hidle hstage).1]
      · exact List.nil_sublist _
    refine h.of_subperm ((List.subperm_append_left _).mpr ?_) rfl
    rw [hbefore, hqueue, List.tail_cons, step_pop hready, List.nil_append, List.cons_append]
    refine List.Subperm.trans ?_ List.perm_middle.subperm
    exact (List.subperm_append_left _).mpr (((hafter _ rfl rfl).append_right _).subperm)
  · exact h

/-- What the main loop sends is the order that it works on. -/
theorem separate_loop (h : x.Separate) (action : LoopAction) :
    (step numbers x (.loop action)).Separate := by
  by_cases hpermits : x.permits action = true
  · have hworking := working_loop numbers x action hpermits
    simp only [step, if_pos hpermits] at hworking ⊢
    refine h.of_subperm ((List.subperm_append_left _).mpr ((List.subperm_append_left _).mpr ?_)) rfl
    obtain hnone | ⟨number, a, hcurrent, hstage, -, hsent⟩ := x.sentBy_cases action
    · rw [hnone, List.append_nil] at hworking ⊢
      refine (List.subperm_append_right _).mpr ?_
      rcases hworking with hnil | hsame
      · rw [hnil]
        exact List.nil_subperm
      · rw [hsame.1]
    · rcases hworking with hnil | hsame
      · have hbefore : x.working = [(number, a.signal)] := by simp [working, hcurrent, hstage]
        rw [hnil, hsent, hbefore, List.map_append, List.nil_append]
        exact List.perm_append_comm.subperm
      · rw [hsent] at hsame
        cases hsame.2
  · rw [step, if_neg hpermits]
    exact h

/-- The copies of a signal get the next number. -/
theorem separate_publish (h : x.Separate) (signal : SignalDict) (sentAt : UnixSecond) (nowNs : ℤ)
    (viaWebsocket viaRing : Bool) :
    (step numbers x (.publish signal sentAt nowNs viaWebsocket viaRing)).Separate := by
  have hnew : ∀ copy ∈ (copies numbers signal sentAt nowNs viaWebsocket viaRing).map (x.published, ·),
      copy.1 = x.published := by
    intro copy hcopy
    obtain ⟨_, -, rfl⟩ := List.mem_map.mp hcopy
    rfl
  have hcopies := nodup_copies numbers x.published signal sentAt nowNs viaWebsocket viaRing
  simp only [step]
  generalize (copies numbers signal sentAt nowNs viaWebsocket viaRing).map (x.published, ·) = new at *
  have hplaced : (new ++ x.allCopies).Perm (x.onTheWay ++ new ++
      (x.aiSignalQueue ++ (x.working ++ x.sent.map fun o => (o.1, o.2.signal)))) := by
    rw [allCopies, ← List.append_assoc]
    exact List.perm_append_comm.append_right _
  constructor
  · refine (hplaced.map tag).nodup_iff.mp ?_
    rw [List.map_append]
    refine hcopies.append h.nodup ?_
    intro t ht ht'
    obtain ⟨copy, hcopy, rfl⟩ := List.mem_map.mp ht
    obtain ⟨copy', hcopy', htag⟩ := List.mem_map.mp ht'
    have hlt := h.published copy' hcopy'
    have hnumber : copy'.1 = copy.1 := (Prod.ext_iff.mp htag).1
    rw [hnumber, hnew copy hcopy] at hlt
    exact lt_irrefl _ hlt
  · intro copy hcopy
    rcases List.mem_append.mp (hplaced.mem_iff.mpr hcopy) with hfresh | hold
    · rw [hnew copy hfresh]
      exact Nat.lt_succ_self _
    · exact Nat.lt_succ_of_lt (h.published copy hold)

theorem separate_step (e : CopyEvent) (h : x.Separate) : (step numbers x e).Separate := by
  cases e with
  | publish signal sentAt nowNs viaWebsocket viaRing =>
    exact separate_publish h signal sentAt nowNs viaWebsocket viaRing
  | deliver index => exact separate_deliver h index
  | pop now => exact separate_pop h now
  | loop action => exact separate_loop h action

/-- What is held back is a second order for a signal. -/
theorem heldBack_loop_iff (x : SignalQueue c) (action : LoopAction) :
    x.HeldBack (.loop action) ↔ ∀ o ∈ x.sentBy action, o.1 ∉ x.sent.map Prod.fst := by
  obtain hnone | ⟨number, a, hcurrent, hstage, horder, hsent⟩ := x.sentBy_cases action
  · refine iff_of_true ?_ (by simp [hnone])
    unfold HeldBack
    split
    · rename_i handed haction
      obtain rfl := CopyEvent.loop.inj haction
      intro hrepeats hfree hconnected
      by_contra hhanded
      obtain rfl := Bool.eq_true_of_not_eq_false hhanded
      unfold repeats at hrepeats
      split at hrepeats
      · rename_i number a hcurrent hstage
        have hactionable := (Bool.and_eq_true _ _ ▸ hrepeats).1
        have horder := (TradingLoop.isOrder_handed_iff hstage (.main (.submit true))).mpr
          ⟨rfl, hfree, hconnected, hactionable⟩
        simp [sentBy, hcurrent, hstage, horder] at hnone
      · cases hrepeats
    · trivial
  · obtain ⟨rfl, hfree, hconnected, hactionable⟩ := (TradingLoop.isOrder_handed_iff hstage _).mp horder
    simp only [HeldBack, repeats, hcurrent, hstage, hsent, hfree, hconnected, hactionable,
      Bool.true_and, decide_eq_true_eq, forall_const, reduceCtorEq, imp_false, List.mem_singleton,
      forall_eq]

/-- The copies of one signal have distinct keys, so that a signal has one key as long as it has one
order. -/
theorem oneOrder_sentBy_iff (h : x.Separate) (hone : x.OneOrder) (action : LoopAction)
    (y : SignalQueue c) (hy : y.sent = x.sent ++ x.sentBy action) :
    y.OneOrder ↔ ∀ o ∈ x.sentBy action, o.1 ∉ x.sent.map Prod.fst := by
  unfold OneOrder
  rw [hy]
  obtain hnone | ⟨number, a, hcurrent, hstage, -, hsent⟩ := x.sentBy_cases action
  · rw [hnone, List.append_nil]
    exact iff_of_true hone (by simp)
  · simp only [hsent, List.mem_singleton, forall_eq, List.mem_append, List.mem_map, not_exists, not_and]
    constructor
    · intro hkeys o ho hnumber
      have hkey := hkeys o (Or.inl ho) (number, a) (Or.inr rfl) hnumber
      have htime := ((clientOrderId_eq_iff _ _).mp hkey).2
      have hworking : x.working = [(number, a.signal)] := by simp [working, hcurrent, hstage]
      have hnodup := h.nodup
      simp only [allCopies, List.map_append, hworking] at hnodup
      have hlast := (List.nodup_append.mp (List.nodup_append.mp
        (List.nodup_append.mp hnodup).2.1).2.1).2.2
      refine hlast (tag (number, a.signal)) (List.mem_map_of_mem (List.mem_singleton_self _))
        (tag (o.1, o.2.signal)) ?_ ?_
      · exact List.mem_map_of_mem (List.mem_map_of_mem (f := fun o => (o.1, o.2.signal)) ho)
      · exact Prod.ext hnumber.symm (decide_eq_decide.mpr (by rw [htime]))
    · intro hfresh o ho o' ho' hnumber
      rcases ho with hold | rfl
      · rcases ho' with hold' | rfl
        · exact hone o hold o' hold' hnumber
        · exact absurd hnumber (hfresh o hold)
      · rcases ho' with hold' | rfl
        · exact absurd hnumber.symm (hfresh o' hold')
        · rfl

theorem oneOrder_step_iff (h : x.Separate) (hone : x.OneOrder) (e : CopyEvent) :
    (step numbers x e).OneOrder ↔ x.HeldBack e := by
  cases e with
  | publish signal sentAt nowNs viaWebsocket viaRing => exact iff_of_true hone trivial
  | deliver index =>
    refine iff_of_true ?_ trivial
    simp only [step]
    split
    · unfold enqueue
      split_ifs <;> exact hone
    · exact hone
  | pop now =>
    refine iff_of_true ?_ trivial
    simp only [step]
    split <;> exact hone
  | loop action =>
    by_cases hpermits : x.permits action = true
    · rw [heldBack_loop_iff, oneOrder_sentBy_iff h hone action _ (by rw [step, if_pos hpermits])]
    · rw [step, if_neg hpermits]
      refine iff_of_true hone ?_
      unfold HeldBack
      split
      · rename_i handed haction
        obtain rfl := CopyEvent.loop.inj haction
        exact absurd rfl hpermits
      · trivial

/-- The main loop works on no order of a signal for which one was sent. -/
def Fresh (x : SignalQueue c) : Prop := ∀ copy ∈ x.working, copy.1 ∉ x.sent.map Prod.fst

theorem fresh_step (e : CopyEvent) (h : x.Fresh) (hguarded : x.Guarded e) : (step numbers x e).Fresh := by
  cases e with
  | publish signal sentAt nowNs viaWebsocket viaRing => exact h
  | deliver index =>
    simp only [step]
    split
    · unfold enqueue
      split_ifs <;> exact h
    · exact h
  | pop now =>
    simp only [step]
    split
    · rename_i number signal hnext
      obtain ⟨hready, hidle, -⟩ := next?_eq_some hnext
      intro copy hcopy hsent
      unfold working at hcopy
      split at hcopy
      · rename_i number' a hcurrent hstage
        obtain rfl := List.mem_singleton.mp hcopy
        obtain rfl := Option.some.inj hcurrent
        rw [step_pop hready] at hstage
        exact hguarded _ hnext hsent (TradingLoop.approved_checkSignal hidle hstage).2
      · cases hcopy
    · exact h
  | loop action =>
    by_cases hpermits : x.permits action = true
    · intro copy hcopy
      rcases working_loop numbers x action hpermits with hnil | ⟨hsame, hnone⟩
      · rw [hnil] at hcopy
        cases hcopy
      · rw [hsame] at hcopy
        have hfresh := h copy hcopy
        simpa only [step, if_pos hpermits, hnone, List.append_nil] using hfresh
    · rw [step, if_neg hpermits]
      exact h

theorem heldBack_of_fresh (h : x.Fresh) (e : CopyEvent) : x.HeldBack e := by
  unfold HeldBack
  split
  · intro hrepeats
    unfold repeats at hrepeats
    split at hrepeats
    · rename_i number a hcurrent hstage
      have hmem : (number, a.signal) ∈ x.working := by simp [working, hcurrent, hstage]
      have hsent := (Bool.and_eq_true _ _ ▸ hrepeats).2
      exact absurd (of_decide_eq_true hsent) (h _ hmem)
    · cases hrepeats
  · trivial

/-- In every run the orders sent for a signal carry one key, after every step, exactly if no second
order for a signal gets to the socket. None does if the main loop goes on with no copy of a signal for
which an order was sent: its symbol is still engaged, or it is refused. -/
theorem oneOrder_iff_heldBack (numbers : SymbolNumbers) (loop : TradingLoop c) (events : List CopyEvent) :
    (Along (step numbers) (fun x e => (step numbers x e).OneOrder)
        ({ loop := loop } : SignalQueue c) events ↔
      Along (step numbers) HeldBack ({ loop := loop } : SignalQueue c) events) ∧
    (Along (step numbers) Guarded ({ loop := loop } : SignalQueue c) events →
      Along (step numbers) HeldBack ({ loop := loop } : SignalQueue c) events) := by
  have hworking : working ({ loop := loop } : SignalQueue c) = [] := rfl
  constructor
  · refine along_congr (fun x => x.Separate ∧ x.OneOrder) ?_ ?_ events ?_
    · intro x e h hone
      exact ⟨separate_step e h.1, hone⟩
    · intro x e h
      exact oneOrder_step_iff h.1 h.2 e
    · refine ⟨⟨?_, ?_⟩, ?_⟩
      · simp [allCopies, hworking]
      · simp [allCopies, hworking]
      · simp [OneOrder]
  · refine along_imp Fresh (fun x e h hguarded => fresh_step e h hguarded)
      (fun x e h _ => heldBack_of_fresh h e) ?_
    simp [Fresh, hworking]

/-- One symbol that both sides of the ring number zero. -/
def oneSymbol : SymbolNumbers where
  symbolMap := Dict.empty.insert "BTC/USDT" 0
  symbols := ["BTC/USDT"]

/-- A long signal that passes every check. -/
def longSignal : SignalDict where
  symbol := some "BTC/USDT"
  direction := some "LONG"
  timestamp := some 1700000000
  confidence := some 70
  entryPrice := some 100
  stopLoss := some 98
  takeProfit := some 104

/-- The signal is published over both channels, both copies are queued, and the order of the first one
is sent. -/
def firstCopyTraded : List CopyEvent :=
  [.publish longSignal ⟨1700000001, by decide⟩ 0 true true, .deliver 0, .deliver 0,
      .loop (.main .readFlags)] ++
    TradingLoop.upToSignals.map .loop ++
    [.pop 0, .loop (.main (.submit true)), .loop (.main .register)]

/-- The exchange rejects the order of the first copy before the second one is taken from the queue:
a second order is sent, under another key. -/
theorem not_oneOrder_rejectedBetween :
    let events := firstCopyTraded ++
      [.loop (.ended 0 .rejected), .pop 0, .loop (.main (.submit true))]
    let last := run (step oneSymbol)
      ({ loop := { bot := { balance := 10000 } } } : SignalQueue TradingLoop.defaultLoop) events
    last.sent.map (fun o => (o.1, o.2.signal.clientOrderId)) =
      [(0, "hft_BTC/USDT_1700000001"), (0, "hft_BTC/USDT_0")] ∧ ¬ last.OneOrder := by
  decide +kernel

/-- The second copy is taken while the order of the first one is under way: its symbol is engaged. -/
example : Along (step oneSymbol) Guarded
    ({ loop := { bot := { balance := 10000 } } } : SignalQueue TradingLoop.defaultLoop)
    (firstCopyTraded ++ [.pop 0, .loop (.main (.submit true)), .loop (.ended 0 .rejected)]) := by
  decide +kernel

end SignalQueue

end TradingSim.Bot
