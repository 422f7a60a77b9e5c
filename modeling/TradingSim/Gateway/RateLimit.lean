import Mathlib.Data.Rat.Lemmas
import Mathlib.Algebra.Order.Field.Rat
import TradingSim.Foundations.Windows
import TradingSim.Foundations.Run

/-!
# The rate limit of a client

The server counts the messages of each client in fixed windows. The window that the connection starts
lets through exactly as many as the limit says. A message that starts a later window is let through
without being counted, so that such a window lets through one more.
-/

namespace TradingSim.Gateway.RateLimit

open Foundations

/-- The settings of the limiter. -/
structure Limits where
  rateLimitWindow : ℚ
  rateLimitMax : ℕ

/-- The messages of a client that were counted in its current window. -/
structure MessageCounts where
  count : ℕ
  windowStart : ℚ
  deriving DecidableEq

/-- Whether a client with an entry may send a message now, and its entry afterwards. -/
def countMessage (limits : Limits) (counts : MessageCounts) (now : ℚ) : Bool × MessageCounts :=
  if limits.rateLimitWindow ≤ now - counts.windowStart then
    (true, { count := 0, windowStart := now })
  else if limits.rateLimitMax ≤ counts.count then
    (false, counts)
  else
    (true, { counts with count := counts.count + 1 })

variable {Socket : Type*} [DecidableEq Socket]

/-- Whether a client may send a message now, and the entries of the clients afterwards. -/
def checkRateLimit (limits : Limits) (clientMessageCounts : Socket → Option MessageCounts)
    (websocket : Socket) (now : ℚ) : Bool × (Socket → Option MessageCounts) :=
  match clientMessageCounts websocket with
  | none =>
    (true, Function.update clientMessageCounts websocket (some { count := 0, windowStart := now }))
  | some counts =>
    let checked := countMessage limits counts now
    (checked.1, Function.update clientMessageCounts websocket (some checked.2))

/-- What happens to the clients: one connects, sends a message or is cleaned up. -/
inductive ClientEvent (Socket : Type*) where
  | connect (websocket : Socket) (now : ℚ)
  | message (websocket : Socket) (now : ℚ)
  | cleanup (websocket : Socket)

/-- The client an event is about. -/
def ClientEvent.websocket : ClientEvent Socket → Socket
  | .connect websocket _ => websocket
  | .message websocket _ => websocket
  | .cleanup websocket => websocket

/-- The entries of the clients after an event. -/
def handleEvent (limits : Limits) (clientMessageCounts : Socket → Option MessageCounts) :
    ClientEvent Socket → Socket → Option MessageCounts
  | .connect websocket now =>
    Function.update clientMessageCounts websocket (some { count := 0, windowStart := now })
  | .message websocket now => (checkRateLimit limits clientMessageCounts websocket now).2
  | .cleanup websocket => Function.update clientMessageCounts websocket none

/-- The messages of a client in a run of the server, each with its time and whether it was let through. -/
def handled (limits : Limits) (websocket : Socket) :
    (Socket → Option MessageCounts) → List (ClientEvent Socket) → List (ℚ × Bool)
  | _, [] => []
  | counts, e :: rest =>
    match e with
    | .message sender now =>
      if sender = websocket then (now, (checkRateLimit limits counts sender now).1) ::
          handled limits websocket (handleEvent limits counts e) rest
      else handled limits websocket (handleEvent limits counts e) rest
    | _ => handled limits websocket (handleEvent limits counts e) rest

/-- The times at which a client sends messages. -/
def arrivals (websocket : Socket) (events : List (ClientEvent Socket)) : List ℚ :=
  events.filterMap fun e =>
    match e with
    | .message sender now => if sender = websocket then some now else none
    | _ => none

/-- The client stays connected: it sends messages, and the others do anything. -/
def Connected (websocket : Socket) (events : List (ClientEvent Socket)) : Prop :=
  ∀ e ∈ events, e.websocket = websocket → ∃ now, e = .message websocket now

/-- The verdicts on the messages of a client with an entry. -/
def verdicts (limits : Limits) : MessageCounts → List ℚ → List (ℚ × Bool)
  | _, [] => []
  | counts, now :: rest =>
    (now, (countMessage limits counts now).1) :: verdicts limits (countMessage limits counts now).2 rest

/-- What a client does leaves the entries of the others alone. -/
theorem handleEvent_of_ne (limits : Limits) (clientMessageCounts : Socket → Option MessageCounts)
    {websocket : Socket} {e : ClientEvent Socket} (h : e.websocket ≠ websocket) :
    handleEvent limits clientMessageCounts e websocket = clientMessageCounts websocket := by
  cases e with
  | connect sender now => exact Function.update_of_ne (Ne.symm h) _ _
  | message sender now =>
    rw [handleEvent, checkRateLimit]
    split <;> exact Function.update_of_ne (Ne.symm h) _ _
  | cleanup sender => exact Function.update_of_ne (Ne.symm h) _ _

theorem handled_eq_verdicts (limits : Limits) {websocket : Socket}
    {clientMessageCounts : Socket → Option MessageCounts} {counts : MessageCounts}
    {events : List (ClientEvent Socket)} (hconnected : Connected websocket events)
    (hcounts : clientMessageCounts websocket = some counts) :
    handled limits websocket clientMessageCounts events =
      verdicts limits counts (arrivals websocket events) := by
  induction events generalizing clientMessageCounts counts with
  | nil => rfl
  | cons e rest ih =>
    rw [Connected, List.forall_mem_cons] at hconnected
    by_cases hsender : e.websocket = websocket
    · obtain ⟨now, rfl⟩ := hconnected.1 hsender
      have hnext : handleEvent limits clientMessageCounts (.message websocket now) websocket =
          some (countMessage limits counts now).2 := by
        simp [handleEvent, checkRateLimit, hcounts]
      simp [handled, arrivals, verdicts, ih hconnected.2 hnext, checkRateLimit, hcounts]
    · have hrest := ih hconnected.2 ((handleEvent_of_ne limits clientMessageCounts hsender).trans hcounts)
      cases e with
      | connect sender now => exact hrest
      | message sender now =>
        have hother : sender ≠ websocket := hsender
        rw [handled, if_neg hother, hrest]
        simp [arrivals, hother]
      | cleanup sender => exact hrest

/-- The first messages of a window up to a number are let through, the others are not. -/
def Admits (budget : ℕ) (messages : List (ℚ × Bool)) : Prop :=
  messages.map Prod.snd = (List.range messages.length).map (decide <| · < budget)

/-- One message more at the front of a window. -/
theorem admits_cons (budget : ℕ) (now : ℚ) (messages : List (ℚ × Bool)) :
    Admits budget ((now, decide (0 < budget)) :: messages) ↔ Admits (budget - 1) messages := by
  have hshift (i : ℕ) : i + 1 < budget ↔ i < budget - 1 := by omega
  simp [Admits, List.range_succ_eq_map, Function.comp_def, hshift]

theorem verdicts_windows (limits : Limits) (counts : MessageCounts) (times : List ℚ) :
    let windows := splitWindows Prod.fst limits.rateLimitWindow counts.windowStart
      (verdicts limits counts times)
    Admits (limits.rateLimitMax - counts.count) windows.1 ∧
      ∀ w ∈ windows.2, Admits (limits.rateLimitMax + 1) w.arrivals := by
  induction times generalizing counts with
  | nil => simp [verdicts, splitWindows, Admits]
  | cons now rest ih =>
    rw [verdicts, splitWindows]
    split_ifs with hopen
    · -- The message opens a window without being counted in it.
      have hchecked : countMessage limits counts now = (true, { count := 0, windowStart := now }) :=
        if_pos hopen
      have hrest := ih { count := 0, windowStart := now }
      rw [hchecked]
      refine ⟨rfl, List.forall_mem_cons.mpr ⟨?_, hrest.2⟩⟩
      exact (admits_cons (limits.rateLimitMax + 1) now _).mpr hrest.1
    · by_cases hfull : limits.rateLimitMax ≤ counts.count
      · have hchecked : countMessage limits counts now = (false, counts) := by
          rw [countMessage, if_neg hopen, if_pos hfull]
        have hzero : limits.rateLimitMax - counts.count = 0 := by omega
        have hrest := ih counts
        rw [hzero] at hrest ⊢
        rw [hchecked]
        exact ⟨(admits_cons 0 now _).mpr hrest.1, hrest.2⟩
      · have hchecked : countMessage limits counts now =
            (true, { counts with count := counts.count + 1 }) := by
          rw [countMessage, if_neg hopen, if_neg hfull]
        have hpos : decide (0 < limits.rateLimitMax - counts.count) = true := by
          simp only [decide_eq_true_eq]
          omega
        have hrest := ih { counts with count := counts.count + 1 }
        rw [hchecked, ← hpos]
        refine ⟨(admits_cons _ now _).mpr ?_, hrest.2⟩
        exact hrest.1

/-- A window in which one more is let through has let through the first ones only if no more came. -/
theorem Admits.iff_length_le {budget : ℕ} {messages : List (ℚ × Bool)}
    (h : Admits (budget + 1) messages) : Admits budget messages ↔ messages.length ≤ budget := by
  rw [Admits] at h ⊢
  rw [h]
  constructor
  · intro heq
    by_contra hlong
    have hat : budget < messages.length := by omega
    have hentry := congrArg (·[budget]?) heq
    simp [hat] at hentry
  · intro hlength
    apply List.map_congr_left
    intro i hi
    rw [List.mem_range] at hi
    rw [decide_eq_decide]
    omega

theorem countP_range_lt (budget n : ℕ) : (List.range n).countP (decide <| · < budget) = min n budget := by
  induction n with
  | zero => simp
  | succ n ih =>
    rw [List.range_succ, List.countP_append, ih, List.countP_singleton]
    simp only [decide_eq_true_eq]
    split_ifs <;> omega

/-- No more messages of a window are let through than its budget. -/
theorem Admits.countP_le {budget : ℕ} {messages : List (ℚ × Bool)} (h : Admits budget messages) :
    messages.countP Prod.snd ≤ budget := by
  calc messages.countP Prod.snd = (messages.map Prod.snd).countP id := by rw [List.countP_map]; rfl
    _ = (List.range messages.length).countP (decide <| · < budget) := by rw [h, List.countP_map]; rfl
    _ ≤ budget := (countP_range_lt budget _).trans_le (min_le_right _ _)

/-- In every window exactly the first messages are let through, as many as the limit says, and in a stretch
no longer than a window at most twice as many. -/
structure Exact (limits : Limits) (connected : ℚ) (messages : List (ℚ × Bool)) : Prop where
  windows : ∀ w ∈ windowsFrom Prod.fst limits.rateLimitWindow connected messages,
    Admits limits.rateLimitMax w.arrivals
  stretches : ∀ a b, b - a ≤ limits.rateLimitWindow →
    (messages.countP fun m => m.2 ∧ a ≤ m.1 ∧ m.1 ≤ b) ≤ 2 * limits.rateLimitMax

/-- No window that a message starts receives more messages than the limit says. -/
def SparseWindows (limits : Limits) (connected : ℚ) (times : List ℚ) : Prop :=
  ∀ w ∈ (splitWindows id limits.rateLimitWindow connected times).2,
    w.arrivals.length ≤ limits.rateLimitMax

theorem map_fst_verdicts (limits : Limits) (counts : MessageCounts) (times : List ℚ) :
    (verdicts limits counts times).map Prod.fst = times := by
  induction times generalizing counts with
  | nil => rfl
  | cons now rest ih => rw [verdicts, List.map_cons, ih]

/-- The limiter is exact on a connected client's messages, whatever the other clients do meanwhile, when no
window but the first receives more messages than the limit says. -/
theorem exact_iff {limits : Limits} (hwindow : 0 < limits.rateLimitWindow) {websocket : Socket}
    {connected : ℚ} {events : List (ClientEvent Socket)} (hconnected : Connected websocket events)
    (hsorted : (connected :: arrivals websocket events).Pairwise (· ≤ ·))
    (clientMessageCounts : Socket → Option MessageCounts) :
    Exact limits connected (handled limits websocket
        (handleEvent limits clientMessageCounts (.connect websocket connected)) events) ↔
      SparseWindows limits connected (arrivals websocket events) := by
  have hentry : handleEvent limits clientMessageCounts (.connect websocket connected) websocket =
      some { count := 0, windowStart := connected } := Function.update_self _ _ _
  rw [handled_eq_verdicts limits hconnected hentry]
  obtain ⟨hfirst, hlater⟩ := verdicts_windows limits { count := 0, windowStart := connected }
    (arrivals websocket events)
  have htimes := map_fst_verdicts limits { count := 0, windowStart := connected } (arrivals websocket events)
  generalize verdicts limits { count := 0, windowStart := connected } (arrivals websocket events) =
    messages at hfirst hlater htimes ⊢
  have hwindows : Exact limits connected messages ↔
      ∀ w ∈ (splitWindows Prod.fst limits.rateLimitWindow connected messages).2,
        Admits limits.rateLimitMax w.arrivals := by
    constructor
    · intro h w hw
      exact h.windows w (List.mem_cons_of_mem _ hw)
    · intro h
      have hall : ∀ w ∈ windowsFrom Prod.fst limits.rateLimitWindow connected messages,
          Admits limits.rateLimitMax w.arrivals := List.forall_mem_cons.mpr ⟨hfirst, h⟩
      refine ⟨hall, ?_⟩
      intro a b hle
      obtain ⟨hproper, hspaced⟩ := windowsFrom_proper Prod.fst hwindow (htimes ▸ hsorted)
      rw [← flatMap_windowsFrom Prod.fst limits.rateLimitWindow connected messages]
      apply countP_le_two_windows hle ?_ hproper hspaced
      · intro w hw
        apply le_trans ?_ (hall w hw).countP_le
        exact List.countP_mono_left fun m _ hm => (of_decide_eq_true hm).1
      · intro m hm
        exact (of_decide_eq_true hm).2
  rw [hwindows, SparseWindows, ← htimes, splitWindows_map]
  simp only [List.forall_mem_map, List.length_map]
  exact forall₂_congr fun w hw => (hlater w hw).iff_length_le

/-- Two messages of the first window with a limit of one, while another client comes and goes. -/
theorem exact_first_window :
    Exact ⟨60, 1⟩ 0 (handled ⟨60, 1⟩ 0 (handleEvent ⟨60, 1⟩ (fun _ => none) (.connect 0 0))
      [.message 0 1, .connect 1 2, .message 0 3, .cleanup 1]) := by
  apply (exact_iff (by decide) ?_ (by decide) _).mpr
  · rw [SparseWindows]
    decide +kernel
  · simp [Connected, ClientEvent.websocket]

/-- With a limit of one the window of a message that comes after a minute lets through two. -/
theorem not_exact_later_window :
    ¬ Exact ⟨60, 1⟩ 0 (handled ⟨60, 1⟩ 0 (handleEvent ⟨60, 1⟩ (fun _ => none) (.connect 0 0))
      [.message 0 60, .message 0 61]) := by
  intro h
  have hadmits := h.windows ⟨60, [(60, true), (61, true)]⟩ (by decide +kernel)
  simp [Admits, List.range_succ] at hadmits

end TradingSim.Gateway.RateLimit
