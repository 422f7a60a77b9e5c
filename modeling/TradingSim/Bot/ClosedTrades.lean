import TradingSim.Exchange.ClosedTrades
import TradingSim.Foundations.DictDelta

/-!
# The closed trades that the bot records

The bot keeps a cursor for each exchange: how many closes the account had counted when
`_ingest_closed_trades` last looked at it. The first look only sets the cursor.

The simulator sends the accounts of all exchanges. Messages arrive in order, some time later, and
are lost with the connection. A trade is recorded exactly once if it is among the last twenty in the
account that the first call after its close is shown, and is not recorded at all otherwise.
-/

namespace TradingSim.Bot

open Foundations Exchange

/-- A row of the trades table. -/
structure TradeRow where
  timestamp : ℤ
  symbol : String
  exchange : String
  side : Side
  quantity : ℚ
  entryPrice : ℚ
  exitPrice : ℚ
  pnl : ℚ
  fee : ℚ
  status : String
  signalId : Option ℤ
  deriving DecidableEq

/-- The row of a closed trade. -/
def tradeRow (exId : String) (record : TradeRecord) : TradeRow where
  timestamp := record.closedAt
  symbol := record.trade.symbol
  exchange := exId
  side := record.trade.side
  quantity := record.trade.quantity
  entryPrice := record.trade.entryPrice
  exitPrice := record.trade.exitPrice
  pnl := record.trade.pnl
  fee := record.trade.fee
  status := "CLOSED"
  signalId := none

/-- What `PerformanceTracker` counts of closed trades. -/
structure PerformanceTracker where
  tradesClosed : ℕ := 0
  winningTrades : ℕ := 0
  totalPnl : ℚ := 0
  totalFees : ℚ := 0
  deriving DecidableEq

def PerformanceTracker.recordTrade (tracker : PerformanceTracker) (pnl fee : ℚ) (winning : Bool) :
    PerformanceTracker where
  tradesClosed := tracker.tradesClosed + 1
  winningTrades := tracker.winningTrades + (if winning then 1 else 0)
  totalPnl := tracker.totalPnl + pnl
  totalFees := tracker.totalFees + fee

/-- The counters of a list of rows. -/
def PerformanceTracker.recordAll (rows : List TradeRow) : PerformanceTracker :=
  rows.foldl (fun tracker row => tracker.recordTrade row.pnl row.fee (decide (0 < row.pnl))) {}

/-- The part of the bot that records closed trades. Of the database and the log it has the rows of status
`CLOSED`. -/
structure TradeIngest where
  accounts : Dict String AccountReport := Dict.empty
  closedCursor : Dict String ℕ := Dict.empty
  db : List TradeRow := []
  tradeLogger : List TradeRow := []
  tracker : PerformanceTracker := {}

namespace TradeIngest

/-- The body of the inner loop of `_ingest_closed_trades`. -/
def saveTrade (exId : String) (b : TradeIngest) (record : TradeRecord) : TradeIngest :=
  let trade := tradeRow exId record
  { b with
    db := b.db ++ [trade]
    tradeLogger := b.tradeLogger ++ [trade]
    tracker := b.tracker.recordTrade trade.pnl trade.fee (decide (0 < trade.pnl)) }

/-- The body of the outer loop of `_ingest_closed_trades`. -/
def ingestAccount (b : TradeIngest) (entry : String × AccountReport) : TradeIngest :=
  match b.closedCursor.find? entry.1 with
  | none => { b with closedCursor := b.closedCursor.insert entry.1 entry.2.totalTrades }
  | some prev =>
    if entry.2.totalTrades ≤ prev then b
    else
      (recent (entry.2.totalTrades - prev) entry.2.tradeHistory).foldl (saveTrade entry.1)
        { b with closedCursor := b.closedCursor.insert entry.1 entry.2.totalTrades }

def ingestClosedTrades (b : TradeIngest) : TradeIngest :=
  b.accounts.entries.foldl ingestAccount b

/-- The rows of an exchange. -/
def rowsOf (b : TradeIngest) (exId : String) : List TradeRow :=
  b.db.filter fun row => row.exchange = exId

/-- Log and counters agree with the database. -/
structure Agrees (b : TradeIngest) : Prop where
  logged : b.tradeLogger = b.db
  tracked : b.tracker = PerformanceTracker.recordAll b.db

variable {b : TradeIngest}

theorem Agrees.saveTrade (h : b.Agrees) (exId : String) (record : TradeRecord) :
    (b.saveTrade exId record).Agrees where
  logged := congrArg (· ++ [tradeRow exId record]) h.logged
  tracked := by
    unfold PerformanceTracker.recordAll TradeIngest.saveTrade
    rw [List.foldl_append, ← PerformanceTracker.recordAll, ← h.tracked]
    rfl

theorem Agrees.ingestAccount (h : b.Agrees) (entry : String × AccountReport) :
    (b.ingestAccount entry).Agrees := by
  have hcursor : ∀ cursor, TradeIngest.Agrees { b with closedCursor := cursor } :=
    fun _ => ⟨h.logged, h.tracked⟩
  unfold TradeIngest.ingestAccount
  cases b.closedCursor.find? entry.1 with
  | none => exact hcursor _
  | some prev =>
    simp only
    by_cases hold : entry.2.totalTrades ≤ prev
    · rw [if_pos hold]
      exact h
    · rw [if_neg hold]
      exact run_invariant (fun _ record hb => hb.saveTrade entry.1 record) _ (hcursor _)

/-- The rows that a look at an account adds. -/
def newRows (exId : String) (cursor : Option ℕ) (status : AccountReport) : List TradeRow :=
  cursor.elim [] fun prev =>
    (recent (status.totalTrades - prev) status.tradeHistory).map (tradeRow exId)

theorem foldl_saveTrade (exId : String) (records : List TradeRecord) (b : TradeIngest) :
    (records.foldl (saveTrade exId) b).db = b.db ++ records.map (tradeRow exId) ∧
      (records.foldl (saveTrade exId) b).closedCursor = b.closedCursor := by
  induction records generalizing b with
  | nil => exact ⟨(List.append_nil _).symm, rfl⟩
  | cons record rest ih =>
    obtain ⟨hdb, hcursor⟩ := ih (b.saveTrade exId record)
    rw [List.foldl_cons, hdb, hcursor]
    exact ⟨List.append_assoc _ _ _, rfl⟩

theorem ingestAccount_db (b : TradeIngest) (exId : String) (status : AccountReport) :
    (b.ingestAccount (exId, status)).db = b.db ++ newRows exId (b.closedCursor.find? exId) status := by
  unfold TradeIngest.ingestAccount
  cases b.closedCursor.find? exId with
  | none => exact (List.append_nil _).symm
  | some prev =>
    simp only [newRows, Option.elim_some]
    by_cases hold : status.totalTrades ≤ prev
    · rw [if_pos hold, Nat.sub_eq_zero_of_le hold, recent, Nat.sub_zero, List.drop_length]
      exact (List.append_nil _).symm
    · rw [if_neg hold]
      exact (foldl_saveTrade exId _ _).1

theorem ingestAccount_cursor (b : TradeIngest) (exId exId' : String) (status : AccountReport) :
    (b.ingestAccount (exId, status)).closedCursor.find? exId' =
      if exId' = exId then some (max ((b.closedCursor.find? exId).getD 0) status.totalTrades)
      else b.closedCursor.find? exId' := by
  unfold TradeIngest.ingestAccount
  cases hcursor : b.closedCursor.find? exId with
  | none =>
    simp only [Dict.find?_insert, Option.getD_none]
    rw [max_eq_right (Nat.zero_le _)]
  | some prev =>
    simp only [Option.getD_some]
    by_cases hold : status.totalTrades ≤ prev
    · rw [if_pos hold, max_eq_left hold]
      by_cases hex : exId' = exId
      · rw [if_pos hex, hex, hcursor]
      · rw [if_neg hex]
    · rw [if_neg hold, (foldl_saveTrade exId _ _).2, Dict.find?_insert,
        max_eq_right (not_le.mp hold).le]

theorem filter_newRows (exId exId' : String) (cursor : Option ℕ) (status : AccountReport) :
    ((newRows exId cursor status).filter fun row => row.exchange = exId') =
      if exId = exId' then newRows exId cursor status else [] := by
  have hrows : ∀ row ∈ newRows exId cursor status, row.exchange = exId := by
    intro row hrow
    cases cursor with
    | none => exact absurd hrow List.not_mem_nil
    | some prev =>
      obtain ⟨record, -, rfl⟩ := List.mem_map.mp hrow
      rfl
  by_cases hex : exId = exId'
  · rw [if_pos hex, List.filter_eq_self]
    exact fun row hrow => decide_eq_true ((hrows row hrow).trans hex)
  · rw [if_neg hex, List.filter_eq_nil_iff]
    intro row hrow hsame
    exact hex ((hrows row hrow).symm.trans (of_decide_eq_true hsame))

/-- What the bot holds of an exchange: its cursor and its rows. -/
def books (exId : String) (b : TradeIngest) : Option ℕ × List TradeRow :=
  (b.closedCursor.find? exId, b.rowsOf exId)

/-- A look at an account in terms of what the bot holds of an exchange. -/
theorem books_ingestAccount (b : TradeIngest) (exId exId' : String) (status : AccountReport) :
    (b.ingestAccount (exId, status)).books exId' = if exId = exId' then
        (some (max ((b.books exId').1.getD 0) status.totalTrades),
          (b.books exId').2 ++ newRows exId' (b.books exId').1 status) else b.books exId' := by
  unfold books rowsOf
  rw [ingestAccount_cursor, ingestAccount_db, List.filter_append, filter_newRows]
  by_cases hex : exId = exId'
  · subst hex
    rw [if_pos rfl, if_pos rfl, if_pos rfl]
  · rw [if_neg (Ne.symm hex), if_neg hex, if_neg hex, List.append_nil]

/-- A call looks at an exchange exactly if the bot holds its account. -/
theorem books_ingestClosedTrades (b : TradeIngest) (exId : String) : b.ingestClosedTrades.books exId =
      (b.accounts.find? exId).elim (b.books exId) fun status =>
        (some (max ((b.books exId).1.getD 0) status.totalTrades),
          (b.books exId).2 ++ newRows exId (b.books exId).1 status) := by
  have hother : ∀ (s : TradeIngest) (e : String × AccountReport), e.1 ≠ exId →
      (s.ingestAccount e).books exId = s.books exId := by
    intro s e hne
    rw [books_ingestAccount, if_neg hne]
  have hread : ∀ (s s' : TradeIngest) (status : AccountReport), s.books exId = s'.books exId →
      (s.ingestAccount (exId, status)).books exId =
        (s'.ingestAccount (exId, status)).books exId := by
    intro s s' status hsame
    rw [books_ingestAccount, books_ingestAccount, if_pos rfl, if_pos rfl, hsame]
  have hfold : b.ingestClosedTrades.books exId = (b.accounts.find? exId).elim (b.books exId)
      fun status => (b.ingestAccount (exId, status)).books exId :=
    Dict.foldl_entries_at hother hread b.accounts b
  rw [hfold]
  cases b.accounts.find? exId with
  | none => rfl
  | some status =>
    rw [Option.elim_some, Option.elim_some, books_ingestAccount, if_pos rfl]

theorem Agrees.ingestClosedTrades (h : b.Agrees) : b.ingestClosedTrades.Agrees :=
  run_invariant (fun _ entry hb => hb.ingestAccount entry) _ h

theorem ingestClosedTrades_accounts (b : TradeIngest) : b.ingestClosedTrades.accounts = b.accounts := by
  have hsave : ∀ (exId : String) (s : TradeIngest) (record : TradeRecord),
      (s.saveTrade exId record).accounts = s.accounts := fun _ _ _ => rfl
  have hentry : ∀ (s : TradeIngest) (entry : String × AccountReport),
      (s.ingestAccount entry).accounts = s.accounts := by
    intro s entry
    unfold TradeIngest.ingestAccount
    cases s.closedCursor.find? entry.1 with
    | none => rfl
    | some prev =>
      simp only
      by_cases hold : entry.2.totalTrades ≤ prev
      · rw [if_pos hold]
      · rw [if_neg hold]
        exact run_unchanged TradeIngest.accounts (hsave entry.1) _ _
  exact run_unchanged TradeIngest.accounts hentry b _

end TradeIngest

/-- The exchanges, the messages under way, and the bot. `visits` lists for each exchange the counters that
`_ingest_closed_trades` was shown. -/
structure AccountFeed where
  servers : Dict String ClosingAccount
  link : List (Dict String AccountReport) := []
  bot : TradeIngest := {}
  visits : String → List ℕ := fun _ => []

namespace AccountFeed

/-- What happens between the simulator and the bot. -/
inductive Event
  | account (exId : String) (event : ClosingEvent)
  | send
  | receive
  | disconnect
  | ingest
  | restart
  deriving DecidableEq

/-- The simulator with new accounts and a bot that has seen nothing. -/
def init (exchanges : List String) : AccountFeed where
  servers := Dict.ofList id (fun _ => {}) exchanges

def step (w : AccountFeed) : Event → AccountFeed
  | .account exId event =>
    match w.servers.find? exId with
    | none => w
    | some server => { w with servers := w.servers.insert exId (server.step event) }
  | .send => { w with link := w.link ++ [w.servers.mapValues fun _ server => server.toDict] }
  | .receive =>
    match w.link with
    | [] => w
    | message :: rest => { w with link := rest, bot := { w.bot with accounts := message } }
  | .disconnect => { w with link := [] }
  | .ingest => { w with
      bot := w.bot.ingestClosedTrades
      visits := fun exId => w.visits exId ++
        ((w.bot.accounts.find? exId).map (·.totalTrades)).toList }
  | .restart => { w with servers := w.servers.mapValues fun _ _ => {}, link := [] }

/-- The account of an exchange, a new one for an exchange that does not exist. -/
def server (w : AccountFeed) (exId : String) : ClosingAccount := (w.servers.find? exId).getD {}

/-- The rows of all trades that an exchange has closed. -/
def history (w : AccountFeed) (exId : String) : List TradeRow :=
  (w.server exId).tradeHistory.map (tradeRow exId)

/-- The states of an account that the bot holds or will be told, oldest first. -/
def known (w : AccountFeed) (exId : String) : List AccountReport :=
  (w.bot.accounts :: w.link).filterMap (·.find? exId)

/-- What the events of a session without restarts keep true of an exchange. -/
structure Followed (w : AccountFeed) (exId : String) : Prop where
  counted : (w.server exId).totalTrades = (w.history exId).length
  shown : ∀ status ∈ w.known exId, status.tradeHistory.map (tradeRow exId) =
    recent ClosingAccount.reportedTrades ((w.history exId).take status.totalTrades)
  ordered : (w.visits exId ++ (w.known exId).map (·.totalTrades) ++
    [(w.server exId).totalTrades]).Pairwise (· ≤ ·)
  cursor : w.bot.closedCursor.find? exId = (w.visits exId).getLast?
  rows : w.bot.rowsOf exId =
    (takenPositions ClosingAccount.reportedTrades (w.visits exId)).filterMap
      fun p => (w.history exId)[p]?

variable {w : AccountFeed} {exId : String}

/-- No call was shown more closes than there are. -/
theorem Followed.visit_le (h : w.Followed exId) {visit : ℕ} (hvisit : visit ∈ w.visits exId) :
    visit ≤ (w.history exId).length := by
  rw [← h.counted]
  exact (List.pairwise_append.mp h.ordered).2.2 visit (List.mem_append_left _ hvisit) _
    (List.mem_singleton_self _)

/-- The bot is told of no more closes than there are. -/
theorem Followed.known_le (h : w.Followed exId) {status : AccountReport}
    (hstatus : status ∈ w.known exId) : status.totalTrades ≤ (w.history exId).length := by
  rw [← h.counted]
  exact (List.pairwise_append.mp h.ordered).2.2 _
    (List.mem_append_right _ (List.mem_map_of_mem hstatus)) _ (List.mem_singleton_self _)

/-- Calls are shown ever more closes. -/
theorem Followed.visits_ordered (h : w.Followed exId) : (w.visits exId).Pairwise (· ≤ ·) :=
  (List.pairwise_append.mp (List.pairwise_append.mp h.ordered).1).1

/-! ### The simulator -/

theorem followed_init (exchanges : List String) (exId : String) : (init exchanges).Followed exId := by
  have hserver : (init exchanges).server exId = {} := by
    unfold server init
    rw [Dict.find?_ofList]
    cases (KeyedList.under id exId exchanges).getLast? with
    | none => rfl
    | some _ => rfl
  have hhistory : (init exchanges).history exId = [] := by rw [history, hserver]; rfl
  constructor
  · rw [hserver, hhistory]
    rfl
  · exact fun status hstatus => absurd hstatus List.not_mem_nil
  · exact List.pairwise_singleton _ _
  · rfl
  · rfl

theorem account_appends (w : AccountFeed) (exId exId' : String) (event : ClosingEvent) :
    ∃ later, (w.step (.account exId' event)).history exId = w.history exId ++ later ∧
      ((w.step (.account exId' event)).server exId).totalTrades =
        (w.server exId).totalTrades + later.length := by
  have hsame : ∃ later, w.history exId = w.history exId ++ later ∧
      (w.server exId).totalTrades = (w.server exId).totalTrades + later.length :=
    ⟨[], (List.append_nil _).symm, rfl⟩
  cases hfind : w.servers.find? exId' with
  | none =>
    simp only [step, hfind]
    exact hsame
  | some server =>
    by_cases hex : exId = exId'
    · subst hex
      have hserver : w.server exId = server := by rw [AccountFeed.server, hfind, Option.getD_some]
      have hstep : (w.step (.account exId event)).server exId = server.step event := by
        simp only [step, hfind]
        rw [AccountFeed.server, Dict.find?_insert_self, Option.getD_some]
      rw [history, history, hstep, hserver]
      exact server.step_appends (tradeRow exId) (fun _ _ => rfl) event
    · have hstep : (w.step (.account exId' event)).server exId = w.server exId := by
        simp only [step, hfind]
        rw [AccountFeed.server, Dict.find?_insert_of_ne _ hex, AccountFeed.server]
      rw [history, hstep]
      exact hsame

theorem Followed.account (h : w.Followed exId) (exId' : String) (event : ClosingEvent) :
    (w.step (.account exId' event)).Followed exId := by
  obtain ⟨later, hhistory, htotal⟩ := w.account_appends exId exId' event
  have hbot : (w.step (.account exId' event)).bot = w.bot ∧
      (w.step (.account exId' event)).link = w.link ∧
      (w.step (.account exId' event)).visits = w.visits := by
    cases hfind : w.servers.find? exId' with
    | none => simp only [step, hfind, and_self]
    | some server => simp only [step, hfind, and_self]
  obtain ⟨hbot, hlink, hvisits⟩ := hbot
  have hknown : (w.step (.account exId' event)).known exId = w.known exId := by
    rw [known, hbot, hlink, known]
  constructor
  · rw [htotal, hhistory, List.length_append, h.counted]
  · intro status hstatus
    rw [hknown] at hstatus
    rw [hhistory, List.take_append_of_le_length (h.known_le hstatus)]
    exact h.shown status hstatus
  · rw [hknown, hvisits]
    have hparts := List.pairwise_append.mp h.ordered
    apply List.pairwise_append.mpr ⟨hparts.1, List.pairwise_singleton _ _, ?_⟩
    intro n hn last hlast
    rw [List.mem_singleton.mp hlast, htotal]
    exact (hparts.2.2 n hn _ (List.mem_singleton_self _)).trans (Nat.le_add_right _ _)
  · rw [hbot, hvisits]
    exact h.cursor
  · rw [hbot, hvisits, h.rows, hhistory]
    apply List.filterMap_congr
    intro p hp
    have hlt := lt_of_mem_takenPositions (fun visit hvisit => h.visit_le hvisit) hp
    rw [List.getElem?_append_left hlt]

/-- Messages that are lost or already read make no difference. -/
theorem Followed.of_known (h : w.Followed exId) {w' : AccountFeed}
    (hserver : w'.server exId = w.server exId) (hbooks : w'.bot.books exId = w.bot.books exId)
    (hvisits : w'.visits exId = w.visits exId) (hknown : (w'.known exId).Sublist (w.known exId)) :
    w'.Followed exId := by
  have hhistory : w'.history exId = w.history exId := by rw [history, hserver, history]
  obtain ⟨hcursor, hrows⟩ := Prod.ext_iff.mp hbooks
  constructor
  · rw [hserver, hhistory]
    exact h.counted
  · intro status hstatus
    rw [hhistory]
    exact h.shown status (hknown.subset hstatus)
  · rw [hserver, hvisits]
    exact h.ordered.sublist
      (((List.Sublist.refl _).append (hknown.map _)).append (List.Sublist.refl _))
  · rw [hvisits]
    exact hcursor.trans h.cursor
  · rw [hvisits, hhistory]
    exact hrows.trans h.rows

/-! ### Messages -/

theorem Followed.send (h : w.Followed exId) : (w.step .send).Followed exId := by
  have hknown : (w.step .send).known exId =
      w.known exId ++ ((w.servers.find? exId).map (·.toDict)).toList := by
    unfold known step
    rw [← List.cons_append, List.filterMap_append]
    congr 1
    rw [List.filterMap_cons, Dict.find?_mapValues]
    cases w.servers.find? exId with
    | none => rfl
    | some server => rfl
  cases hfind : w.servers.find? exId with
  | none =>
    rw [hfind, Option.map_none, Option.toList_none, List.append_nil] at hknown
    exact h.of_known rfl rfl rfl (by rw [hknown])
  | some server =>
    have hserver : w.server exId = server := by rw [AccountFeed.server, hfind, Option.getD_some]
    rw [hfind, Option.map_some, Option.toList_some] at hknown
    constructor
    · exact h.counted
    · intro status hstatus
      rw [hknown, List.mem_append, List.mem_singleton] at hstatus
      rcases hstatus with hearlier | rfl
      · exact h.shown status hearlier
      · have hwhole : (w.history exId).take server.totalTrades = w.history exId := by
          rw [← hserver, h.counted, List.take_length]
        change (recent _ server.tradeHistory).map (tradeRow exId) =
          recent _ ((w.history exId).take server.totalTrades)
        rw [hwhole, map_recent, history, hserver]
    · rw [hknown, List.map_append, List.map_singleton, ← List.append_assoc]
      have hordered := h.ordered
      rw [hserver] at hordered
      have hrepeat := pairwise_le_repeat hordered
      change (_ ++ [server.totalTrades] ++ [(w.server exId).totalTrades]).Pairwise (· ≤ ·)
      rw [hserver]
      exact hrepeat
    · exact h.cursor
    · exact h.rows

/-- The bot takes a message. -/
theorem Followed.receive (h : w.Followed exId) : (w.step .receive).Followed exId := by
  cases hlink : w.link with
  | nil =>
    simp only [step, hlink]
    exact h
  | cons message rest =>
    have hstep : w.step .receive =
        { w with link := rest, bot := { w.bot with accounts := message } } := by
      simp only [step, hlink]
    have hknown : ((w.step .receive).known exId).Sublist (w.known exId) := by
      rw [hstep, known, known, hlink]
      exact (List.sublist_cons_self _ _).filterMap _
    rw [hstep] at hknown ⊢
    exact h.of_known rfl rfl rfl hknown

/-- The connection is lost. -/
theorem Followed.disconnect (h : w.Followed exId) : (w.step .disconnect).Followed exId := by
  have hknown : ((w.step .disconnect).known exId).Sublist (w.known exId) :=
    ((List.nil_sublist w.link).cons_cons w.bot.accounts).filterMap _
  exact h.of_known rfl rfl rfl hknown

/-! ### Calls of the bot -/

/-- What a call adds for an account are the trades at the positions that its visit takes. -/
theorem Followed.takes (h : w.Followed exId) {status : AccountReport} (hstatus : status ∈ w.known exId)
    (hbefore : ∀ visit ∈ w.visits exId, visit ≤ status.totalTrades) :
    ((takenPositions ClosingAccount.reportedTrades (w.visits exId)).filterMap
        fun p => (w.history exId)[p]?) ++ TradeIngest.newRows exId (w.visits exId).getLast? status =
      (takenPositions ClosingAccount.reportedTrades
        (w.visits exId ++ [status.totalTrades])).filterMap fun p => (w.history exId)[p]? := by
  rcases List.eq_nil_or_concat (w.visits exId) with hnone | ⟨earlier, before, hlast⟩
  · -- the first visit only sets the cursor
    rw [hnone]
    rfl
  · rw [List.concat_eq_append] at hlast
    have hle : before ≤ status.totalTrades := hbefore before (by simp [hlast])
    rw [hlast, List.getLast?_concat, takenPositions_concat, List.filterMap_append]
    apply congrArg (_ ++ ·)
    rw [TradeIngest.newRows, Option.elim_some, map_recent, h.shown status hstatus]
    exact recent_recent_take _ hle (h.known_le hstatus)

/-- The bot looks at its accounts. -/
theorem Followed.ingest (h : w.Followed exId) : (w.step .ingest).Followed exId := by
  have hknown : (w.step .ingest).known exId = w.known exId := by
    unfold known step
    rw [TradeIngest.ingestClosedTrades_accounts]
  have hbooks := w.bot.books_ingestClosedTrades exId
  cases hseen : w.bot.accounts.find? exId with
  | none =>
    rw [hseen, Option.elim_none] at hbooks
    have hvisits : (w.step .ingest).visits exId = w.visits exId := by
      change w.visits exId ++ ((w.bot.accounts.find? exId).map _).toList = _
      rw [hseen, Option.map_none, Option.toList_none, List.append_nil]
    have hsublist : ((w.step .ingest).known exId).Sublist (w.known exId) := by rw [hknown]
    exact h.of_known rfl hbooks hvisits hsublist
  | some status =>
    rw [hseen, Option.elim_some] at hbooks
    obtain ⟨hcursor, hrows⟩ := Prod.ext_iff.mp hbooks
    obtain ⟨rest, hrest⟩ : ∃ rest, w.known exId = status :: rest :=
      ⟨_, List.filterMap_cons_some (f := fun d : Dict String AccountReport => d.find? exId) hseen⟩
    have hstatus : status ∈ w.known exId := by
      rw [hrest]
      exact List.mem_cons_self
    have hvisits : (w.step .ingest).visits exId = w.visits exId ++ [status.totalTrades] := by
      change w.visits exId ++ ((w.bot.accounts.find? exId).map _).toList = _
      rw [hseen, Option.map_some, Option.toList_some]
    have hordered := h.ordered
    rw [hrest, List.map_cons, List.append_assoc, List.cons_append] at hordered
    have hbefore : ∀ visit ∈ w.visits exId, visit ≤ status.totalTrades :=
      fun visit hvisit => (List.pairwise_append.mp hordered).2.2 visit hvisit _ List.mem_cons_self
    constructor
    · exact h.counted
    · intro status' hstatus'
      rw [hknown] at hstatus'
      exact h.shown status' hstatus'
    · rw [hknown, hvisits, hrest, List.map_cons, List.append_assoc, List.cons_append]
      exact pairwise_le_repeat hordered
    · have hlast : (w.visits exId).getLast?.getD 0 ≤ status.totalTrades := by
        cases hlast : (w.visits exId).getLast? with
        | none => exact Nat.zero_le _
        | some before => exact hbefore before (List.mem_of_getLast? hlast)
      rw [hvisits, List.getLast?_concat]
      refine hcursor.trans (congrArg some ?_)
      change max ((w.bot.closedCursor.find? exId).getD 0) _ = _
      rw [h.cursor, max_eq_right hlast]
    · rw [hvisits]
      refine hrows.trans ?_
      change w.bot.rowsOf exId ++
        TradeIngest.newRows exId (w.bot.closedCursor.find? exId) status = _
      rw [h.rows, h.cursor]
      exact h.takes hstatus hbefore

/-! ### Sessions -/

/-- Every event but a restart of the simulator follows the exchanges. -/
theorem Followed.step (h : w.Followed exId) {event : Event} (hevent : event ≠ .restart) :
    (w.step event).Followed exId := by
  cases event with
  | account exId' event => exact h.account exId' event
  | send => exact h.send
  | receive => exact h.receive
  | disconnect => exact h.disconnect
  | ingest => exact h.ingest
  | restart => exact absurd rfl hevent

theorem followed_run (exchanges : List String) {events : List Event}
    (hsession : Event.restart ∉ events) (exId : String) :
    (run step (init exchanges) events).Followed exId := by
  have hstep : ∀ (w : AccountFeed) (event : Event), w.Followed exId → event ≠ .restart →
      (w.step event).Followed exId := fun w event hw hevent => hw.step hevent
  apply run_invariant_of_along _ hstep (followed_init exchanges exId)
  rw [along_input_iff]
  rintro event hevent rfl
  exact hsession hevent

theorem agrees_run (exchanges : List String) (events : List Event) :
    (run step (init exchanges) events).bot.Agrees := by
  have hstep : ∀ (w : AccountFeed) (event : Event), w.bot.Agrees → (w.step event).bot.Agrees := by
    intro w event hw
    cases event with
    | account exId event =>
      cases hfind : w.servers.find? exId with
      | none =>
        simp only [step, hfind]
        exact hw
      | some server =>
        simp only [step, hfind]
        exact hw
    | send => exact hw
    | receive =>
      cases hlink : w.link with
      | nil =>
        simp only [step, hlink]
        exact hw
      | cons message rest =>
        simp only [step, hlink]
        exact ⟨hw.logged, hw.tracked⟩
    | disconnect => exact hw
    | ingest => exact hw.ingestClosedTrades
    | restart => exact hw
  exact run_invariant hstep events ⟨rfl, rfl⟩

/-- While the simulator runs, the rows of an exchange are, in order and once each, the trades that
closed after what one call was shown and were among the last twenty in what the next call was
shown. -/
theorem ingested_once (exchanges : List String) (events : List Event) (hsession : Event.restart ∉ events) :
    let w := run step (init exchanges) events
    w.bot.tradeLogger = w.bot.db ∧ w.bot.tracker = PerformanceTracker.recordAll w.bot.db ∧
      ∀ exId, ∃ positions : List ℕ, positions.Pairwise (· < ·) ∧
        (∀ p, p ∈ positions ↔
          TakenBetween ClosingAccount.reportedTrades (w.visits exId) p) ∧
        (∀ p ∈ positions, p < (w.history exId).length) ∧
        w.bot.rowsOf exId = positions.filterMap fun p => (w.history exId)[p]? := by
  intro w
  have hagrees : w.bot.Agrees := agrees_run exchanges events
  refine ⟨hagrees.logged, hagrees.tracked, ?_⟩
  intro exId
  have hfollowed : w.Followed exId := followed_run exchanges hsession exId
  refine ⟨takenPositions ClosingAccount.reportedTrades (w.visits exId), ?_, ?_, ?_, ?_⟩
  · exact pairwise_takenPositions _ hfollowed.visits_ordered
  · exact mem_takenPositions _ _
  · intro p hp
    exact lt_of_mem_takenPositions (fun visit hvisit => hfollowed.visit_le hvisit) hp
  · exact hfollowed.rows

def unitTrade (closedAt : ℤ) : TradeRecord where
  trade := {
    symbol := "BTC/USDT"
    exchange := "binance"
    side := .buy
    quantity := 1
    entryPrice := 100
    exitPrice := 101
    pnl := 1
    fee := 0
    reason := "MANUAL"
    openedAt := 0 }
  closedAt := closedAt

/-- Twenty-one closes between two calls. -/
def burst : List Event :=
  [.send, .receive, .ingest] ++
    (List.range 21).map (fun i => .account "binance" (.close (unitTrade i))) ++
      [.send, .receive, .ingest]

/-- A session with a burst. -/
theorem ingested_once_burst :
    let w := run step (init ["binance"]) burst
    w.bot.tradeLogger = w.bot.db ∧ w.bot.tracker = PerformanceTracker.recordAll w.bot.db ∧
      ∀ exId, ∃ positions : List ℕ, positions.Pairwise (· < ·) ∧
        (∀ p, p ∈ positions ↔
          TakenBetween ClosingAccount.reportedTrades (w.visits exId) p) ∧
        (∀ p ∈ positions, p < (w.history exId).length) ∧
        w.bot.rowsOf exId = positions.filterMap fun p => (w.history exId)[p]? :=
  ingested_once ["binance"] burst (by decide)

/-- All trades closed after the first call, and the second call does not record the first of
them. -/
theorem burst_loses_trade :
    let w := run step (init ["binance"]) burst
    w.visits "binance" = [0, 21] ∧ ∃ row ∈ w.history "binance", row ∉ w.bot.db := by
  decide +kernel

end AccountFeed

end TradingSim.Bot
