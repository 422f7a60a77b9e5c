import Mathlib.Data.List.TakeWhile
import TradingSim.Bot.OrderExecutor
import TradingSim.Foundations.Buffers

/-!
# The frames that the executor sends

The executor prints each request into a buffer on its stack and hands as many bytes of it to the socket
as `snprintf` says that the text has. Its serialisers guard against long texts in different ways. Near
the end of a buffer an order loses its price, its brace or its date, and the other requests have no
guard: what they send may end in a zero byte or go on behind the buffer.

A name is printed up to its first zero character.
-/

namespace TradingSim.Bot

open Foundations
open Json (Token)

/-- The characters of a name up to a zero, as `%s` prints them. -/
def cString (s : String) : String := String.ofList (s.toList.takeWhile fun c => c.toNat ≠ 0)

/-- The text of an object's members without the closing brace. -/
def openText (members : List (String × Token)) : List UInt8 := utf8 ('{' :: Json.renderMembers members)

def objectText (members : List (String × Token)) : List UInt8 := openText members ++ utf8 ['}']

/-- What is handed to the socket: the request that is meant, the bytes, and the size of the buffer that
they are read from. -/
structure WireFrame where
  request : List (String × Token)
  bytes : List UInt8
  capacity : ℕ

/-- The frame is the text of its request and nothing from behind the buffer, and every name in it reads as
it is meant: nothing escapes a quote or a backslash. -/
def WireFrame.Complete (f : WireFrame) : Prop :=
  (f.bytes = objectText f.request ∧ f.bytes.length ≤ f.capacity) ∧ Json.MembersWellFormed f.request

/-- What a call hands to the socket one after the other, and what it returns. -/
structure Transmission where
  frames : List WireFrame := []
  returned : Bool := false

/-- Every frame is complete, and if none was sent the call says so. -/
def Transmission.OnlyComplete (t : Transmission) : Prop :=
  (∀ f ∈ t.frames, f.Complete) ∧ (t.frames = [] → t.returned = false)

namespace OrderExecutor

/-- The executor as its exchange's name is printed. -/
def printed (ex : OrderExecutor) : OrderExecutor := { ex with exchangeId := cString ex.exchangeId }

end OrderExecutor

/-- The order as its symbol is printed. -/
def OrderSubmission.printed (o : OrderSubmission) : OrderSubmission :=
  { o with signal := { o.signal with symbol := cString o.signal.symbol } }

namespace OrderExecutor

/-- The members of an order without an explicit kind, with its price. -/
def plainRequest (ex : OrderExecutor) (o : OrderSubmission) : List (String × Token) :=
  ex.plainMembers o ++ ((price? o).map fun price => ("price", printFixed 2 price)).toList

/-- The members of an order with an explicit kind, with its date. -/
def kindRequest (ex : OrderExecutor) (o : OrderSubmission) (kind : OrderKind) (limitPrice : ℚ)
    (expireNs : ℤ) : List (String × Token) :=
  ex.kindMembers o kind limitPrice ++
    if kind = .limitGtd ∧ 0 < expireNs then [("expire_ms", .int (expireNs.tdiv 1000000))] else []

/-- The members of a request to close a position. -/
def closeRequest (ex : OrderExecutor) (symbol : String) (nowMs : ℤ) : List (String × Token) := [
  ("type", .text "close_position"),
  ("exchange", .text ex.exchangeId),
  ("symbol", .text symbol),
  ("client_order_id", .text ("hft_close_" ++ symbol ++ "_" ++ toString nowMs))]

/-- The members of a request to cancel all orders. -/
def cancelRequest (ex : OrderExecutor) : List (String × Token) := [
  ("type", .text "cancel_all_orders"),
  ("exchange", .text ex.exchangeId)]

/-- The members of a leg of an arbitrage. -/
def legRequest (exchange symbol side role : String) (quantity : ℚ) (nowMs : ℤ) : List (String × Token) := [
  ("type", .text "order"),
  ("exchange", .text exchange),
  ("symbol", .text symbol),
  ("side", .text side),
  ("quantity", printFixed 8 quantity),
  ("order_type", .text "MARKET"),
  ("client_order_id", .text ("hft_arb_" ++ role ++ "_" ++ symbol ++ "_" ++ toString nowMs))]

/-- Hand the first bytes of a buffer to the socket, which may fail. -/
def transmit (request : List (String × Token)) (mem : Memory) (n capacity : ℕ) (fails : Bool) :
    Transmission where
  frames := [⟨request, mem.read n, capacity⟩]
  returned := !fails

/-- The end of `submit_order` without an explicit kind: the bytes that were printed are counted, the
brace is put behind them if there is room, and they are sent. -/
def closeAndTransmit (request : List (String × Token)) (mem : Memory) (n : ℕ) (fails : Bool) :
    Transmission :=
  if n = 0 then {}
  else if 512 ≤ n then {}
  else if n < 512 - 2 then
    transmit request ((mem.store n 125).store (n + 1) 0) (n + 1) 512 fails
  else transmit request mem n 512 fails

/-- `submit_order` without an explicit kind. -/
def writeOrder (ex : OrderExecutor) (mem : Memory) (o : OrderSubmission) (fails : Bool) : Transmission :=
  if !ex.connected then {}
  else if !o.signal.isActionable then {}
  else
    let (mem, n) := mem.snprintf 0 512 (openText (ex.printed.plainMembers o.printed))
    match price? o with
    | some price =>
      if 0 < n ∧ n < 512 - 32 then
        let (mem, added) := mem.snprintf n (512 - n)
          (utf8 (',' :: Json.renderMember ("price", printFixed 2 price)))
        closeAndTransmit (ex.plainRequest o) mem (n + added) fails
      else closeAndTransmit (ex.plainRequest o) mem n fails
    | none => closeAndTransmit (ex.plainRequest o) mem n fails

/-- The end of `submit_order` with an explicit kind: what was printed is sent with its brace if both
fit. -/
def braceAndTransmit (request : List (String × Token)) (mem : Memory) (n : ℕ) (fails : Bool) :
    Transmission :=
  if n = 0 ∨ 640 - 2 ≤ n then {}
  else transmit request ((mem.store n 125).store (n + 1) 0) (n + 1) 640 fails

/-- `submit_order` with an explicit kind, a limit price and an expiry. -/
def writeOrderOfKind (ex : OrderExecutor) (mem : Memory) (o : OrderSubmission) (kind : OrderKind)
    (limitPrice : ℚ) (expireNs : ℤ) (fails : Bool) : Transmission :=
  if kind = .market then ex.writeOrder mem o fails
  else if !ex.connected then {}
  else if !o.signal.isActionable then {}
  else
    let (mem, n) := mem.snprintf 0 640 (openText (ex.printed.kindMembers o.printed kind limitPrice))
    if kind = .limitGtd ∧ 0 < expireNs ∧ 0 < n ∧ n < 640 - 32 then
      let (mem, added) := mem.snprintf n (640 - n)
        (utf8 (',' :: Json.renderMember ("expire_ms", .int (expireNs.tdiv 1000000))))
      braceAndTransmit (ex.kindRequest o kind limitPrice expireNs) mem (n + added) fails
    else braceAndTransmit (ex.kindRequest o kind limitPrice expireNs) mem n fails

/-- `close_position` at a time in milliseconds. -/
def closePosition (ex : OrderExecutor) (mem : Memory) (symbol : String) (nowMs : ℤ) (fails : Bool) :
    Transmission :=
  if !ex.connected then {}
  else
    let (mem, n) := mem.snprintf 0 256 (objectText (ex.printed.closeRequest (cString symbol) nowMs))
    if n = 0 then {}
    else transmit (ex.closeRequest symbol nowMs) mem n 256 fails

def cancelAllOrders (ex : OrderExecutor) (mem : Memory) (fails : Bool) : Transmission :=
  if !ex.connected then {}
  else
    let (mem, n) := mem.snprintf 0 256 (objectText ex.printed.cancelRequest)
    if n = 0 then {}
    else transmit ex.cancelRequest mem n 256 fails

end OrderExecutor

/-- An arbitrage: the arguments of `execute_arbitrage` that its requests carry, and the time. -/
structure Arbitrage where
  symbol : String
  buyExchange : String
  sellExchange : String
  quantity : ℚ
  nowMs : ℤ

namespace Arbitrage

/-- The members of the purchase. -/
def buyLeg (a : Arbitrage) : List (String × Token) :=
  OrderExecutor.legRequest a.buyExchange a.symbol "BUY" "buy" a.quantity a.nowMs

/-- The members of the sale. -/
def sellLeg (a : Arbitrage) : List (String × Token) :=
  OrderExecutor.legRequest a.sellExchange a.symbol "SELL" "sell" a.quantity a.nowMs

/-- The members of the sale that undoes the purchase. -/
def unwindLeg (a : Arbitrage) : List (String × Token) :=
  OrderExecutor.legRequest a.buyExchange a.symbol "SELL" "unwind" a.quantity a.nowMs

/-- The arbitrage as its names are printed. -/
def printed (a : Arbitrage) : Arbitrage :=
  { a with
    symbol := cString a.symbol
    buyExchange := cString a.buyExchange
    sellExchange := cString a.sellExchange }

end Arbitrage

/-- Whether the socket fails to take the legs of an arbitrage. -/
structure LegFailures where
  buy : Bool := false
  sell : Bool := false

namespace OrderExecutor

/-- The sale that undoes the purchase, if it fits. -/
def unwindBuyLeg (mem : Memory) (a : Arbitrage) : List WireFrame :=
  let (mem, n) := mem.snprintf 0 384 (objectText a.printed.unwindLeg)
  if 0 < n ∧ n < 384 then [⟨a.unwindLeg, mem.read n, 384⟩] else []

/-- `execute_arbitrage`. The buffers of the legs are apart. -/
def executeArbitrage (ex : OrderExecutor) (buyMem sellMem unwindMem : Memory) (a : Arbitrage)
    (fails : LegFailures) : Transmission :=
  if !ex.connected then {}
  else
    let (buyMem, bn) := buyMem.snprintf 0 384 (objectText a.printed.buyLeg)
    let (sellMem, sn) := sellMem.snprintf 0 384 (objectText a.printed.sellLeg)
    if bn = 0 then {}
    else
      let buyFrame : WireFrame := ⟨a.buyLeg, buyMem.read bn, 384⟩
      if fails.buy then { frames := [buyFrame], returned := false }
      else if sn = 0 then
        { frames := buyFrame :: unwindBuyLeg unwindMem a, returned := false }
      else
        let sellFrame : WireFrame := ⟨a.sellLeg, sellMem.read sn, 384⟩
        if fails.sell then
          { frames := buyFrame :: sellFrame :: unwindBuyLeg unwindMem a, returned := false }
        else { frames := [buyFrame, sellFrame], returned := true }

end OrderExecutor

/-! ### Names -/

/-- A name that needs no escape is printed in full. -/
theorem cString_of_plain {s : String} (h : Json.Plain s) : cString s = s := by
  rw [cString, ← String.toList_inj, String.toList_ofList, List.takeWhile_eq_self_iff]
  intro c hc
  have hspace : ' ' ≤ c := by
    have hplain := h c hc
    simp only [Json.plain, decide_eq_true_eq] at hplain
    exact hplain.2.2
  have hcode : ' '.toNat ≤ c.toNat := hspace
  simp only [decide_eq_true_eq]
  have : ' '.toNat = 32 := rfl
  omega

theorem length_utf8_pos {cs : List Char} (h : cs ≠ []) : 0 < (utf8 cs).length := by
  obtain ⟨c, rest, rfl⟩ := List.exists_cons_of_ne_nil h
  simp [length_utf8, Char.utf8Size_pos]

/-- A name that is cut loses bytes. -/
theorem cString_eq_or_lt (s : String) :
    cString s = s ∨ (utf8 (cString s).toList).length < (utf8 s.toList).length := by
  have hsplit := List.takeWhile_append_dropWhile (p := fun c : Char => decide (c.toNat ≠ 0))
    (l := s.toList)
  have hsize := congrArg (fun cs => (utf8 cs).length) hsplit
  simp only [utf8_append, List.length_append] at hsize
  simp only [cString, String.toList_ofList]
  by_cases hrest : s.toList.dropWhile (fun c => decide (c.toNat ≠ 0)) = []
  · left
    rw [hrest, List.append_nil] at hsplit
    rw [hsplit, String.ofList_toList]
  · have hpos := length_utf8_pos hrest
    omega

/-! ### Texts of members -/

@[simp] theorem length_utf8_cons (c : Char) (cs : List Char) :
    (utf8 (c :: cs)).length = c.utf8Size + (utf8 cs).length := by
  simp [length_utf8]

@[simp] theorem length_utf8_append (cs ds : List Char) :
    (utf8 (cs ++ ds)).length = (utf8 cs).length + (utf8 ds).length := by
  simp [utf8_append]

theorem bytes_eq (members : List (String × Token)) : bytes members = (openText members).length :=
  (length_utf8 _).symm

/-- The bytes of a member and of the sign in front of it. -/
def memberBytes (member : String × Token) : ℕ := (utf8 (Json.renderMember member)).length + 1

/-- In front of each member stands one sign, the brace or a comma. -/
theorem length_openText {members : List (String × Token)} (hne : members ≠ []) :
    (openText members).length = (members.map memberBytes).sum := by
  have hbrace : Char.utf8Size '{' = 1 := by decide
  have hcomma : Char.utf8Size ',' = 1 := by decide
  have hmembers : (utf8 (Json.renderMembers members)).length + 1 = (members.map memberBytes).sum := by
    induction members with
    | nil => exact absurd rfl hne
    | cons member rest ih =>
      cases rest with
      | nil => simp [Json.renderMembers, memberBytes]
      | cons next rest =>
        have hrest := ih (List.cons_ne_nil _ _)
        simp only [Json.renderMembers, List.map_cons, List.sum_cons, length_utf8_append,
          length_utf8_cons, hcomma] at hrest ⊢
        rw [← hrest, memberBytes]
        omega
  rw [openText, length_utf8_cons, hbrace, ← hmembers, Nat.add_comm]

theorem length_objectText (members : List (String × Token)) :
    (objectText members).length = (openText members).length + 1 := by
  simp [objectText, show (utf8 ['}']).length = 1 by decide]

/-- A member is printed behind the others. -/
theorem openText_concat {members : List (String × Token)} (hne : members ≠ []) (member : String × Token) :
    openText (members ++ [member]) = openText members ++ utf8 (',' :: Json.renderMember member) := by
  have hmembers : Json.renderMembers (members ++ [member]) =
      Json.renderMembers members ++ ',' :: Json.renderMember member := by
    induction members with
    | nil => exact absurd rfl hne
    | cons first rest ih =>
      cases rest with
      | nil => simp [Json.renderMembers]
      | cons next rest =>
        have hrest := ih (List.cons_ne_nil _ _)
        simp only [List.cons_append, Json.renderMembers, List.append_assoc] at hrest ⊢
        rw [hrest]
  rw [openText, hmembers, openText, ← utf8_append, List.cons_append]

/-- A member as it is printed: in full, or with fewer bytes. -/
def Cut (printed full : String × Token) : Prop :=
  printed = full ∨ memberBytes printed < memberBytes full

theorem Cut.refl (member : String × Token) : Cut member member := .inl rfl

theorem cut_text (key front s back : String) :
    Cut (key, .text (front ++ cString s ++ back)) (key, .text (front ++ s ++ back)) := by
  obtain heq | hlt := cString_eq_or_lt s
  · rw [heq]
    exact .refl _
  · right
    simp only [memberBytes, Json.renderMember, Token.render, Json.quoted, String.toList_append,
      length_utf8_append, length_utf8_cons]
    omega

theorem cut_name (key s : String) : Cut (key, .text (cString s)) (key, .text s) := by
  have hcut := cut_text key "" s ""
  simpa only [String.empty_append, String.append_empty] using hcut

variable {printed full : List (String × Token)}

/-- Members are printed in full, or with fewer bytes. -/
theorem eq_or_length_lt (hcut : List.Forall₂ Cut printed full) :
    printed = full ∨ (openText printed).length < (openText full).length := by
  have hsum : printed = full ∨ (printed.map memberBytes).sum < (full.map memberBytes).sum := by
    induction hcut with
    | nil => exact .inl rfl
    | cons hmember hrest ih =>
      simp only [List.map_cons, List.sum_cons]
      rcases hmember with rfl | hmember
      · rcases ih with rfl | hlt
        · exact .inl rfl
        · right
          omega
      · right
        rcases ih with rfl | hlt
        · omega
        · omega
  by_cases hne : full = []
  · subst hne
    exact .inl (List.forall₂_nil_right_iff.mp hcut)
  · have hne' : printed ≠ [] := by
      rintro rfl
      exact hne (List.forall₂_nil_left_iff.mp hcut)
    rwa [length_openText hne, length_openText hne']

theorem objectText_eq_iff (hcut : List.Forall₂ Cut printed full) :
    objectText printed = objectText full ↔ printed = full := by
  constructor
  · intro htext
    have hlength := congrArg List.length htext
    simp only [length_objectText] at hlength
    exact (eq_or_length_lt hcut).resolve_right (by omega)
  · rintro rfl
    rfl

/-- A serialiser without a guard: the frame is complete exactly if the request is printed in full, reads
as it is meant and is shorter than the buffer. -/
theorem complete_snprintf_iff (hcut : List.Forall₂ Cut printed full) (mem : Memory) (capacity : ℕ) :
    (⟨full, (mem.snprintf 0 capacity (objectText printed)).1.read (objectText printed).length,
      capacity⟩ : WireFrame).Complete ↔
        (printed = full ∧ Json.MembersWellFormed full) ∧ (objectText full).length < capacity := by
  have hlast : (objectText printed).getLast? = some 125 := by
    simp [objectText, show utf8 ['}'] = [125] by decide]
  have hread := @Memory.read_snprintf_iff mem _ capacity _ hlast (by decide)
  rw [WireFrame.Complete, @and_right_comm (printed = full)]
  refine and_congr_left fun _ => ?_
  simp only [Memory.length_read]
  constructor
  · rintro ⟨hbytes, hinside⟩
    have hlength := congrArg List.length hbytes
    simp only [Memory.length_read, length_objectText] at hlength
    have heq := (eq_or_length_lt hcut).resolve_right (by omega)
    subst heq
    exact ⟨rfl, hread.mp ⟨hbytes, hinside⟩⟩
  · rintro ⟨rfl, hshort⟩
    exact hread.mpr hshort

/-! ### Requests -/

namespace OrderExecutor

variable {ex : OrderExecutor} {mem : Memory}

theorem cut_clientOrderId (key front s : String) (n : ℤ) :
    Cut (key, .text (front ++ cString s ++ "_" ++ toString n))
      (key, .text (front ++ s ++ "_" ++ toString n)) := by
  simpa only [String.append_assoc] using cut_text key front s ("_" ++ toString n)

theorem plain_id {front s : String} (hfront : Json.Plain front) (hs : Json.Plain s) (n : ℤ) :
    Json.Plain (front ++ s ++ "_" ++ toString n) := by
  have hsep : Json.Plain "_" := by decide
  exact ((hfront.append hs).append hsep).append (Json.plain_toString_int n)

theorem cut_plainMembers (ex : OrderExecutor) (o : OrderSubmission) :
    List.Forall₂ Cut (ex.printed.plainMembers o.printed) (ex.plainMembers o) :=
  .cons (.refl _) <| .cons (cut_name _ _) <| .cons (cut_name _ _) <| .cons (.refl _) <|
    .cons (.refl _) <| .cons (.refl _) <| .cons (.refl _) <| .cons (.refl _) <|
    .cons (cut_clientOrderId _ _ _ _) .nil

theorem cut_kindMembers (ex : OrderExecutor) (o : OrderSubmission) (kind : OrderKind) (limitPrice : ℚ) :
    List.Forall₂ Cut (ex.printed.kindMembers o.printed kind limitPrice)
      (ex.kindMembers o kind limitPrice) :=
  .cons (.refl _) <| .cons (cut_name _ _) <| .cons (cut_name _ _) <| .cons (.refl _) <|
    .cons (.refl _) <| .cons (.refl _) <| .cons (.refl _) <| .cons (.refl _) <| .cons (.refl _) <|
    .cons (.refl _) <| .cons (.refl _) <| .cons (cut_clientOrderId _ _ _ _) .nil

theorem cut_closeRequest (ex : OrderExecutor) (symbol : String) (nowMs : ℤ) :
    List.Forall₂ Cut (ex.printed.closeRequest (cString symbol) nowMs) (ex.closeRequest symbol nowMs) :=
  .cons (.refl _) <| .cons (cut_name _ _) <| .cons (cut_name _ _) <|
    .cons (cut_clientOrderId _ _ _ _) .nil

theorem cut_cancelRequest (ex : OrderExecutor) :
    List.Forall₂ Cut ex.printed.cancelRequest ex.cancelRequest :=
  .cons (.refl _) <| .cons (cut_name _ _) .nil

theorem cut_legRequest (exchange symbol side role : String) (quantity : ℚ) (nowMs : ℤ) :
    List.Forall₂ Cut (legRequest (cString exchange) (cString symbol) side role quantity nowMs)
      (legRequest exchange symbol side role quantity nowMs) :=
  .cons (.refl _) <| .cons (cut_name _ _) <| .cons (cut_name _ _) <| .cons (.refl _) <|
    .cons (.refl _) <| .cons (.refl _) <| .cons (cut_clientOrderId _ _ _ _) .nil

/-- The names of a request are printed in full and read as they are meant exactly if they need no
escape. -/
theorem printed_names_iff {first : String × Token} {exchangeKey symbolKey exchange symbol : String}
    {rest rest' : List (String × Token)} (hrest : cString symbol = symbol → rest' = rest)
    (hwell : Json.Plain exchange → Json.Plain symbol → Json.MembersWellFormed
      (first :: (exchangeKey, Token.text exchange) :: (symbolKey, Token.text symbol) :: rest)) :
    first :: (exchangeKey, Token.text (cString exchange)) :: (symbolKey, Token.text (cString symbol)) :: rest' =
        first :: (exchangeKey, Token.text exchange) :: (symbolKey, Token.text symbol) :: rest ∧
      Json.MembersWellFormed
        (first :: (exchangeKey, Token.text exchange) :: (symbolKey, Token.text symbol) :: rest) ↔
      Json.Plain exchange ∧ Json.Plain symbol := by
  constructor
  · rintro ⟨-, h⟩
    exact ⟨(h (exchangeKey, .text exchange) (by simp)).2, (h (symbolKey, .text symbol) (by simp)).2⟩
  · rintro ⟨hexchange, hsymbol⟩
    refine ⟨?_, hwell hexchange hsymbol⟩
    rw [cString_of_plain hexchange, cString_of_plain hsymbol, hrest (cString_of_plain hsymbol)]

variable {members : List (String × Token)} {o : OrderSubmission}

theorem printed_plainMembers_iff : (ex.printed.plainMembers o.printed = ex.plainMembers o ∧
    Json.MembersWellFormed (ex.plainMembers o)) ↔ Json.Plain ex.exchangeId ∧ Json.Plain o.signal.symbol :=
  printed_names_iff (fun hsymbol => by rw [OrderSubmission.printed, hsymbol]) wellFormed_plainMembers

variable {printed full : List (String × Token)} {kind : OrderKind}

theorem printed_kindMembers_iff {limitPrice : ℚ} :
    (ex.printed.kindMembers o.printed kind limitPrice = ex.kindMembers o kind limitPrice ∧
      Json.MembersWellFormed (ex.kindMembers o kind limitPrice)) ↔
        Json.Plain ex.exchangeId ∧ Json.Plain o.signal.symbol :=
  printed_names_iff (fun hsymbol => by rw [OrderSubmission.printed, hsymbol]) fun hexchange hsymbol =>
    wellFormed_kindMembers hexchange hsymbol kind limitPrice

theorem printed_closeRequest_iff {symbol : String} {nowMs : ℤ} :
    (ex.printed.closeRequest (cString symbol) nowMs = ex.closeRequest symbol nowMs ∧
      Json.MembersWellFormed (ex.closeRequest symbol nowMs)) ↔
        Json.Plain ex.exchangeId ∧ Json.Plain symbol := by
  refine printed_names_iff (fun hsymbol => by rw [hsymbol]) fun hexchange hsymbol => ?_
  have hfront : Json.Plain "hft_close_" := by decide
  have hid := plain_id hfront hsymbol nowMs
  refine .of_names_of_tokens (by simp only [List.map_cons, List.map_nil]; decide) ?_
  simp only [List.map_cons, List.map_nil, List.forall_mem_cons, Token.WellFormed]
  exact ⟨by decide, hexchange, hsymbol, hid, fun _ h => absurd h List.not_mem_nil⟩

theorem printed_cancelRequest_iff : (ex.printed.cancelRequest = ex.cancelRequest ∧
    Json.MembersWellFormed ex.cancelRequest) ↔ Json.Plain ex.exchangeId := by
  constructor
  · rintro ⟨-, h⟩
    exact (h ("exchange", .text ex.exchangeId) (by simp [cancelRequest])).2
  · intro hexchange
    refine ⟨by rw [printed, cString_of_plain hexchange],
      .of_names_of_tokens (by simp only [cancelRequest, List.map_cons, List.map_nil]; decide) ?_⟩
    simp only [cancelRequest, List.map_cons, List.map_nil, List.forall_mem_cons, Token.WellFormed]
    exact ⟨by decide, hexchange, fun _ h => absurd h List.not_mem_nil⟩

theorem printed_legRequest_iff {exchange symbol side role : String} {quantity : ℚ} {nowMs : ℤ}
    (hside : Json.Plain side) (hrole : Json.Plain ("hft_arb_" ++ role ++ "_")) :
    (legRequest (cString exchange) (cString symbol) side role quantity nowMs =
        legRequest exchange symbol side role quantity nowMs ∧
      Json.MembersWellFormed (legRequest exchange symbol side role quantity nowMs)) ↔
        Json.Plain exchange ∧ Json.Plain symbol := by
  refine printed_names_iff (fun hsymbol => by rw [hsymbol]) fun hexchange hsymbol => ?_
  have hid := plain_id hrole hsymbol nowMs
  refine .of_names_of_tokens (by simp only [List.map_cons, List.map_nil]; decide) ?_
  simp only [List.map_cons, List.map_nil, List.forall_mem_cons, Token.WellFormed, printFixed]
  exact ⟨by decide, hexchange, hsymbol, hside, by decide, by decide, hid,
    fun _ h => absurd h List.not_mem_nil⟩

/-! ### Orders -/

theorem bytes_concat (hne : members ≠ []) (member : String × Token) :
    bytes (members ++ [member]) = bytes members + (utf8 (',' :: Json.renderMember member)).length := by
  rw [bytes_eq, bytes_eq, openText_concat hne, List.length_append]

theorem bytes_pos (members : List (String × Token)) : 0 < bytes members := by
  rw [bytes_eq]
  exact length_utf8_pos (List.cons_ne_nil _ _)

theorem read_openText {capacity : ℕ} (hfits : bytes members < capacity) :
    (mem.snprintf 0 capacity (openText members)).1.read (bytes members) = openText members := by
  rw [bytes_eq] at hfits ⊢
  have hread := @Memory.read_snprintf mem [] (openText members) capacity rfl hfits
  simpa using hread

/-- A member that is printed behind the others in what is left of the buffer. -/
theorem read_concat {capacity : ℕ} (hne : members ≠ [])
    (member : String × Token) (hread : mem.read (bytes members) = openText members)
    (hfits : bytes (members ++ [member]) < capacity) :
    (mem.snprintf (bytes members) (capacity - bytes members)
        (utf8 (',' :: Json.renderMember member))).1.read (bytes (members ++ [member])) =
      openText (members ++ [member]) := by
  rw [bytes_concat hne] at hfits ⊢
  rw [openText_concat hne]
  rw [bytes_eq] at hread hfits ⊢
  exact Memory.read_snprintf hread (by omega)

/-- The brace and the zero byte that are written behind the members. -/
theorem read_brace (hread : mem.read (bytes members) = openText members) :
    ((mem.store (bytes members) 125).store (bytes members + 1) 0).read (bytes members + 1) =
      objectText members := by
  rw [Memory.read_store_of_le le_rfl, Memory.read_store, hread, objectText,
    show utf8 ['}'] = [125] by decide]

theorem utf8_text (members : List (String × Token)) (closed : Bool) :
    utf8 (WireOrder.text ⟨members, closed⟩) = if closed then objectText members else openText members := by
  cases closed
  · simp [WireOrder.text, openText]
  · simp [WireOrder.text, openText, objectText, ← utf8_append]

/-- What is sent of members that were printed. -/
theorem closeAndTransmit_eq {members request : List (String × Token)}
    (hread : bytes members < 512 → mem.read (bytes members) = openText members) (fails : Bool) :
    closeAndTransmit request mem (bytes members) fails = if 512 ≤ bytes members then {} else
        { frames := [⟨request, utf8 (WireOrder.text ⟨members, bytes members < 512 - 2⟩), 512⟩]
          returned := !fails } := by
  rw [closeAndTransmit, if_neg (bytes_pos members).ne', utf8_text]
  by_cases hlong : 512 ≤ bytes members
  · rw [if_pos hlong, if_pos hlong]
  · rw [if_neg hlong, if_neg hlong]
    have hbytes := hread (not_le.mp hlong)
    by_cases hroom : bytes members < 512 - 2
    · simp only [hroom, if_true, decide_true, transmit]
      rw [read_brace hbytes]
    · simp only [hroom, if_false, decide_false, transmit, hbytes, Bool.false_eq_true]

theorem plainMembers_ne_nil (ex : OrderExecutor) (o : OrderSubmission) : ex.plainMembers o ≠ [] :=
  List.cons_ne_nil _ _

theorem kindMembers_ne_nil (ex : OrderExecutor) (o : OrderSubmission) (kind : OrderKind)
    (limitPrice : ℚ) : ex.kindMembers o kind limitPrice ≠ [] :=
  List.cons_ne_nil _ _

/-- What is sent of an order with names as they are printed. -/
def framesOf (request : List (String × Token)) (capacity : ℕ) (fails : Bool) :
    Option WireOrder → Transmission
  | none => {}
  | some w => { frames := [⟨request, utf8 w.text, capacity⟩], returned := !fails }

theorem framesOf_submitOrder (hconnected : ex.connected = true)
    (hactionable : o.signal.isActionable = true) (request : List (String × Token)) (fails : Bool) :
    framesOf request 512 fails (ex.submitOrder o) = if 512 ≤ bytes (ex.orderMembers o) then {} else
        { frames := [⟨request,
            utf8 (WireOrder.text ⟨ex.orderMembers o, bytes (ex.orderMembers o) < 512 - 2⟩), 512⟩]
          returned := !fails } := by
  simp only [submitOrder, hconnected, hactionable, Bool.not_true, Bool.false_eq_true, if_false]
  split <;> rfl

/-- The buffer holds what `submit_order` sends of the names as they are printed. -/
theorem writeOrder_eq (ex : OrderExecutor) (mem : Memory) (o : OrderSubmission) (fails : Bool) :
    ex.writeOrder mem o fails =
      framesOf (ex.plainRequest o) 512 fails (ex.printed.submitOrder o.printed) := by
  by_cases hconnected : ex.connected = true
  swap
  · simp [writeOrder, submitOrder, printed, hconnected, framesOf]
  by_cases hactionable : o.signal.isActionable = true
  swap
  · simp [writeOrder, submitOrder, printed, OrderSubmission.printed, Signal.isActionable,
      hconnected, show o.signal.direction = .neutral by simpa [Signal.isActionable] using hactionable,
      framesOf]
  have hne := plainMembers_ne_nil ex.printed o.printed
  have hopen : bytes (ex.printed.plainMembers o.printed) < 512 →
      (mem.snprintf 0 512 (openText (ex.printed.plainMembers o.printed))).1.read
        (bytes (ex.printed.plainMembers o.printed)) =
          openText (ex.printed.plainMembers o.printed) := read_openText
  rw [@framesOf_submitOrder ex.printed o.printed hconnected hactionable]
  simp only [writeOrder, hconnected, hactionable, Bool.not_true, Bool.false_eq_true, if_false]
  rw [show (mem.snprintf 0 512 (openText (ex.printed.plainMembers o.printed))).2 =
    bytes (ex.printed.plainMembers o.printed) from (bytes_eq _).symm]
  have hsame : price? o.printed = price? o := rfl
  cases hprice : price? o with
  | none =>
    have hmembers : ex.printed.orderMembers o.printed = ex.printed.plainMembers o.printed := by
      simp [orderMembers, hsame, hprice]
    simp only [hmembers]
    exact closeAndTransmit_eq hopen fails
  | some price =>
    simp only [bytes_pos, true_and]
    by_cases hroom : bytes (ex.printed.plainMembers o.printed) < 512 - 32
    · have hmembers : ex.printed.orderMembers o.printed =
          ex.printed.plainMembers o.printed ++ [("price", printFixed 2 price)] := by
        simp [orderMembers, hsame, hprice, hroom]
      rw [if_pos hroom, hmembers]
      change closeAndTransmit _ _ (bytes (ex.printed.plainMembers o.printed) +
        (utf8 (',' :: Json.renderMember ("price", printFixed 2 price))).length) fails = _
      rw [← bytes_concat hne]
      exact closeAndTransmit_eq (fun hfits => read_concat hne _ (hopen (by omega)) hfits) fails
    · have hmembers : ex.printed.orderMembers o.printed = ex.printed.plainMembers o.printed := by
        simp [orderMembers, hsame, hprice, hroom]
      rw [if_neg hroom, hmembers]
      exact closeAndTransmit_eq hopen fails

theorem framesOf_submitOrderOfKind (hkind : kind ≠ .market)
    {limitPrice : ℚ} {expireNs : ℤ} (hconnected : ex.connected = true)
    (hactionable : o.signal.isActionable = true) (request : List (String × Token)) (fails : Bool) :
    framesOf request 640 fails (ex.submitOrderOfKind o kind limitPrice expireNs) =
      if 640 - 2 ≤ bytes (ex.expiringMembers o kind limitPrice expireNs) then {} else
        { frames := [⟨request, objectText (ex.expiringMembers o kind limitPrice expireNs), 640⟩]
          returned := !fails } := by
  simp only [submitOrderOfKind, hkind, hconnected, hactionable, Bool.not_true, Bool.false_eq_true,
    if_false]
  split
  · rfl
  · simp only [framesOf, utf8_text, if_true]

theorem braceAndTransmit_eq {members request : List (String × Token)}
    (hread : bytes members < 640 → mem.read (bytes members) = openText members) (fails : Bool) :
    braceAndTransmit request mem (bytes members) fails = if 640 - 2 ≤ bytes members then {}
      else { frames := [⟨request, objectText members, 640⟩], returned := !fails } := by
  simp only [braceAndTransmit, (bytes_pos members).ne', false_or]
  by_cases hlong : 640 - 2 ≤ bytes members
  · rw [if_pos hlong, if_pos hlong]
  · rw [if_neg hlong, if_neg hlong, transmit, read_brace (hread (by omega))]

theorem writeOrderOfKind_eq (hkind : kind ≠ .market) (ex : OrderExecutor)
    (mem : Memory) (o : OrderSubmission) (limitPrice : ℚ) (expireNs : ℤ) (fails : Bool) :
    ex.writeOrderOfKind mem o kind limitPrice expireNs fails =
      framesOf (ex.kindRequest o kind limitPrice expireNs) 640 fails
        (ex.printed.submitOrderOfKind o.printed kind limitPrice expireNs) := by
  by_cases hconnected : ex.connected = true
  swap
  · simp [writeOrderOfKind, submitOrderOfKind, printed, hconnected, hkind, framesOf]
  by_cases hactionable : o.signal.isActionable = true
  swap
  · simp [writeOrderOfKind, submitOrderOfKind, printed, OrderSubmission.printed, Signal.isActionable,
      hconnected, hkind, show o.signal.direction = .neutral by
        simpa [Signal.isActionable] using hactionable, framesOf]
  have hne := kindMembers_ne_nil ex.printed o.printed kind limitPrice
  have hopen : bytes (ex.printed.kindMembers o.printed kind limitPrice) < 640 →
      (mem.snprintf 0 640 (openText (ex.printed.kindMembers o.printed kind limitPrice))).1.read
        (bytes (ex.printed.kindMembers o.printed kind limitPrice)) =
          openText (ex.printed.kindMembers o.printed kind limitPrice) := read_openText
  rw [@framesOf_submitOrderOfKind ex.printed o.printed kind hkind limitPrice expireNs hconnected
    hactionable]
  simp only [writeOrderOfKind, hkind, hconnected, hactionable, Bool.not_true, Bool.false_eq_true,
    if_false]
  rw [show (mem.snprintf 0 640 (openText (ex.printed.kindMembers o.printed kind limitPrice))).2 =
    bytes (ex.printed.kindMembers o.printed kind limitPrice) from (bytes_eq _).symm]
  simp only [bytes_pos, true_and]
  by_cases hdate : kind = .limitGtd ∧ 0 < expireNs ∧
      bytes (ex.printed.kindMembers o.printed kind limitPrice) < 640 - 32
  · have hmembers : ex.printed.expiringMembers o.printed kind limitPrice expireNs =
        ex.printed.kindMembers o.printed kind limitPrice ++
          [("expire_ms", .int (expireNs.tdiv 1000000))] := if_pos hdate
    rw [if_pos hdate, hmembers]
    change braceAndTransmit _ _ (bytes (ex.printed.kindMembers o.printed kind limitPrice) +
      (utf8 (',' :: Json.renderMember ("expire_ms", .int (expireNs.tdiv 1000000)))).length) fails = _
    rw [← bytes_concat hne]
    exact braceAndTransmit_eq (fun hfits => read_concat hne _ (hopen (by omega)) hfits) fails
  · have hmembers : ex.printed.expiringMembers o.printed kind limitPrice expireNs =
        ex.printed.kindMembers o.printed kind limitPrice := if_neg hdate
    rw [if_neg hdate, hmembers]
    exact braceAndTransmit_eq hopen fails

/-! ### Complete frames -/

theorem memberBytes_pos (member : String × Token) : 0 < memberBytes member := Nat.succ_pos _

theorem bytes_append (hne : members ≠ []) (tail : List (String × Token)) :
    bytes (members ++ tail) = bytes members + (tail.map memberBytes).sum := by
  rw [bytes_eq, bytes_eq, length_openText hne, length_openText (by simp [hne]), List.map_append,
    List.sum_append]

theorem bytes_le_of_cut (hcut : List.Forall₂ Cut printed full)
    (hprinted : printed ≠ []) (hfull : full ≠ []) (tail : List (String × Token)) (kept : Prop)
    [Decidable kept] : bytes (printed ++ if kept then tail else []) ≤ bytes (full ++ tail) := by
  have hle : bytes printed ≤ bytes full := by
    rw [bytes_eq, bytes_eq]
    rcases eq_or_length_lt hcut with rfl | hlt
    · exact le_rfl
    · exact hlt.le
  rw [bytes_append hprinted, bytes_append hfull]
  split_ifs
  · omega
  · simp only [List.map_nil, List.sum_nil]
    omega

/-- The text is the request's exactly if the tail is kept and the names are printed in full. -/
theorem objectText_append_eq_iff
    (hcut : List.Forall₂ Cut printed full) (hprinted : printed ≠ []) (hfull : full ≠ [])
    (tail : List (String × Token)) (kept : Prop) [Decidable kept] :
    objectText (printed ++ if kept then tail else []) = objectText (full ++ tail) ↔
      (tail ≠ [] → kept) ∧ printed = full := by
  by_cases hkept : kept ∨ tail = []
  · have htail : (if kept then tail else []) = tail := by
      rcases hkept with hkept | rfl
      · exact if_pos hkept
      · exact ite_self []
    have hsame : List.Forall₂ Cut tail tail := List.forall₂_same.mpr fun member _ => Cut.refl member
    rw [htail, objectText_eq_iff (List.rel_append hcut hsame), List.append_left_inj]
    exact (and_iff_right fun hne => hkept.resolve_right hne).symm
  · rw [not_or] at hkept
    rw [if_neg hkept.1, List.append_nil]
    refine iff_of_false (fun htext => ?_) fun h => hkept.1 (h.1 hkept.2)
    have hle := bytes_le_of_cut hcut hprinted hfull [] True
    obtain ⟨member, rest, rfl⟩ := List.exists_cons_of_ne_nil hkept.2
    have hlength := congrArg List.length htext
    have hpos := memberBytes_pos member
    simp only [length_objectText, ← bytes_eq, bytes_append hfull, List.map_cons, List.sum_cons,
      ite_self, List.append_nil] at hlength hle
    omega

theorem wellFormed_append_iff {tail : List (String × Token)} (htail : Json.MembersWellFormed tail) :
    Json.MembersWellFormed (full ++ tail) ↔ Json.MembersWellFormed full := by
  rw [Json.MembersWellFormed, List.forall_mem_append]
  exact and_iff_left htail

/-- The price of an order without an explicit kind, as a member. -/
def priceTail (o : OrderSubmission) : List (String × Token) :=
  ((price? o).map fun price => ("price", printFixed 2 price)).toList

theorem orderMembers_eq (ex : OrderExecutor) (o : OrderSubmission) : ex.orderMembers o =
      ex.plainMembers o ++ if bytes (ex.plainMembers o) < 512 - 32 then priceTail o else [] := by
  unfold orderMembers priceTail
  cases price? o with
  | none => simp
  | some price => by_cases hroom : bytes (ex.plainMembers o) < 512 - 32 <;> simp [hroom]

theorem priceTail_ne_nil_iff : priceTail o ≠ [] ↔ (price? o).isSome := by
  unfold priceTail
  cases price? o <;> simp

theorem wellFormed_priceTail (o : OrderSubmission) : Json.MembersWellFormed (priceTail o) := by
  have hname : Json.Plain "price" := by decide
  intro member hmember
  obtain ⟨price, -, rfl⟩ := Option.map_eq_some_iff.mp (Option.mem_toList.mp hmember)
  exact ⟨hname, (by decide : 0 < 2)⟩

/-- An order without an explicit kind that is not sent because it is too long, or that is printed in
full with its price and its brace. -/
def PlainPrints (ex : OrderExecutor) (o : OrderSubmission) : Prop :=
  512 ≤ bytes (ex.printed.orderMembers o.printed) ∨
    bytes (ex.printed.orderMembers o.printed) < 512 - 2 ∧
      ((price? o).isSome → bytes (ex.printed.plainMembers o.printed) < 512 - 32) ∧
      Json.Plain ex.exchangeId ∧ Json.Plain o.signal.symbol

/-- An order with an explicit kind that is not sent because it is too long, or that is printed in full
with its date. -/
def KindPrints (ex : OrderExecutor) (o : OrderSubmission) (kind : OrderKind) (limitPrice : ℚ)
    (expireNs : ℤ) : Prop :=
  640 - 2 ≤ bytes (ex.printed.expiringMembers o.printed kind limitPrice expireNs) ∨
    (kind = .limitGtd ∧ 0 < expireNs →
      bytes (ex.printed.kindMembers o.printed kind limitPrice) < 640 - 32) ∧
      Json.Plain ex.exchangeId ∧ Json.Plain o.signal.symbol

theorem onlyComplete_singleton {f : WireFrame} {returned : Bool} :
    (⟨[f], returned⟩ : Transmission).OnlyComplete ↔ f.Complete := by
  simp [Transmission.OnlyComplete]

theorem onlyComplete_empty : ({} : Transmission).OnlyComplete := by
  simp [Transmission.OnlyComplete]

theorem writeOrder_onlyComplete_iff (o : OrderSubmission) (fails : Bool)
    (hconnected : ex.connected = true) (hactionable : o.signal.isActionable = true) :
    (ex.writeOrder mem o fails).OnlyComplete ↔ ex.PlainPrints o := by
  have hcut := cut_plainMembers ex o
  have hprinted := plainMembers_ne_nil ex.printed o.printed
  have hfull := plainMembers_ne_nil ex o
  have hmembers := orderMembers_eq ex.printed o.printed
  have hbytes : bytes (ex.printed.orderMembers o.printed) ≤ bytes (ex.plainRequest o) := by
    rw [hmembers]
    exact bytes_le_of_cut hcut hprinted hfull (priceTail o) _
  have htext : (objectText (ex.printed.orderMembers o.printed) = objectText (ex.plainRequest o) ∧
        Json.MembersWellFormed (ex.plainRequest o)) ↔
      ((price? o).isSome → bytes (ex.printed.plainMembers o.printed) < 512 - 32) ∧
        Json.Plain ex.exchangeId ∧ Json.Plain o.signal.symbol := by
    rw [hmembers, ← printed_plainMembers_iff, ← priceTail_ne_nil_iff, ← and_assoc]
    exact and_congr (objectText_append_eq_iff hcut hprinted hfull (priceTail o) _)
      (wellFormed_append_iff (wellFormed_priceTail o))
  rw [writeOrder_eq, @framesOf_submitOrder ex.printed o.printed hconnected hactionable, PlainPrints]
  by_cases hlong : 512 ≤ bytes (ex.printed.orderMembers o.printed)
  · simp [hlong, onlyComplete_empty]
  · rw [if_neg hlong, onlyComplete_singleton, WireFrame.Complete, and_right_comm, utf8_text]
    simp only [hlong, false_or, decide_eq_true_eq]
    by_cases hroom : bytes (ex.printed.orderMembers o.printed) < 512 - 2
    · simp only [hroom, if_true, htext, true_and, length_objectText, ← bytes_eq]
      exact and_iff_left (by omega)
    · simp only [hroom, if_false, false_and, iff_false]
      rintro ⟨⟨heq, -⟩, -⟩
      have hlength := congrArg List.length heq
      rw [length_objectText, ← bytes_eq, ← bytes_eq] at hlength
      omega

/-- The expiry of an order with an explicit kind, as a member. -/
def dateTail (kind : OrderKind) (expireNs : ℤ) : List (String × Token) :=
  if kind = .limitGtd ∧ 0 < expireNs then [("expire_ms", .int (expireNs.tdiv 1000000))] else []

theorem expiringMembers_eq (ex : OrderExecutor) (o : OrderSubmission) (kind : OrderKind)
    (limitPrice : ℚ) (expireNs : ℤ) : ex.expiringMembers o kind limitPrice expireNs =
      ex.kindMembers o kind limitPrice ++
        if bytes (ex.kindMembers o kind limitPrice) < 640 - 32 then dateTail kind expireNs else [] := by
  unfold expiringMembers dateTail
  by_cases hdate : kind = .limitGtd ∧ 0 < expireNs
  · by_cases hroom : bytes (ex.kindMembers o kind limitPrice) < 640 - 32
    · rw [if_pos ⟨hdate.1, hdate.2, hroom⟩, if_pos hroom, if_pos hdate]
    · rw [if_neg fun h => hroom h.2.2, if_neg hroom, List.append_nil]
  · rw [if_neg fun h => hdate ⟨h.1, h.2.1⟩, if_neg hdate, ite_self, List.append_nil]

theorem wellFormed_dateTail (kind : OrderKind) (expireNs : ℤ) :
    Json.MembersWellFormed (dateTail kind expireNs) := by
  have hname : Json.Plain "expire_ms" := by decide
  unfold dateTail
  split_ifs
  · exact List.forall_mem_singleton.mpr ⟨hname, trivial⟩
  · exact fun _ h => absurd h List.not_mem_nil

theorem dateTail_ne_nil_iff {expireNs : ℤ} :
    dateTail kind expireNs ≠ [] ↔ kind = .limitGtd ∧ 0 < expireNs := by
  simp [dateTail]

theorem writeOrderOfKind_onlyComplete_iff (o : OrderSubmission)
    (hkind : kind ≠ .market) (limitPrice : ℚ) (expireNs : ℤ) (fails : Bool)
    (hconnected : ex.connected = true) (hactionable : o.signal.isActionable = true) :
    (ex.writeOrderOfKind mem o kind limitPrice expireNs fails).OnlyComplete ↔
      ex.KindPrints o kind limitPrice expireNs := by
  have hcut := cut_kindMembers ex o kind limitPrice
  have hprinted := kindMembers_ne_nil ex.printed o.printed kind limitPrice
  have hfull := kindMembers_ne_nil ex o kind limitPrice
  have hmembers := expiringMembers_eq ex.printed o.printed kind limitPrice expireNs
  have htext : (objectText (ex.printed.expiringMembers o.printed kind limitPrice expireNs) =
        objectText (ex.kindRequest o kind limitPrice expireNs) ∧
          Json.MembersWellFormed (ex.kindRequest o kind limitPrice expireNs)) ↔
      (kind = .limitGtd ∧ 0 < expireNs →
          bytes (ex.printed.kindMembers o.printed kind limitPrice) < 640 - 32) ∧
        Json.Plain ex.exchangeId ∧ Json.Plain o.signal.symbol := by
    have hnames := @printed_kindMembers_iff ex o kind limitPrice
    rw [hmembers, ← hnames, ← dateTail_ne_nil_iff, ← and_assoc]
    exact and_congr (objectText_append_eq_iff hcut hprinted hfull (dateTail kind expireNs) _)
      (wellFormed_append_iff (wellFormed_dateTail kind expireNs))
  rw [writeOrderOfKind_eq hkind, KindPrints,
    @framesOf_submitOrderOfKind ex.printed o.printed kind hkind limitPrice expireNs hconnected
      hactionable]
  by_cases hlong : 640 - 2 ≤ bytes (ex.printed.expiringMembers o.printed kind limitPrice expireNs)
  · simp [hlong, onlyComplete_empty]
  · rw [if_neg hlong, onlyComplete_singleton, WireFrame.Complete, and_right_comm]
    simp only [hlong, false_or, htext, length_objectText, ← bytes_eq]
    exact and_iff_left (by omega)

/-- A request that is printed in full and has its closing brace inside the buffer. -/
theorem transmit_onlyComplete_iff
    (hcut : List.Forall₂ Cut printed full) (mem : Memory) (capacity : ℕ) (fails : Bool) :
    (if (objectText printed).length = 0 then {} else
        transmit full (mem.snprintf 0 capacity (objectText printed)).1 (objectText printed).length
          capacity fails : Transmission).OnlyComplete ↔
      (objectText full).length < capacity ∧ printed = full ∧ Json.MembersWellFormed full := by
  have hpos : (objectText printed).length ≠ 0 := by simp [length_objectText]
  rw [if_neg hpos, transmit, onlyComplete_singleton, complete_snprintf_iff hcut, and_comm]

/-- A request to close a position that is printed in full inside the buffer. -/
def ClosePrints (ex : OrderExecutor) (symbol : String) (nowMs : ℤ) : Prop :=
  (objectText (ex.closeRequest symbol nowMs)).length < 256 ∧ Json.Plain ex.exchangeId ∧ Json.Plain symbol

/-- A request to cancel all orders that is printed in full inside the buffer. -/
def CancelPrints (ex : OrderExecutor) : Prop :=
  (objectText ex.cancelRequest).length < 256 ∧ Json.Plain ex.exchangeId

theorem closePosition_onlyComplete_iff (symbol : String) (nowMs : ℤ) (fails : Bool)
    (hconnected : ex.connected = true) :
    (ex.closePosition mem symbol nowMs fails).OnlyComplete ↔ ex.ClosePrints symbol nowMs := by
  rw [ClosePrints, ← @printed_closeRequest_iff ex symbol nowMs,
    ← transmit_onlyComplete_iff (cut_closeRequest ex symbol nowMs) mem 256 fails]
  simp only [closePosition, hconnected, Bool.not_true, Bool.false_eq_true, if_false]
  rfl

theorem cancelAllOrders_onlyComplete_iff (fails : Bool) (hconnected : ex.connected = true) :
    (ex.cancelAllOrders mem fails).OnlyComplete ↔ ex.CancelPrints := by
  rw [CancelPrints, ← printed_cancelRequest_iff,
    ← transmit_onlyComplete_iff (cut_cancelRequest ex) mem 256 fails]
  simp only [cancelAllOrders, hconnected, Bool.not_true, Bool.false_eq_true, if_false]
  rfl

end OrderExecutor

namespace Arbitrage

/-- The sale can be printed in full inside its buffer, and reads as it is meant. -/
def SaleSerialises (a : Arbitrage) : Prop :=
  (objectText a.printed.sellLeg = objectText a.sellLeg ∧ Json.MembersWellFormed a.sellLeg) ∧
    (objectText a.sellLeg).length < 384

/-- Both legs are printed in full inside their buffers. -/
def Fits (a : Arbitrage) : Prop :=
  (objectText a.buyLeg).length < 384 ∧ (objectText a.sellLeg).length < 384 ∧
    Json.Plain a.buyExchange ∧ Json.Plain a.sellExchange ∧ Json.Plain a.symbol

end Arbitrage

namespace OrderExecutor

variable {ex : OrderExecutor} {a : Arbitrage}

theorem printed_buyLeg_iff : (a.printed.buyLeg = a.buyLeg ∧ Json.MembersWellFormed a.buyLeg) ↔
    Json.Plain a.buyExchange ∧ Json.Plain a.symbol := printed_legRequest_iff (by decide) (by decide)

theorem printed_sellLeg_iff : (a.printed.sellLeg = a.sellLeg ∧ Json.MembersWellFormed a.sellLeg) ↔
    Json.Plain a.sellExchange ∧ Json.Plain a.symbol := printed_legRequest_iff (by decide) (by decide)

theorem printed_unwindLeg_iff : (a.printed.unwindLeg = a.unwindLeg ∧ Json.MembersWellFormed a.unwindLeg) ↔
    Json.Plain a.buyExchange ∧ Json.Plain a.symbol := printed_legRequest_iff (by decide) (by decide)

theorem saleSerialises_iff : a.SaleSerialises ↔
    (objectText a.sellLeg).length < 384 ∧ Json.Plain a.sellExchange ∧ Json.Plain a.symbol := by
  have hcut := cut_legRequest a.sellExchange a.symbol "SELL" "sell" a.quantity a.nowMs
  rw [Arbitrage.SaleSerialises, and_comm, ← printed_sellLeg_iff]
  exact and_congr_right fun _ => and_congr_left fun _ => objectText_eq_iff hcut

/-- A leg as it is sent from its buffer. -/
def legFrame (mem : Memory) (printed full : List (String × Token)) : WireFrame :=
  ⟨full, (mem.snprintf 0 384 (objectText printed)).1.read (objectText printed).length, 384⟩

theorem buyFrame_complete_iff (mem : Memory) : (legFrame mem a.printed.buyLeg a.buyLeg).Complete ↔
        (Json.Plain a.buyExchange ∧ Json.Plain a.symbol) ∧ (objectText a.buyLeg).length < 384 := by
  rw [← printed_buyLeg_iff]
  exact complete_snprintf_iff
    (cut_legRequest a.buyExchange a.symbol "BUY" "buy" a.quantity a.nowMs) mem 384

theorem sellFrame_complete_iff (mem : Memory) : (legFrame mem a.printed.sellLeg a.sellLeg).Complete ↔
        (Json.Plain a.sellExchange ∧ Json.Plain a.symbol) ∧ (objectText a.sellLeg).length < 384 := by
  rw [← printed_sellLeg_iff]
  exact complete_snprintf_iff
    (cut_legRequest a.sellExchange a.symbol "SELL" "sell" a.quantity a.nowMs) mem 384

/-- The sale that undoes a purchase is sent only if it is printed inside its buffer. -/
theorem complete_of_mem_unwindBuyLeg {mem : Memory} {f : WireFrame} (hbuy : Json.Plain a.buyExchange)
    (hsymbol : Json.Plain a.symbol) (hf : f ∈ unwindBuyLeg mem a) : f.Complete := by
  have hprinted := printed_unwindLeg_iff.mpr ⟨hbuy, hsymbol⟩
  have hcut := cut_legRequest a.buyExchange a.symbol "SELL" "unwind" a.quantity a.nowMs
  have hcomplete := (complete_snprintf_iff hcut mem 384).mpr
  unfold unwindBuyLeg at hf
  dsimp only at hf
  split at hf
  · rename_i hfits
    rw [List.mem_singleton] at hf
    rw [hf]
    exact hcomplete ⟨hprinted, lt_of_eq_of_lt (congrArg (fun ms => (objectText ms).length)
      hprinted.1.symm) hfits.2⟩
  · cases hf

/-- The purchase is sent first; the sale and the sale that undoes the purchase may follow. -/
theorem frames_executeArbitrage (mem mem' mem'' : Memory) (fails : LegFailures)
    (hconnected : ex.connected = true) : legFrame mem a.printed.buyLeg a.buyLeg ∈
        (ex.executeArbitrage mem mem' mem'' a fails).frames ∧
      ∀ f ∈ (ex.executeArbitrage mem mem' mem'' a fails).frames,
        f = legFrame mem a.printed.buyLeg a.buyLeg ∨
          f = legFrame mem' a.printed.sellLeg a.sellLeg ∨ f ∈ unwindBuyLeg mem'' a := by
  have hsn : (mem'.snprintf 0 384 (objectText a.printed.sellLeg)).2 ≠ 0 := by
    simp [Memory.snprintf, length_objectText]
  have hbn : (mem.snprintf 0 384 (objectText a.printed.buyLeg)).2 ≠ 0 := by
    simp [Memory.snprintf, length_objectText]
  simp only [executeArbitrage, hconnected, Bool.not_true, Bool.false_eq_true, if_false, hsn, hbn]
  split_ifs
  · simp [legFrame, Memory.snprintf]
  · simp [legFrame, Memory.snprintf]
  · simp [legFrame, Memory.snprintf]

/-- The frames of an arbitrage are complete, and none is sent without the sale being serialisable,
exactly if both legs fit. -/
theorem executeArbitrage_onlyComplete_iff (mem mem' mem'' : Memory) (fails : LegFailures)
    (hconnected : ex.connected = true) : ((ex.executeArbitrage mem mem' mem'' a fails).OnlyComplete ∧
      ((ex.executeArbitrage mem mem' mem'' a fails).frames ≠ [] → a.SaleSerialises)) ↔ a.Fits := by
  obtain ⟨hsent, hframes⟩ := @frames_executeArbitrage ex a mem mem' mem'' fails hconnected
  rw [saleSerialises_iff, Arbitrage.Fits]
  constructor
  · rintro ⟨hcomplete, hsale⟩
    obtain ⟨hsellFits, hsellName, hsymbol⟩ := hsale (List.ne_nil_of_mem hsent)
    obtain ⟨⟨hbuyName, -⟩, hbuyFits⟩ := (buyFrame_complete_iff mem).mp (hcomplete.1 _ hsent)
    exact ⟨hbuyFits, hsellFits, hbuyName, hsellName, hsymbol⟩
  · rintro ⟨hbuyFits, hsellFits, hbuyName, hsellName, hsymbol⟩
    refine ⟨⟨fun f hf => ?_, fun hnone => ?_⟩, fun _ => ⟨hsellFits, hsellName, hsymbol⟩⟩
    · rcases hframes f hf with rfl | rfl | hunwind
      · exact (buyFrame_complete_iff mem).mpr ⟨⟨hbuyName, hsymbol⟩, hbuyFits⟩
      · exact (sellFrame_complete_iff mem').mpr ⟨⟨hsellName, hsymbol⟩, hsellFits⟩
      · exact complete_of_mem_unwindBuyLeg hbuyName hsymbol hunwind
    · rw [hnone] at hsent
      cases hsent

end OrderExecutor

/-- A call that sends requests. -/
inductive ExecutorCall
  | order (o : OrderSubmission)
  | orderOfKind (o : OrderSubmission) (kind : OrderKind) (limitPrice : ℚ) (expireNs : ℤ)
  | close (symbol : String) (nowMs : ℤ)
  | cancelAll
  | arbitrage (a : Arbitrage)

namespace ExecutorCall

/-- What a call hands to the socket, given what its buffers hold before and which of its sends fail. -/
def run (ex : OrderExecutor) (mem : ℕ → Memory) (fails : ℕ → Bool) : ExecutorCall → Transmission
  | .order o => ex.writeOrder (mem 0) o (fails 0)
  | .orderOfKind o kind limitPrice expireNs =>
    ex.writeOrderOfKind (mem 0) o kind limitPrice expireNs (fails 0)
  | .close symbol nowMs => ex.closePosition (mem 0) symbol nowMs (fails 0)
  | .cancelAll => ex.cancelAllOrders (mem 0) (fails 0)
  | .arbitrage a => ex.executeArbitrage (mem 0) (mem 1) (mem 2) a ⟨fails 0, fails 1⟩

/-- Every frame is the whole text of the request that is meant, from inside the buffer; a call that sends
nothing says so; and an arbitrage sends nothing if its sale cannot be serialised. -/
def SendsComplete (ex : OrderExecutor) (mem : ℕ → Memory) (fails : ℕ → Bool) (c : ExecutorCall) : Prop :=
  (c.run ex mem fails).OnlyComplete ∧
    ∀ a, c = .arbitrage a → (c.run ex mem fails).frames ≠ [] → a.SaleSerialises

/-- The texts of a call are too long to be sent at all, where a guard says so, or are printed in full
inside their buffers. -/
def Fits (ex : OrderExecutor) : ExecutorCall → Prop
  | .order o => o.signal.isActionable → ex.PlainPrints o
  | .orderOfKind o kind limitPrice expireNs =>
    o.signal.isActionable →
      if kind = .market then ex.PlainPrints o else ex.KindPrints o kind limitPrice expireNs
  | .close symbol nowMs => ex.ClosePrints symbol nowMs
  | .cancelAll => ex.CancelPrints
  | .arbitrage a => a.Fits

/-- A call that is not connected, or has nothing to do, sends nothing. -/
theorem run_eq_empty {ex : OrderExecutor} (mem : ℕ → Memory) (fails : ℕ → Bool) {c : ExecutorCall}
    (h : ex.connected = false) : c.run ex mem fails = {} := by
  cases c with
  | order o => simp [run, OrderExecutor.writeOrder, h]
  | orderOfKind o kind limitPrice expireNs =>
    simp [run, OrderExecutor.writeOrderOfKind, OrderExecutor.writeOrder, h]
  | close symbol nowMs => simp [run, OrderExecutor.closePosition, h]
  | cancelAll => simp [run, OrderExecutor.cancelAllOrders, h]
  | arbitrage a => simp [run, OrderExecutor.executeArbitrage, h]

end ExecutorCall

end TradingSim.Bot
