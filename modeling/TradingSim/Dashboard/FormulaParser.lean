import Mathlib.Algebra.Field.Rat
import Mathlib.Data.List.Chain
import Mathlib.Tactic.SplitIfs

/-!
# The formulas of the indicator panel

A formula is read by recursive descent, one function for each level of precedence and a loop for each
left-associative chain. Every function returns what it read with a derivation of it in the grammar, and a
derivation leads the functions through the tokens it covers. What is accepted is thus what the grammar derives.
-/

namespace TradingSim.Dashboard.Formula

/-- The operator characters. -/
inductive Operator
  | plus | minus | times | divide | openParen | closeParen
  deriving DecidableEq

/-- A token; a number that reads as `NaN` has no value. -/
inductive Token
  | num (value : Option ℚ)
  | op (value : Operator)
  | var (value : String)
  | func (value : String)
  | comma
  deriving DecidableEq

/-- A syntax tree. -/
inductive Node
  | num (value : Option ℚ)
  | var (name : String)
  | binop (op : Operator) (left right : Node)
  | func (name : String) (args : List Node)

/-- What a list of tokens may stand for. -/
inductive Phrase
  | sum (n : Node)
  | product (n : Node)
  | primary (n : Node)
  | arguments (ns : List Node)

/-- The character of an operator. -/
def Operator.symbol : Operator → Char
  | .plus => '+'
  | .minus => '-'
  | .times => '*'
  | .divide => '/'
  | .openParen => '('
  | .closeParen => ')'

/-- The keys of `ctx.vars`. -/
def variableNames : List String := ["closes", "highs", "lows", "volumes", "open"]

/-- The functions of the panel. -/
def listedFunctions : List String :=
  ["SMA", "EMA", "RSI", "ATR", "BB", "MACD", "MAX", "MIN", "ABS", "CROSS"]

/-- The names that `ctx.functions` inherits, each with a truthy value. -/
def inheritedNames : List String :=
  ["constructor", "toString", "toLocaleString", "valueOf", "hasOwnProperty", "isPrototypeOf",
    "propertyIsEnumerable", "__defineGetter__", "__defineSetter__", "__lookupGetter__", "__lookupSetter__",
    "__proto__"]

/-- The names at which `ctx.functions` has a truthy value. -/
def functionNames : List String := listedFunctions ++ inheritedNames

/-- The grammar of formulas, with any name the parser takes for a function. -/
inductive Derives : Phrase → List Token → Prop
  | product {n ts} : Derives (.product n) ts → Derives (.sum n) ts
  | addSub {l r op ts us} : op = .plus ∨ op = .minus → Derives (.sum l) ts →
      Derives (.product r) us → Derives (.sum (.binop op l r)) (ts ++ .op op :: us)
  | primary {n ts} : Derives (.primary n) ts → Derives (.product n) ts
  | mulDiv {l r op ts us} : op = .times ∨ op = .divide → Derives (.product l) ts →
      Derives (.primary r) us → Derives (.product (.binop op l r)) (ts ++ .op op :: us)
  | num value : Derives (.primary (.num value)) [.num value]
  | var {name} : name ∈ variableNames → Derives (.primary (.var name)) [.var name]
  | parens {n ts} : Derives (.sum n) ts →
      Derives (.primary n) (.op .openParen :: ts ++ [.op .closeParen])
  | call {name} : name ∈ functionNames →
      Derives (.primary (.func name [])) [.func name, .op .openParen, .op .closeParen]
  | callWith {name ns ts} : name ∈ functionNames → Derives (.arguments ns) ts →
      Derives (.primary (.func name ns)) (.func name :: .op .openParen :: ts ++ [.op .closeParen])
  | argument {n ts} : Derives (.sum n) ts → Derives (.arguments [n]) ts
  | arguments {n ns ts us} : Derives (.arguments ns) ts → Derives (.sum n) us →
      Derives (.arguments (ns ++ [n])) (ts ++ .comma :: us)

variable {p q : Phrase} {ts tokens mid rest after : List Token}

/-- A phrase has a first token, and it is no closing parenthesis. -/
theorem Derives.cons (h : Derives p ts) : ∃ t us, ts = t :: us ∧ t ≠ .op .closeParen := by
  induction h with
  | product _ ih | primary _ ih | argument _ ih => exact ih
  | addSub _ _ _ ih | mulDiv _ _ _ ih | arguments _ _ ih =>
    obtain ⟨t, us, rfl, ht⟩ := ih
    exact ⟨t, _, List.cons_append, ht⟩
  | num | var | parens | call | callWith => exact ⟨_, _, rfl, by simp⟩

/-- A phrase is read from the front of `tokens`, and `rest` is left. -/
def Reads (p : Phrase) (tokens rest : List Token) : Prop :=
  ∃ used, tokens = used ++ rest ∧ Derives p used

/-- From the front of `tokens` a phrase is extended to another one, and `rest` is left. -/
def Extends (p q : Phrase) (tokens rest : List Token) : Prop :=
  ∃ used, tokens = used ++ rest ∧ ∀ before, Derives p before → Derives q (before ++ used)

/-- What a parsing function returns: what it read and the tokens it left, or the text of an error. -/
abbrev Parsed {α : Type} (p : α → Phrase) (tokens : List Token) : Type :=
  Except String {x : α × List Token // Reads (p x.1) tokens x.2}

/-- What a loop returns. -/
abbrev Extended {α : Type} (p : α → Phrase) (start : α) (tokens : List Token) : Type :=
  Except String {x : α × List Token // Extends (p start) (p x.1) tokens x.2}

theorem Reads.length_lt (h : Reads p tokens rest) : rest.length < tokens.length := by
  obtain ⟨used, rfl, hused⟩ := h
  obtain ⟨t, us, rfl, -⟩ := hused.cons
  rw [List.length_append, List.length_cons]
  omega

theorem Reads.map (h : Reads p tokens rest) (hpq : ∀ {used}, Derives p used → Derives q used) : Reads q tokens rest :=
  h.imp fun _ hused => ⟨hused.1, hpq hused.2⟩

theorem Reads.extend (h : Reads p tokens mid) (hextends : Extends p q mid rest) : Reads q tokens rest := by
  obtain ⟨used, rfl, hused⟩ := h
  obtain ⟨more, rfl, hmore⟩ := hextends
  exact ⟨used ++ more, (List.append_assoc ..).symm, hmore used hused⟩

theorem Extends.refl (p : Phrase) (tokens : List Token) : Extends p p tokens tokens :=
  ⟨[], rfl, fun before h => by rwa [List.append_nil]⟩

/-- A loop goes on with a token and a phrase after it. -/
theorem Extends.step {r s : Phrase} {token : Token} (hread : Reads p tokens mid) (hextends : Extends q r mid rest)
    (hstep : ∀ {before used}, Derives s before → Derives p used → Derives q (before ++ token :: used)) :
    Extends s r (token :: tokens) rest := by
  obtain ⟨used, rfl, hused⟩ := hread
  obtain ⟨more, rfl, hmore⟩ := hextends
  refine ⟨token :: used ++ more, by simp, fun before hbefore => ?_⟩
  rw [← List.append_assoc]
  exact hmore _ (hstep hbefore hused)

/-- What stands between parentheses is read with the tokens before and after them. -/
theorem Reads.enclosed (front : List Token) (h : Reads p tokens rest) (hrest : rest = .op .closeParen :: after)
    (hpq : ∀ {used}, Derives p used → Derives q (front ++ used ++ [.op .closeParen])) :
    Reads q (front ++ tokens) after := by
  obtain ⟨used, rfl, hused⟩ := h
  exact ⟨front ++ used ++ [.op .closeParen], by simp [hrest], hpq hused⟩

/-- The operator that a loop goes on with, and the tokens after it. -/
def nextOperator (first second : Operator) :
    (tokens : List Token) →
      Option {x : Operator × List Token // tokens = .op x.1 :: x.2 ∧ (x.1 = first ∨ x.1 = second)}
  | .op op :: rest => if h : op = first ∨ op = second then some ⟨(op, rest), rfl, h⟩ else none
  | _ => none

/-- The tokens after an operator that has to come first. -/
def expect (op : Operator) : (tokens : List Token) → Option {rest : List Token // tokens = .op op :: rest}
  | .op op' :: rest => if h : op' = op then some ⟨rest, by rw [h]⟩ else none
  | _ => none

mutual

def parseAddSub (tokens : List Token) : Parsed .sum tokens := do
  let first ← parseMulDiv tokens
  let last ← addSubLoop first.1.1 first.1.2
  return ⟨last.1, (first.2.map .product).extend last.2⟩
termination_by (tokens.length, 3)
decreasing_by
  · exact .right _ (by decide)
  · exact .left _ _ first.2.length_lt

/-- The loop of `parseAddSub`. -/
def addSubLoop (result : Node) (tokens : List Token) : Extended .sum result tokens :=
  match nextOperator .plus .minus tokens with
  | none => return ⟨(result, tokens), .refl _ _⟩
  | some ⟨(op, rest), hnext⟩ => do
    let right ← parseMulDiv rest
    let last ← addSubLoop (.binop op result right.1.1) right.1.2
    return ⟨last.1, hnext.1 ▸ .step right.2 last.2 (.addSub hnext.2)⟩
termination_by (tokens.length, 0)
decreasing_by
  · exact .left _ _ (by simp [hnext.1])
  · exact .left _ _ (right.2.length_lt.trans (by simp [hnext.1]))

def parseMulDiv (tokens : List Token) : Parsed .product tokens := do
  let first ← parsePrimary tokens
  let last ← mulDivLoop first.1.1 first.1.2
  return ⟨last.1, (first.2.map .primary).extend last.2⟩
termination_by (tokens.length, 2)
decreasing_by
  · exact .right _ (by decide)
  · exact .left _ _ first.2.length_lt

/-- The loop of `parseMulDiv`. -/
def mulDivLoop (result : Node) (tokens : List Token) : Extended .product result tokens :=
  match nextOperator .times .divide tokens with
  | none => return ⟨(result, tokens), .refl _ _⟩
  | some ⟨(op, rest), hnext⟩ => do
    let right ← parsePrimary rest
    let last ← mulDivLoop (.binop op result right.1.1) right.1.2
    return ⟨last.1, hnext.1 ▸ .step right.2 last.2 (.mulDiv hnext.2)⟩
termination_by (tokens.length, 0)
decreasing_by
  · exact .left _ _ (by simp [hnext.1])
  · exact .left _ _ (right.2.length_lt.trans (by simp [hnext.1]))

def parsePrimary (tokens : List Token) : Parsed .primary tokens :=
  match tokens with
  | [] => throw "Unexpected end of expression"
  | .num value :: rest => return ⟨(.num value, rest), [_], rfl, .num value⟩
  | .var name :: rest =>
    if h : name ∈ variableNames then return ⟨(.var name, rest), [_], rfl, .var h⟩
    else throw ("Unknown variable: " ++ name)
  | .op .openParen :: rest => do
    let inner ← parseAddSub rest
    match expect .closeParen inner.1.2 with
    | none => throw "Missing closing parenthesis"
    | some ⟨after, hafter⟩ => return ⟨(inner.1.1, after), .enclosed [_] inner.2 hafter .parens⟩
  | .func name :: rest =>
    if hname : name ∈ functionNames then
      match expect .openParen rest with
      | none => throw ("Expected ( after " ++ name)
      | some ⟨inside, hinside⟩ =>
        match expect .closeParen inside with
        | some ⟨after, hafter⟩ =>
          return ⟨(.func name [], after), [_, _, _], by rw [hinside, hafter]; rfl, .call hname⟩
        | none =>
          if inside = [] then throw ("Missing ) for " ++ name)
          else do
            let args ← parseArguments inside
            match expect .closeParen args.1.2 with
            | none => throw ("Missing ) for " ++ name)
            | some ⟨after, hafter⟩ =>
              return ⟨(.func name args.1.1, after), hinside ▸ .enclosed [_, _] args.2 hafter (.callWith hname)⟩
    else throw ("Unknown function: " ++ name)
  | .op op :: _ => throw ("Unexpected token: " ++ op.symbol.toString)
  | .comma :: _ => throw "Unexpected token: ,"
termination_by (tokens.length, 1)
decreasing_by
  · exact .left _ _ (Nat.lt_succ_self _)
  · exact .left _ _ (by rw [hinside]; exact Nat.lt_succ_of_lt (Nat.lt_succ_self _))

/-- The arguments of a call. -/
def parseArguments (tokens : List Token) : Parsed .arguments tokens := do
  let first ← parseAddSub tokens
  let last ← argumentsLoop [first.1.1] first.1.2
  return ⟨last.1, (first.2.map .argument).extend last.2⟩
termination_by (tokens.length, 4)
decreasing_by
  · exact .right _ (by decide)
  · exact .left _ _ first.2.length_lt

/-- The loop of the arguments of a call. -/
def argumentsLoop (args : List Node) (tokens : List Token) : Extended .arguments args tokens :=
  match tokens with
  | .comma :: rest => do
    let next ← parseAddSub rest
    let last ← argumentsLoop (args ++ [next.1.1]) next.1.2
    return ⟨last.1, .step next.2 last.2 .arguments⟩
  | tokens => return ⟨(args, tokens), .refl _ _⟩
termination_by (tokens.length, 0)
decreasing_by
  · exact .left _ _ (Nat.lt_succ_self _)
  · exact .left _ _ (next.2.length_lt.trans (Nat.lt_succ_self _))

end

abbrev parseExpression (tokens : List Token) : Parsed .sum tokens := parseAddSub tokens

/-- A parsing function returns `y`. -/
def Returns {α : Type} {P : α → Prop} (x : Except String {y : α // P y}) (y : α) : Prop := ∃ h, x = .ok ⟨y, h⟩

variable {n r : Node} {ns : List Node} {op : Operator} {y : Node × List Token}

theorem Returns.bind {α β : Type} {P : α → Prop} {Q : β → Prop} {x : Except String {y : α // P y}}
    {f : {y : α // P y} → Except String {z : β // Q z}} {y : α} {z : β} (h : Returns x y)
    (hf : ∀ hy, Returns (f ⟨y, hy⟩) z) : Returns (x >>= f) z := by
  obtain ⟨hy, rfl⟩ := h
  exact hf hy

theorem returns_parseAddSub (h : Returns (parseMulDiv tokens) (n, mid))
    (hloop : Returns (addSubLoop n mid) y) : Returns (parseAddSub tokens) y := by
  rw [parseAddSub]
  exact h.bind fun _ => hloop.bind fun _ => ⟨_, rfl⟩

theorem returns_addSubLoop (h : nextOperator .plus .minus tokens = none) :
    Returns (addSubLoop n tokens) (n, tokens) := by
  rw [addSubLoop, h]
  exact ⟨_, rfl⟩

theorem returns_addSubLoop_cons (hop : op = .plus ∨ op = .minus)
    (h : Returns (parseMulDiv rest) (r, mid)) (hloop : Returns (addSubLoop (.binop op n r) mid) y) :
    Returns (addSubLoop n (.op op :: rest)) y := by
  rw [addSubLoop, nextOperator, dif_pos hop]
  exact h.bind fun _ => hloop.bind fun _ => ⟨_, rfl⟩

theorem returns_parseMulDiv (h : Returns (parsePrimary tokens) (n, mid))
    (hloop : Returns (mulDivLoop n mid) y) : Returns (parseMulDiv tokens) y := by
  rw [parseMulDiv]
  exact h.bind fun _ => hloop.bind fun _ => ⟨_, rfl⟩

theorem returns_mulDivLoop (h : nextOperator .times .divide tokens = none) :
    Returns (mulDivLoop n tokens) (n, tokens) := by
  rw [mulDivLoop, h]
  exact ⟨_, rfl⟩

theorem returns_mulDivLoop_cons (hop : op = .times ∨ op = .divide)
    (h : Returns (parsePrimary rest) (r, mid)) (hloop : Returns (mulDivLoop (.binop op n r) mid) y) :
    Returns (mulDivLoop n (.op op :: rest)) y := by
  rw [mulDivLoop, nextOperator, dif_pos hop]
  exact h.bind fun _ => hloop.bind fun _ => ⟨_, rfl⟩

theorem returns_parseArguments {y : List Node × List Token} (h : Returns (parseAddSub tokens) (n, mid))
    (hloop : Returns (argumentsLoop [n] mid) y) : Returns (parseArguments tokens) y := by
  rw [parseArguments]
  exact h.bind fun _ => hloop.bind fun _ => ⟨_, rfl⟩

theorem returns_argumentsLoop (h : ∀ rest, tokens ≠ .comma :: rest) :
    Returns (argumentsLoop ns tokens) (ns, tokens) := by
  rw [argumentsLoop.eq_2 ns tokens h]
  exact ⟨_, rfl⟩

theorem returns_argumentsLoop_cons {y : List Node × List Token} (h : Returns (parseAddSub rest) (n, mid))
    (hloop : Returns (argumentsLoop (ns ++ [n]) mid) y) : Returns (argumentsLoop ns (.comma :: rest)) y := by
  rw [argumentsLoop]
  exact h.bind fun _ => hloop.bind fun _ => ⟨_, rfl⟩

theorem expect_self : expect op (.op op :: rest) = some ⟨rest, rfl⟩ := dif_pos rfl

theorem expect_cons_of_ne {token : Token} (h : token ≠ .op op) : expect op (token :: rest) = none := by
  cases token with
  | op op' => exact dif_neg fun hop => h (congrArg _ hop)
  | _ => rfl

theorem returns_parsePrimary_func {name : String} (hname : name ∈ functionNames)
    (hclose : expect .closeParen tokens = none) (h : Returns (parseArguments tokens) (ns, .op .closeParen :: rest)) :
    Returns (parsePrimary (.func name :: .op .openParen :: tokens)) (.func name ns, rest) := by
  obtain ⟨hreads, h⟩ := h
  have hne : tokens ≠ [] := fun hnil => absurd hreads.length_lt (by simp [hnil])
  rw [parsePrimary, dif_pos hname]
  simp only [expect_self, hclose, if_neg hne, h]
  exact ⟨_, rfl⟩

/-- A derivation leads the parsing functions through the tokens it covers, whatever comes after them. -/
def Leads : Phrase → List Token → Prop
  | .sum n, ts => ∀ rest y, nextOperator .times .divide rest = none → Returns (addSubLoop n rest) y →
      Returns (parseAddSub (ts ++ rest)) y
  | .product n, ts => ∀ rest y, Returns (mulDivLoop n rest) y → Returns (parseMulDiv (ts ++ rest)) y
  | .primary n, ts => ∀ rest, Returns (parsePrimary (ts ++ rest)) (n, rest)
  | .arguments ns, ts => ∀ token rest y, nextOperator .times .divide (token :: rest) = none →
      nextOperator .plus .minus (token :: rest) = none → Returns (argumentsLoop ns (token :: rest)) y →
      Returns (parseArguments (ts ++ token :: rest)) y

theorem Derives.leads (h : Derives p ts) : Leads p ts := by
  induction h with
  | product _ ih =>
    intro rest y hrest hloop
    exact returns_parseAddSub (ih rest _ (returns_mulDivLoop hrest)) hloop
  | @addSub l r op ts us hop _ _ ihl ihr =>
    intro rest y hrest hloop
    rw [List.append_assoc]
    refine ihl _ y ?_ (returns_addSubLoop_cons hop (ihr rest _ (returns_mulDivLoop hrest)) hloop)
    rcases hop with rfl | rfl <;> rfl
  | primary _ ih => exact fun rest y hloop => returns_parseMulDiv (ih rest) hloop
  | mulDiv hop _ _ ihl ihr =>
    intro rest y hloop
    rw [List.append_assoc]
    exact ihl _ y (returns_mulDivLoop_cons hop (ihr rest) hloop)
  | num value =>
    intro rest
    rw [List.singleton_append, parsePrimary]
    exact ⟨_, rfl⟩
  | var hname =>
    intro rest
    rw [List.singleton_append, parsePrimary, dif_pos hname]
    exact ⟨_, rfl⟩
  | @parens n ts _ ih =>
    intro rest
    obtain ⟨_, hinner⟩ := ih (.op .closeParen :: rest) _ rfl (returns_addSubLoop rfl)
    rw [List.cons_append, List.cons_append, List.append_assoc, List.singleton_append, parsePrimary, hinner]
    exact ⟨_, rfl⟩
  | call hname =>
    intro rest
    rw [List.cons_append, parsePrimary, dif_pos hname]
    exact ⟨_, rfl⟩
  | @callWith name ns ts hname hargs ih =>
    intro rest
    have hloop : Returns (argumentsLoop ns (.op .closeParen :: rest)) _ := returns_argumentsLoop (by simp)
    have hclose : expect .closeParen (ts ++ .op .closeParen :: rest) = none := by
      obtain ⟨t, us, rfl, ht⟩ := hargs.cons
      exact expect_cons_of_ne ht
    rw [List.cons_append, List.cons_append, List.append_assoc, List.singleton_append]
    exact returns_parsePrimary_func hname hclose (ih _ rest _ rfl rfl hloop)
  | argument _ ih =>
    intro token rest y hmul hadd hloop
    exact returns_parseArguments (ih _ _ hmul (returns_addSubLoop hadd)) hloop
  | arguments _ _ ihs ih =>
    intro token rest y hmul hadd hloop
    rw [List.append_assoc]
    exact ihs .comma _ y rfl rfl (returns_argumentsLoop_cons (ih _ _ hmul (returns_addSubLoop hadd)) hloop)

/-- No variable stands before an opening parenthesis. -/
def Joined (ts : List Token) : Prop := ts.IsChain fun t u => (∃ name, t = .var name) → u ≠ .op .openParen

/-- Anything may follow a token that is no variable. -/
theorem Joined.cons {t : Token} (ht : ∀ name, t ≠ .var name) (h : Joined ts) : Joined (t :: ts) :=
  List.isChain_cons.mpr ⟨fun _ _ hvar => absurd hvar.choose_spec (ht _), h⟩

/-- A token that opens no parenthesis may follow anything. -/
theorem Joined.append {t : Token} {us : List Token} (ht : t ≠ .op .openParen) (h : Joined ts)
    (hus : Joined (t :: us)) : Joined (ts ++ t :: us) := by
  refine List.isChain_append.mpr ⟨h, hus, fun _ _ u hu _ => ?_⟩
  rw [List.head?_cons, Option.mem_some_iff] at hu
  exact hu ▸ ht

theorem Derives.joined (h : Derives p ts) : Joined ts := by
  have hclose : Joined [.op .closeParen] := List.isChain_singleton _
  induction h with
  | product _ ih | primary _ ih | argument _ ih => exact ih
  | addSub hop _ _ ihl ihr | mulDiv hop _ _ ihl ihr =>
    refine ihl.append ?_ (ihr.cons (by simp))
    rcases hop with rfl | rfl <;> simp
  | arguments _ _ ihs ih => exact ihs.append (by simp) (ih.cons (by simp))
  | num | var => exact List.isChain_singleton _
  | parens _ ih => exact (ih.append (by simp) hclose).cons (by simp)
  | call => exact (hclose.cons (by simp)).cons (by simp)
  | callWith _ _ ih => exact ((ih.append (by simp) hclose).cons (by simp)).cons (by simp)

/-! ## The tokenizer -/

/-- The characters of numbers. -/
def isNumeric (c : Char) : Bool := c.isDigit || c = '.'

/-- The characters a name begins with. -/
def isNameStart (c : Char) : Bool := c.isAlpha || c = '_'

/-- The characters of names. -/
def isNamePart (c : Char) : Bool := isNameStart c || c.isDigit

/-- The number that the digits stand for. -/
def digitsValue (digits : List Char) : ℕ := digits.foldl (fun value c => 10 * value + (c.toNat - 48)) 0

/-- `parseFloat` on a text of digits and points: the longest decimal literal at its front. -/
def parseFloat (text : List Char) : Option ℚ :=
  let whole := text.takeWhile Char.isDigit
  let fraction := ((text.dropWhile Char.isDigit).drop 1).takeWhile Char.isDigit
  if whole = [] ∧ fraction = [] then none
  else some (digitsValue (whole ++ fraction) / 10 ^ fraction.length)

/-- What one turn of the tokenizer's loop finds. -/
inductive Lexeme
  | space
  | op (value : Operator)
  | comma
  | num (text : List Char)
  | name (text : List Char)
  | stray (c : Char)
  deriving DecidableEq

/-- The operator of a character. -/
def Operator.ofChar? (c : Char) : Option Operator :=
  [plus, minus, times, divide, openParen, closeParen].find? (·.symbol = c)

/-- One turn of the loop of `tokenize`, with the characters that are left. -/
def nextLexeme (c : Char) (rest : List Char) : Lexeme × List Char :=
  if c = ' ' then (.space, rest)
  else match Operator.ofChar? c with
    | some op => (.op op, rest)
    | none =>
      if isNumeric c then (.num (c :: rest.takeWhile isNumeric), rest.dropWhile isNumeric)
      else if isNameStart c then (.name (c :: rest.takeWhile isNamePart), rest.dropWhile isNamePart)
      else if c = ',' then (.comma, rest)
      else (.stray c, rest)

theorem nextLexeme_length (c : Char) (rest : List Char) : (nextLexeme c rest).2.length < (c :: rest).length := by
  have hdrop (p : Char → Bool) : (rest.dropWhile p).length ≤ rest.length := (List.dropWhile_suffix p).length_le
  unfold nextLexeme
  split
  · grind
  split
  · grind
  split_ifs <;> grind

/-- The lexemes of a text. -/
def lexemes : List Char → List Lexeme
  | [] => []
  | c :: rest => (nextLexeme c rest).1 :: lexemes (nextLexeme c rest).2
termination_by expr => expr.length
decreasing_by exact nextLexeme_length c rest

/-- The tokens of lexemes. A name right before a parenthesis is a function; spaces and stray characters are
dropped. -/
def tokensOf : List Lexeme → List Token
  | [] => []
  | .space :: rest => tokensOf rest
  | .op op :: rest => .op op :: tokensOf rest
  | .comma :: rest => .comma :: tokensOf rest
  | .num text :: rest => .num (parseFloat text) :: tokensOf rest
  | .name text :: rest =>
    (if rest.head? = some (.op .openParen) then .func (String.ofList text) else .var (String.ofList text)) ::
      tokensOf rest
  | .stray _ :: rest => tokensOf rest

def tokenize (expr : List Char) : List Token := tokensOf (lexemes expr)

/-- What the panel makes of a formula. -/
def parseFormula (formula : String) : Except String Node := do
  let parsed ← parseExpression (tokenize formula.toList)
  if parsed.1.2 = [] then return parsed.1.1 else throw "Unexpected trailing tokens"

/-- The panel accepts what the grammar derives from the tokens of a formula. -/
theorem parseFormula_eq_ok_iff (formula : String) (n : Node) :
    parseFormula formula = .ok n ↔ Derives (.sum n) (tokenize formula.toList) := by
  unfold parseFormula
  constructor
  · intro h
    cases hparsed : parseExpression (tokenize formula.toList) with
    | error e => simp [hparsed, bind, Except.bind] at h
    | ok parsed =>
      obtain ⟨⟨m, rest⟩, used, hused, hderives⟩ := parsed
      rw [hparsed] at h
      change (if rest = [] then Except.ok m else Except.error _) = _ at h
      split_ifs at h with hrest
      cases h
      rw [hused]
      change Derives _ (used ++ rest)
      rwa [hrest, List.append_nil]
  · intro h
    have hreturns := h.leads [] _ rfl (returns_addSubLoop rfl)
    rw [List.append_nil] at hreturns
    obtain ⟨_, hparsed⟩ := hreturns
    rw [parseExpression, hparsed]
    rfl

/-! ## The texts of formulas -/

def Lexeme.text : Lexeme → List Char
  | .space => [' ']
  | .op op => [op.symbol]
  | .comma => [',']
  | .num text => text
  | .name text => text
  | .stray c => [c]

/-- A number is a decimal literal, a name an identifier, and the grammar has no stray characters. -/
def Lexeme.WellFormed : Lexeme → Prop
  | .num text => text ≠ [] ∧ (∀ c ∈ text, isNumeric c) ∧ text.count '.' ≤ 1 ∧ text ≠ ['.']
  | .name text => ∃ c rest, text = c :: rest ∧ isNameStart c ∧ ∀ c ∈ rest, isNamePart c
  | .stray _ => False
  | _ => True

/-- The characters that would go on with a lexeme. -/
def Lexeme.continues : Lexeme → Char → Bool
  | .num _ => isNumeric
  | .name _ => isNamePart
  | _ => fun _ => false

/-- Well-formed lexemes, none of which goes on with what comes after it. -/
def Separated : List Lexeme → Prop
  | [] => True
  | l :: ls => l.WellFormed ∧ (∀ c ∈ (ls.flatMap Lexeme.text).head?, ¬l.continues c) ∧ Separated ls

/-- The functions of the tokens are the panel's. -/
def Listed (ts : List Token) : Prop := ∀ name, .func name ∈ ts → name ∈ listedFunctions

/-- The formula is a printing of the tree: the lexemes of a derivation with the panel's functions, and spaces
between them. -/
def Prints (n : Node) (formula : String) : Prop :=
  ∃ ls, Separated ls ∧ formula.toList = ls.flatMap Lexeme.text ∧
    Derives (.sum n) (tokensOf (ls.filter (· ≠ .space))) ∧ Listed (tokensOf (ls.filter (· ≠ .space)))

/-- The formula is accepted with the trees it prints, and with no other. -/
def AcceptsGrammar (formula : String) : Prop := ∀ n, parseFormula formula = .ok n ↔ Prints n formula

theorem Operator.ofChar?_eq_none {p : Char → Bool} {c : Char} (hp : ∀ op : Operator, p op.symbol = false)
    (hc : p c) : Operator.ofChar? c = none := by
  rw [Operator.ofChar?, List.find?_eq_none]
  rintro op - hop
  rw [← of_decide_eq_true hop, hp] at hc
  cases hc

/-- A run of characters ends where the next one does not belong to it. -/
theorem takeWhile_append_boundary {p : Char → Bool} {text cs : List Char} (h : ∀ c ∈ text, p c)
    (hcs : ∀ c ∈ cs.head?, ¬p c) : (text ++ cs).takeWhile p = text ∧ (text ++ cs).dropWhile p = cs := by
  rw [List.takeWhile_append_of_pos h, List.dropWhile_append_of_pos h]
  cases cs with
  | nil => simp
  | cons c cs => simp_all

/-- The letters and the underscore come after the digits and the point. -/
theorem not_isNumeric_of_isNameStart {c : Char} (hc : isNameStart c) : ¬isNumeric c := by
  intro hnumeric
  have hlow : 'A'.val ≤ c.val := by
    rcases Bool.or_eq_true_iff.mp hc with halpha | hunderscore
    · rcases Bool.or_eq_true_iff.mp halpha with hupper | hlower
      · exact (of_decide_eq_true hupper).1
      · exact UInt32.le_trans (by decide) (of_decide_eq_true (Bool.and_eq_true_iff.mp hlower).1)
    · rw [of_decide_eq_true hunderscore]
      decide
  have hhigh : c.val ≤ '9'.val := by
    rcases Bool.or_eq_true_iff.mp hnumeric with hdigit | hpoint
    · exact of_decide_eq_true (Bool.and_eq_true_iff.mp hdigit).2
    · rw [of_decide_eq_true hpoint]
      decide
  exact absurd (UInt32.le_trans hlow hhigh) (by decide)

/-- The tokenizer finds the lexeme that is printed first. -/
theorem nextLexeme_text {l : Lexeme} {cs : List Char} (hl : l.WellFormed) (hcs : ∀ c ∈ cs.head?, ¬l.continues c) :
    ∃ c rest, l.text ++ cs = c :: rest ∧ nextLexeme c rest = (l, cs) := by
  cases l with
  | space => exact ⟨_, _, rfl, rfl⟩
  | op op => exact ⟨_, _, rfl, by cases op <;> rfl⟩
  | comma => exact ⟨_, _, rfl, rfl⟩
  | num text =>
    obtain ⟨hne, hnumeric, -⟩ := hl
    obtain ⟨c, rest, rfl⟩ := List.exists_cons_of_ne_nil hne
    obtain ⟨hc, hrest⟩ := List.forall_mem_cons.mp hnumeric
    obtain ⟨htake, hdrop⟩ := takeWhile_append_boundary hrest hcs
    have hspace : c ≠ ' ' := by rintro rfl; cases hc
    refine ⟨c, rest ++ cs, rfl, ?_⟩
    rw [nextLexeme, if_neg hspace, Operator.ofChar?_eq_none (p := isNumeric) (by rintro ⟨⟩ <;> rfl) hc,
      htake, hdrop]
    exact if_pos hc
  | name text =>
    obtain ⟨c, rest, rfl, hc, hrest⟩ := hl
    obtain ⟨htake, hdrop⟩ := takeWhile_append_boundary hrest hcs
    have hspace : c ≠ ' ' := by rintro rfl; cases hc
    have hnumeric := not_isNumeric_of_isNameStart hc
    refine ⟨c, rest ++ cs, rfl, ?_⟩
    rw [nextLexeme, if_neg hspace, Operator.ofChar?_eq_none (p := isNameStart) (by rintro ⟨⟩ <;> rfl) hc,
      htake, hdrop]
    exact (if_neg hnumeric).trans (if_pos hc)
  | stray c => cases hl

theorem lexemes_flatMap_text {ls : List Lexeme} (h : Separated ls) :
    lexemes (ls.flatMap Lexeme.text) = ls ∧ ∀ l ∈ ls, l.WellFormed := by
  induction ls with
  | nil => simp [lexemes]
  | cons l ls ih =>
    obtain ⟨hl, hnext, hls⟩ := h
    obtain ⟨hlexemes, hwell⟩ := ih hls
    obtain ⟨c, rest, htext, hlexeme⟩ := nextLexeme_text hl hnext
    rw [List.flatMap_cons, htext, lexemes, hlexeme, hlexemes]
    exact ⟨rfl, List.forall_mem_cons.mpr ⟨hl, hwell⟩⟩

theorem text_nextLexeme (c : Char) (rest : List Char) :
    (nextLexeme c rest).1.text ++ (nextLexeme c rest).2 = c :: rest ∧
      ∀ c' ∈ (nextLexeme c rest).2.head?, ¬(nextLexeme c rest).1.continues c' := by
  have hdrop (p : Char → Bool) : ∀ c' ∈ (rest.dropWhile p).head?, ¬p c' := by
    intro c' hc'
    have hnot := List.head?_dropWhile_not p rest
    simp_all
  unfold nextLexeme
  split
  · simp_all [Lexeme.text, Lexeme.continues]
  split
  · rename_i op hop
    have hsymbol : op.symbol = c := of_decide_eq_true (List.find?_some hop :)
    simp [Lexeme.text, Lexeme.continues, hsymbol]
  split_ifs
  · exact ⟨congrArg (c :: ·) List.takeWhile_append_dropWhile, hdrop _⟩
  · exact ⟨congrArg (c :: ·) List.takeWhile_append_dropWhile, hdrop _⟩
  · simp_all [Lexeme.text, Lexeme.continues]
  · simp [Lexeme.text, Lexeme.continues]

theorem separated_lexemes (expr : List Char) (h : ∀ l ∈ lexemes expr, l.WellFormed) :
    Separated (lexemes expr) ∧ (lexemes expr).flatMap Lexeme.text = expr := by
  induction expr using lexemes.induct with
  | case1 => simp [lexemes, Separated]
  | case2 c rest ih =>
    rw [lexemes] at h ⊢
    obtain ⟨hl, hls⟩ := List.forall_mem_cons.mp h
    obtain ⟨hseparated, htext⟩ := ih hls
    obtain ⟨happend, hnext⟩ := text_nextLexeme c rest
    rw [List.flatMap_cons, htext]
    exact ⟨⟨hl, by rwa [htext], hseparated⟩, happend⟩

/-- Spaces matter only between a name and the parenthesis after it. -/
theorem tokensOf_filter {ls : List Lexeme} (h : Joined (tokensOf ls)) :
    tokensOf (ls.filter (· ≠ .space)) = tokensOf ls := by
  induction ls with
  | nil => rfl
  | cons l ls ih =>
    cases l with
    | space => exact ih h
    | stray c => exact ih h
    | op op => exact congrArg (_ :: ·) (ih h.tail)
    | comma => exact congrArg (_ :: ·) (ih h.tail)
    | num text => exact congrArg (_ :: ·) (ih h.tail)
    | name text =>
      have hls := ih h.tail
      have hhead : (ls.filter (· ≠ .space)).head? = some (.op .openParen) ↔ ls.head? = some (.op .openParen) := by
        rcases ls with _ | ⟨l, ls⟩
        · rfl
        by_cases hspace : l = .space
        · subst hspace
          refine ⟨fun hopen => ?_, fun hopen => by cases hopen⟩
          -- the space would stand between the name and the parenthesis
          obtain ⟨more, hmore⟩ := List.head?_eq_some_iff.mp hopen
          rw [hmore] at hls
          change Joined (.var _ :: tokensOf (.space :: ls)) at h
          rw [← hls] at h
          exact absurd rfl ((List.isChain_cons_cons.mp h).1 ⟨_, rfl⟩)
        · rw [List.filter_cons_of_pos (by simpa using hspace), List.head?_cons, List.head?_cons]
      change (if _ then _ else _) :: _ = (if _ then _ else _) :: _
      simp only [hhead, hls]

/-- A formula is accepted as the grammar wants it exactly if what the tokenizer makes of it has no skipped
character, malformed number or function that is not listed, and no name of a formula of the grammar is apart
from the parenthesis after it. -/
theorem acceptsGrammar_iff (formula : String) :
    AcceptsGrammar formula ↔
      ((∃ n, Derives (.sum n) (tokenize formula.toList)) →
        (∀ l ∈ lexemes formula.toList, l.WellFormed) ∧ Listed (tokenize formula.toList)) ∧
      ((∃ n, Prints n formula) → Joined (tokenize formula.toList)) := by
  constructor
  · intro h
    constructor
    · rintro ⟨n, hderives⟩
      obtain ⟨ls, hls, hformula, -, hlisted⟩ := (h n).mp ((parseFormula_eq_ok_iff formula n).mpr hderives)
      obtain ⟨hlexemes, hwell⟩ := lexemes_flatMap_text hls
      rw [tokenize, hformula, hlexemes] at hderives ⊢
      rw [tokensOf_filter hderives.joined] at hlisted
      exact ⟨hwell, hlisted⟩
    · rintro ⟨n, hprints⟩
      exact ((parseFormula_eq_ok_iff formula n).mp ((h n).mpr hprints)).joined
  · rintro ⟨hloose, hstrict⟩ n
    rw [parseFormula_eq_ok_iff]
    constructor
    · intro hderives
      obtain ⟨hwell, hlisted⟩ := hloose ⟨n, hderives⟩
      obtain ⟨hseparated, htext⟩ := separated_lexemes _ hwell
      refine ⟨_, hseparated, htext.symm, ?_⟩
      rw [tokensOf_filter hderives.joined]
      exact ⟨hderives, hlisted⟩
    · intro hprints
      have hjoined := hstrict ⟨n, hprints⟩
      obtain ⟨ls, hls, hformula, hderives, -⟩ := hprints
      rw [tokenize, hformula, (lexemes_flatMap_text hls).1] at hjoined ⊢
      rwa [tokensOf_filter hjoined] at hderives

/-- A method that every object inherits is taken for a function of the panel. -/
theorem not_acceptsGrammar_toString : ¬AcceptsGrammar "toString(closes)" := by
  intro h
  let ls : List Lexeme := [.name ['t', 'o', 'S', 't', 'r', 'i', 'n', 'g'], .op .openParen,
    .name ['c', 'l', 'o', 's', 'e', 's'], .op .closeParen]
  have hls : Separated ls := by
    refine ⟨⟨_, _, rfl, rfl, ?_⟩, ?_, trivial, ?_, ⟨_, _, rfl, rfl, ?_⟩, ?_, trivial, ?_, trivial⟩ <;>
      simp [isNamePart, isNameStart, Lexeme.continues, Lexeme.text, Operator.symbol]
  have htokens : tokenize "toString(closes)".toList =
      .func "toString" :: .op .openParen :: [.var "closes"] ++ [.op .closeParen] :=
    congrArg tokensOf (lexemes_flatMap_text hls).1
  have hcloses : Derives (.arguments [.var "closes"]) [.var "closes"] :=
    .argument (.product (.primary (.var (by decide))))
  have hderives : Derives (.sum (.func "toString" [.var "closes"])) (tokenize "toString(closes)".toList) := by
    rw [htokens]
    exact .product (.primary (.callWith (by decide) hcloses))
  have hlisted := (((acceptsGrammar_iff _).mp h).1 ⟨_, hderives⟩).2 "toString" (by rw [htokens]; decide)
  exact absurd hlisted (by decide)

end TradingSim.Dashboard.Formula
