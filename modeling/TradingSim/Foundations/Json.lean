import Mathlib.Algebra.Order.Field.Rat
import Mathlib.Tactic.FieldSimp
import Mathlib.Tactic.Ring
import TradingSim.Foundations.DictDelta

/-!
# Flat JSON objects

A JSON object whose members are strings, numbers and truth values, as a program writes it with
format strings and as a decoder reads it back. A string is written as it stands, which is right for
characters that need no escape; a number is a decimal numeral without an exponent.

Reading what was written gives the members back.
-/

namespace Foundations

/-- A JSON value. Of a list or an object only its rendering is kept and whether it is empty. -/
inductive Json
  | null
  | bool (b : Bool)
  | int (n : ℤ)
  | decimal (x : ℚ)
  | nonFinite
  | text (s : String)
  | container (rendering : String) (isEmpty : Bool)
  deriving DecidableEq

namespace Json

/-- What a writer puts down for a member's value. -/
inductive Token
  | text (s : String)
  | bool (b : Bool)
  | int (n : ℤ)
  /-- A numeral with a number of decimals: the digits are those of `scaled`. -/
  | fixed (negative : Bool) (scaled places : ℕ)
  deriving DecidableEq

/-- A character that stands for itself inside a JSON string. -/
def plain (c : Char) : Bool := c ≠ '"' ∧ c ≠ '\\' ∧ ' ' ≤ c

/-- A text whose characters stand for themselves. -/
def Plain (s : String) : Prop := ∀ c ∈ s.toList, plain c

instance (s : String) : Decidable (Plain s) := List.decidableBAll (fun c => plain c) s.toList

/-- A sign as it is written. -/
def sign (negative : Bool) : List Char := if negative then ['-'] else []

/-- The value of a numeral with a sign. -/
def signed {α : Type*} [Neg α] (negative : Bool) (x : α) : α := if negative then -x else x

/-- A text between quotes. -/
def quoted (s : String) : List Char := '"' :: (s.toList ++ ['"'])

namespace Token

/-- The characters of a token. -/
def render : Token → List Char
  | .text s => quoted s
  | .bool b => if b then "true".toList else "false".toList
  | .int n => sign (n < 0) ++ Nat.toDigits 10 n.natAbs
  | .fixed negative scaled places =>
    sign negative ++ (Nat.toDigits 10 (scaled / 10 ^ places) ++
      '.' :: List.leftpad places '0' (Nat.toDigits 10 (scaled % 10 ^ places)))

/-- The value that a decoder gives a token. -/
def value : Token → Json
  | .text s => .text s
  | .bool b => .bool b
  | .int n => .int n
  | .fixed negative scaled places => .decimal (signed negative ((scaled : ℚ) / 10 ^ places))

/-- Strings are plain, and a numeral with a point has decimals after it. -/
def WellFormed : Token → Prop
  | .text s => Plain s
  | .fixed _ _ places => 0 < places
  | _ => True

end Token

/-- A member as it is written. -/
def renderMember (member : String × Token) : List Char :=
  quoted member.1 ++ ':' :: member.2.render

/-- Members as they are written one after another. -/
def renderMembers : List (String × Token) → List Char
  | [] => []
  | [member] => renderMember member
  | member :: rest => renderMember member ++ ',' :: renderMembers rest

/-- Read a string up to its closing quote. -/
def readText (cs : List Char) : Option (String × List Char) :=
  match cs.dropWhile plain with
  | '"' :: rest => some (String.ofList (cs.takeWhile plain), rest)
  | _ => none

/-- Read a numeral without a sign: a zero stands in front of the point or nowhere in front. -/
def readNumeral (negative : Bool) (cs : List Char) : Option (Json × List Char) :=
  let whole := cs.takeWhile Char.isDigit
  if whole = [] ∨ whole.head? = some '0' ∧ whole ≠ ['0'] then none
  else
    match cs.dropWhile Char.isDigit with
    | '.' :: rest =>
      let fraction := rest.takeWhile Char.isDigit
      if fraction = [] then none
      else some (.decimal (signed negative
        ((Nat.ofDigitChars 10 (whole ++ fraction) 0 : ℚ) / 10 ^ fraction.length)),
        rest.dropWhile Char.isDigit)
    | rest => some (.int (signed negative (Nat.ofDigitChars 10 whole 0 : ℤ)), rest)

def readValue : List Char → Option (Json × List Char)
  | '"' :: cs => (readText cs).map fun read => (.text read.1, read.2)
  | 't' :: 'r' :: 'u' :: 'e' :: cs => some (.bool true, cs)
  | 'f' :: 'a' :: 'l' :: 's' :: 'e' :: cs => some (.bool false, cs)
  | 'n' :: 'u' :: 'l' :: 'l' :: cs => some (.null, cs)
  | '-' :: cs => readNumeral true cs
  | cs => readNumeral false cs

def readMember : List Char → Option ((String × Json) × List Char)
  | '"' :: cs =>
    (readText cs).bind fun key =>
      match key.2 with
      | ':' :: rest => (readValue rest).map fun read => ((key.1, read.1), read.2)
      | _ => none
  | _ => none

/-- Read members up to the closing brace, at most as many as the fuel. -/
def readMembers : ℕ → List Char → Option (List (String × Json))
  | 0, _ => none
  | fuel + 1, cs =>
    (readMember cs).bind fun read =>
      match read.2 with
      | ',' :: rest => (readMembers fuel rest).map (read.1 :: ·)
      | ['}'] => some [read.1]
      | _ => none

/-- Read an object without white space between its tokens. A later member of a name wins. -/
def readObject : List Char → Option (Dict String Json)
  | ['{', '}'] => some Dict.empty
  | '{' :: cs => (readMembers cs.length cs).map (Dict.ofList Prod.fst Prod.snd)
  | _ => none

/-- What may come after a member: another one, the closing brace, or nothing more. -/
def Follows (rest : List Char) : Prop := rest = [] ∨ ∃ cs, rest = ',' :: cs ∨ rest = '}' :: cs

/-- A run of characters of a kind is read off a text that goes on with another one. -/
theorem takeWhile_append_cons {p : Char → Bool} {run : List Char} {c : Char} (rest : List Char)
    (hrun : ∀ a ∈ run, p a) (hc : p c = false) :
    (run ++ c :: rest).takeWhile p = run ∧ (run ++ c :: rest).dropWhile p = c :: rest := by
  rw [List.takeWhile_append_of_pos hrun, List.dropWhile_append_of_pos hrun]
  simp [hc]

/-- A run of digits is read off a text that goes on with a follower. -/
theorem takeWhile_digits {run rest : List Char} (hrun : ∀ a ∈ run, a.isDigit) (hrest : Follows rest) :
    (run ++ rest).takeWhile Char.isDigit = run ∧ (run ++ rest).dropWhile Char.isDigit = rest := by
  obtain rfl | ⟨cs, rfl | rfl⟩ := hrest
  · rw [List.takeWhile_append_of_pos hrun, List.dropWhile_append_of_pos hrun]
    simp
  · exact takeWhile_append_cons cs hrun rfl
  · exact takeWhile_append_cons cs hrun rfl

/-- A numeral starts with a zero only if it is the numeral of zero. -/
theorem head?_toDigits {n : ℕ} (hn : 0 < n) : (Nat.toDigits 10 n).head? ≠ some '0' := by
  induction n using Nat.strong_induction_on with
  | _ n ih =>
    rw [Nat.toDigits_eq_if (by omega)]
    split
    · simpa using hn.ne'
    · rename_i hge
      have hhigh := ih (n / 10) (by omega) (by omega)
      have hne : Nat.toDigits 10 (n / 10) ≠ [] :=
        List.ne_nil_of_length_pos Nat.length_toDigits_pos
      rwa [List.head?_append_of_ne_nil _ hne]

theorem not_leadingZero_toDigits (n : ℕ) : ¬ (Nat.toDigits 10 n = [] ∨
      (Nat.toDigits 10 n).head? = some '0' ∧ Nat.toDigits 10 n ≠ ['0']) := by
  rintro (hempty | ⟨hzero, hlong⟩)
  · exact absurd hempty (List.ne_nil_of_length_pos Nat.length_toDigits_pos)
  · rcases Nat.eq_zero_or_pos n with rfl | hpos
    · exact hlong rfl
    · exact head?_toDigits hpos hzero

theorem isDigit_toDigits (n : ℕ) : ∀ c ∈ Nat.toDigits 10 n, c.isDigit :=
  fun _ hc => Nat.isDigit_of_mem_toDigits (by omega) (by omega) hc

theorem plain_of_isDigit {c : Char} (hc : c.isDigit) : plain c := by
  simp only [Char.isDigit, Bool.and_eq_true, decide_eq_true_eq, ge_iff_le, UInt32.le_iff_toNat_le] at hc
  simp only [plain, decide_eq_true_eq]
  refine ⟨?_, ?_, ?_⟩
  · rintro rfl
    exact absurd hc.1 (by decide)
  · rintro rfl
    exact absurd hc.2 (by decide)
  · exact Nat.le_trans (by decide) hc.1

/-- An integer is written with its sign and its digits. -/
theorem toList_toString_int (n : ℤ) : (toString n).toList = sign (n < 0) ++ Nat.toDigits 10 n.natAbs := by
  cases n with
  | ofNat n => simp [toString, sign, Int.repr]
  | negSucc n => simp [toString, sign, Int.repr]

/-- The characters of an integer stand for themselves. -/
theorem plain_toString_int (n : ℤ) : Plain (toString n) := by
  intro c hc
  rw [toList_toString_int] at hc
  rcases List.mem_append.mp hc with hsign | hdigit
  · unfold sign at hsign
    split at hsign
    · rw [List.mem_singleton.mp hsign]
      rfl
    · exact absurd hsign List.not_mem_nil
  · exact plain_of_isDigit (isDigit_toDigits _ c hdigit)

theorem Plain.append {s t : String} (hs : Plain s) (ht : Plain t) : Plain (s ++ t) := by
  intro c hc
  rw [String.toList_append] at hc
  rcases List.mem_append.mp hc with hleft | hright
  · exact hs c hleft
  · exact ht c hright

variable {members : List (String × Token)} {rest : List Char} (negative : Bool)

theorem readNumeral_toDigits (n : ℕ) (hrest : Follows rest) :
    readNumeral negative (Nat.toDigits 10 n ++ rest) = some (.int (signed negative (n : ℤ)), rest) := by
  obtain ⟨htake, hdrop⟩ := takeWhile_digits (isDigit_toDigits n) hrest
  simp only [readNumeral, htake, hdrop, if_neg (not_leadingZero_toDigits n),
    Nat.ofDigitChars_ten_toDigits]
  obtain rfl | ⟨cs, rfl | rfl⟩ := hrest
  · rfl
  · rfl
  · rfl

/-- The decimals of a numeral are digits, as many as asked for. -/
theorem fraction_spec (scaled : ℕ) {places : ℕ} (hplaces : 0 < places) :
    (∀ c ∈ List.leftpad places '0' (Nat.toDigits 10 (scaled % 10 ^ places)), c.isDigit) ∧
      (List.leftpad places '0' (Nat.toDigits 10 (scaled % 10 ^ places))).length = places := by
  constructor
  · intro c hc
    rcases List.mem_append.mp hc with hpad | hdigit
    · rw [List.eq_of_mem_replicate hpad]
      rfl
    · exact isDigit_toDigits _ c hdigit
  · have hfits : (Nat.toDigits 10 (scaled % 10 ^ places)).length ≤ places :=
      (Nat.length_toDigits_le_iff (by omega) hplaces).mpr (Nat.mod_lt _ (Nat.pow_pos (by omega)))
    rw [List.length_leftpad]
    omega

/-- The digits in front of the point and behind it make up the scaled number. -/
theorem ofDigitChars_fixed (scaled : ℕ) {places : ℕ} (hplaces : 0 < places) :
    Nat.ofDigitChars 10 (Nat.toDigits 10 (scaled / 10 ^ places) ++
      List.leftpad places '0' (Nat.toDigits 10 (scaled % 10 ^ places))) 0 = scaled := by
  have hlength := (fraction_spec scaled hplaces).2
  have hfraction : Nat.ofDigitChars 10
      (List.leftpad places '0' (Nat.toDigits 10 (scaled % 10 ^ places))) 0 =
        scaled % 10 ^ places := by
    rw [List.leftpad, Nat.ofDigitChars_append, Nat.ofDigitChars_replicate_zero, Nat.mul_zero,
      Nat.ofDigitChars_ten_toDigits]
  rw [Nat.ofDigitChars_append, Nat.ofDigitChars_ten_toDigits,
    Nat.ofDigitChars_eq_ofDigitChars_zero, hlength, hfraction]
  exact Nat.div_add_mod scaled (10 ^ places)

theorem readNumeral_fixed (scaled : ℕ) {places : ℕ} (hplaces : 0 < places) (hrest : Follows rest) :
    readNumeral negative ((Nat.toDigits 10 (scaled / 10 ^ places) ++
      '.' :: List.leftpad places '0' (Nat.toDigits 10 (scaled % 10 ^ places))) ++ rest) =
        some (.decimal (signed negative ((scaled : ℚ) / 10 ^ places)), rest) := by
  obtain ⟨hdigits, hlength⟩ := fraction_spec scaled hplaces
  have hvalue := ofDigitChars_fixed scaled hplaces
  revert hdigits hlength hvalue
  generalize List.leftpad places '0' (Nat.toDigits 10 (scaled % 10 ^ places)) = fraction
  intro hdigits hlength hvalue
  obtain ⟨htake, hdrop⟩ := takeWhile_append_cons (fraction ++ rest)
    (isDigit_toDigits (scaled / 10 ^ places)) (c := '.') rfl
  obtain ⟨htake', hdrop'⟩ := takeWhile_digits hdigits hrest
  have hne : fraction ≠ [] := List.ne_nil_of_length_pos (by omega)
  rw [List.append_assoc, List.cons_append]
  simp only [readNumeral, htake, hdrop, htake', hdrop', if_neg (not_leadingZero_toDigits _),
    if_neg hne, hvalue, hlength]

theorem readValue_of_isDigit {c : Char} (hc : c.isDigit) (cs : List Char) :
    readValue (c :: cs) = readNumeral false (c :: cs) := by
  have hne : ∀ d : Char, d.isDigit = false → c ≠ d := by
    rintro d hd rfl
    rw [hc] at hd
    cases hd
  have hquote := hne '"' rfl
  have htrue := hne 't' rfl
  have hfalse := hne 'f' rfl
  have hnull := hne 'n' rfl
  have hminus := hne '-' rfl
  simp only [readValue]
  split
  · rename_i heq
    exact absurd (List.cons.inj heq).1 hquote
  · rename_i heq
    exact absurd (List.cons.inj heq).1 htrue
  · rename_i heq
    exact absurd (List.cons.inj heq).1 hfalse
  · rename_i heq
    exact absurd (List.cons.inj heq).1 hnull
  · rename_i heq
    exact absurd (List.cons.inj heq).1 hminus
  · rfl

theorem readValue_sign (n : ℕ) (tail : List Char) : readValue (sign negative ++ (Nat.toDigits 10 n ++ tail)) =
      readNumeral negative (Nat.toDigits 10 n ++ tail) := by
  cases negative with
  | true => rfl
  | false =>
    obtain ⟨c, digits, hdigits⟩ := List.exists_cons_of_ne_nil
      (List.ne_nil_of_length_pos (Nat.length_toDigits_pos (b := 10) (n := n)))
    have hc : c.isDigit := isDigit_toDigits n c (hdigits ▸ List.mem_cons_self)
    rw [hdigits]
    exact readValue_of_isDigit hc (digits ++ tail)

theorem readText_quoted {s : String} (hs : Plain s) (rest : List Char) :
    readText (s.toList ++ '"' :: rest) = some (s, rest) := by
  obtain ⟨htake, hdrop⟩ := takeWhile_append_cons rest hs (c := '"') rfl
  simp only [readText, htake, hdrop, String.ofList_toList]

theorem readValue_render {token : Token} (htoken : token.WellFormed)
    (hrest : Follows rest) : readValue (token.render ++ rest) = some (token.value, rest) := by
  cases token with
  | text s =>
    have hread := readText_quoted htoken rest
    simp only [Token.render, quoted, List.cons_append, List.append_assoc, List.nil_append, readValue,
      hread, Option.map_some, Token.value]
  | bool b =>
    cases b with
    | true => rfl
    | false => rfl
  | int n =>
    rw [Token.render, List.append_assoc, readValue_sign, readNumeral_toDigits _ _ hrest]
    rcases lt_or_ge n 0 with hneg | hnonneg
    · have habs : -((n.natAbs : ℕ) : ℤ) = n := by omega
      simp only [Token.value, signed, decide_eq_true hneg, if_true, habs]
    · have habs : ((n.natAbs : ℕ) : ℤ) = n := by omega
      simp [Token.value, signed, hnonneg.not_gt, habs]
  | fixed negative scaled places =>
    rw [Token.render, List.append_assoc, List.append_assoc, readValue_sign, ← List.append_assoc,
      readNumeral_fixed _ _ htoken hrest]
    rfl

theorem readMember_render {member : String × Token} (hname : Plain member.1)
    (htoken : member.2.WellFormed) (hrest : Follows rest) :
    readMember (renderMember member ++ rest) = some ((member.1, member.2.value), rest) := by
  have hread := readText_quoted hname (':' :: (member.2.render ++ rest))
  simp only [renderMember, quoted, List.cons_append, List.append_assoc, List.nil_append, readMember,
    hread, Option.bind_some, readValue_render htoken hrest, Option.map_some]

def MembersWellFormed (members : List (String × Token)) : Prop :=
  ∀ member ∈ members, Plain member.1 ∧ member.2.WellFormed

theorem MembersWellFormed.of_names_of_tokens (hnames : ∀ name ∈ members.map Prod.fst, Plain name)
    (htokens : ∀ token ∈ members.map Prod.snd, token.WellFormed) : MembersWellFormed members :=
  fun _ hmember =>
    ⟨hnames _ (List.mem_map_of_mem hmember), htokens _ (List.mem_map_of_mem hmember)⟩

theorem MembersWellFormed.concat (h : MembersWellFormed members)
    {entry : String × Token} (hname : Plain entry.1) (htoken : entry.2.WellFormed) :
    MembersWellFormed (members ++ [entry]) := by
  intro other hother
  rcases List.mem_append.mp hother with hold | hnew
  · exact h other hold
  · rw [List.mem_singleton.mp hnew]
    exact ⟨hname, htoken⟩

theorem readMembers_render (members : List (String × Token)) (hne : members ≠ [])
    (hwell : MembersWellFormed members) {fuel : ℕ} (hfuel : members.length ≤ fuel) :
    readMembers fuel (renderMembers members ++ ['}']) =
        some (members.map fun member => (member.1, member.2.value)) ∧
      readMembers fuel (renderMembers members) = none := by
  induction members generalizing fuel with
  | nil => exact absurd rfl hne
  | cons member rest ih =>
    obtain ⟨fuel, rfl⟩ := Nat.exists_eq_succ_of_ne_zero (n := fuel) (by simp at hfuel; omega)
    obtain ⟨hname, htoken⟩ := hwell member List.mem_cons_self
    cases rest with
    | nil =>
      have hclosed := readMember_render hname htoken (Or.inr ⟨[], Or.inr rfl⟩)
      have hends : Follows [] := Or.inl rfl
      have hopen := readMember_render hname htoken hends
      rw [List.append_nil] at hopen
      simp only [renderMembers, readMembers, hclosed, hopen, Option.bind_some]
      exact ⟨rfl, trivial⟩
    | cons next rest =>
      have hfollows : ∀ tail, Follows (',' :: (renderMembers (next :: rest) ++ tail)) :=
        fun tail => Or.inr ⟨_, Or.inl rfl⟩
      have hclosed := readMember_render hname htoken (hfollows ['}'])
      have hopen := readMember_render hname htoken (hfollows [])
      rw [List.append_nil] at hopen
      obtain ⟨ihclosed, ihopen⟩ := ih (List.cons_ne_nil next rest)
        (fun m hm => hwell m (List.mem_cons_of_mem _ hm)) (Nat.le_of_succ_le_succ hfuel)
      simp only [renderMembers, List.append_assoc, List.cons_append, readMembers, hclosed, hopen,
        Option.bind_some, ihclosed, ihopen, Option.map_some, Option.map_none, List.map_cons, and_self]

theorem length_le_renderMembers (members : List (String × Token)) :
    members.length ≤ (renderMembers members).length := by
  induction members with
  | nil => exact Nat.le_refl 0
  | cons member rest ih =>
    cases rest with
    | nil => simp [renderMembers, renderMember, quoted]
    | cons next rest =>
      simp only [renderMembers, List.length_append, List.length_cons] at ih ⊢
      omega

theorem readObject_member (cs : List Char) : readObject ('{' :: '"' :: cs) =
    (readMembers ('"' :: cs).length ('"' :: cs)).map (Dict.ofList Prod.fst Prod.snd) := rfl

theorem readObject_render (hne : members ≠ []) (hwell : MembersWellFormed members) :
    readObject ('{' :: (renderMembers members ++ ['}'])) =
        some (Dict.ofList Prod.fst Prod.snd (members.map fun member => (member.1, member.2.value))) ∧
      readObject ('{' :: renderMembers members) = none := by
  obtain ⟨cs, hquote⟩ : ∃ cs, renderMembers members = '"' :: cs := by
    cases members with
    | nil => exact absurd rfl hne
    | cons member rest =>
      cases rest with
      | nil => exact ⟨_, rfl⟩
      | cons next rest => exact ⟨_, rfl⟩
  have hlength := length_le_renderMembers members
  have hfuel : members.length ≤ (renderMembers members ++ ['}']).length := by
    rw [List.length_append]
    omega
  have hclosed := (readMembers_render members hne hwell hfuel).1
  have hopen := (readMembers_render members hne hwell hlength).2
  rw [hquote] at hclosed hopen ⊢
  rw [List.cons_append] at hclosed ⊢
  rw [readObject_member, readObject_member, hclosed, hopen]
  exact ⟨rfl, rfl⟩

end Json

end Foundations
