import Mathlib.Data.List.Basic
import Mathlib.Data.List.TakeWhile
import PetriCode.C.Identifier
import PetriCode.C.Literal
import PetriCode.Text.Numeral

/-! Tokens of C. A text is cut from the left: white space and comments are skipped, a `#` and the rest
of its line are a directive, and words, numbers and punctuators are as long as they can be.
Literals are read to the bytes that they denote. What is no token is a stray character. -/
namespace PetriCode.C

inductive Token
  | word (text : String)
  | number (value : Nat)
  | literal (bytes : List UInt8)
  | character (byte : UInt8)
  | mark (text : String)
  | directive (line : String)
  | stray (c : Char)
deriving DecidableEq, Repr

def isSpace (c : Char) : Bool := c ∈ [' ', '\t', '\n', '\x0b', '\x0c', '\r']

def afterComment : List Char → List Char
  | '*' :: '/' :: rest => rest
  | _ :: rest => afterComment rest
  | [] => []

def isOctalDigit (c : Char) : Bool := c.isDigit && c.toNat ≤ '7'.toNat

/-- The value of an integer without a suffix; one that begins with 0 is octal. -/
def number? (run : List Char) : Option Nat :=
  if run.head? = some '0' then
    if run.all isOctalDigit then some (Nat.ofDigitChars 8 run 0) else none
  else if run.all Char.isDigit then some (Nat.ofDigitChars 10 run 0)
  else none

def simpleEscape? : Char → Option UInt8
  | '\'' => some 39
  | '"' => some 34
  | '?' => some 63
  | '\\' => some 92
  | 'a' => some 7
  | 'b' => some 8
  | 'f' => some 12
  | 'n' => some 10
  | 'r' => some 13
  | 't' => some 9
  | 'v' => some 11
  | _ => none

def octalDigits (text : List Char) : List Char := (text.take 3).takeWhile isOctalDigit

def escaped? (text : List Char) : Option (UInt8 × List Char) :=
  if octalDigits text = [] then do
    let byte ← simpleEscape? (← text.head?)
    return (byte, text.tail)
  else
    let value := Nat.ofDigitChars 8 (octalDigits text) 0
    if value < 256 then some (UInt8.ofNat value, text.drop (octalDigits text).length) else none

/-- The bytes that the first character or escape in a literal denotes. A line end cannot stand there. -/
def element? : List Char → Option (List UInt8 × List Char)
  | [] => none
  | first :: rest =>
    if first = '\\' then (escaped? rest).map fun (byte, after) => ([byte], after)
    else if first = '\n' then none
    else some (String.utf8EncodeChar first, rest)

theorem suffix_escaped? {text rest : List Char} {byte : UInt8}
    (read : escaped? text = some (byte, rest)) : rest <:+ text := by
  unfold escaped? at read
  split at read
  · obtain ⟨c, _, simple⟩ := Option.bind_eq_some_iff.1 read
    obtain ⟨_, _, same⟩ := Option.bind_eq_some_iff.1 simple
    cases same
    exact List.tail_suffix text
  · simp only [Option.ite_none_right_eq_some, Option.some.injEq, Prod.mk.injEq] at read
    rw [← read.2.2]
    exact List.drop_suffix _ text

theorem suffix_element? {first : Char} {tail rest : List Char} {values : List UInt8}
    (read : element? (first :: tail) = some (values, rest)) : rest <:+ tail := by
  simp only [element?] at read
  split_ifs at read
  · obtain ⟨⟨byte, after⟩, escape, same⟩ := Option.map_eq_some_iff.1 read
    cases same
    exact suffix_escaped? escape
  · cases read
    exact List.suffix_rfl

theorem length_element? {text rest : List Char} {values : List UInt8}
    (read : element? text = some (values, rest)) : rest.length < text.length := by
  cases text with
  | nil => cases read
  | cons first tail => exact Nat.lt_succ_of_le (suffix_element? read).length_le

def literal? (text : List Char) : Option (List UInt8 × List Char) :=
  if text.head? = some '"' then some ([], text.tail)
  else
    match _read : element? text with
    | none => none
    | some (values, rest) =>
      (literal? rest).map fun (others, after) => (values ++ others, after)
termination_by text.length
decreasing_by exact length_element? _read

def character? (text : List Char) : Option (UInt8 × List Char) :=
  match element? text with
  | some ([byte], '\'' :: rest) => if text.head? = some '\'' then none else some (byte, rest)
  | _ => none

/-- The punctuators, the longer ones first. -/
def marks : List String :=
  ["...", "<<=", ">>=", "->", "++", "--", "<<", ">>", "<=", ">=", "==", "!=", "&&", "||", "*=", "/=",
    "%=", "+=", "-=", "&=", "^=", "|=", "[", "]", "(", ")", "\x7b", "\x7d", ".", "&", "*", "+", "-",
    "~", "!", "/", "%", "<", ">", "^", "|", "?", ":", ";", "=", ","]

def mark? (text : List Char) : Option String := marks.find? (·.toList.isPrefixOf text)

def runToken (first : Char) (rest : List Char) : Token :=
  if isIdentifierStart first then .word (String.ofList (first :: rest))
  else (number? (first :: rest)).elim (.stray first) .number

/-- The first token of a text, if one begins there, and the text behind it. -/
def lexeme (first : Char) (rest : List Char) : Option Token × List Char :=
  if isSpace first then (none, rest)
  else if first = '/' ∧ rest.head? = some '*' then (none, afterComment rest.tail)
  else if first = '/' ∧ rest.head? = some '/' then (none, rest.dropWhile (· ≠ '\n'))
  else if first = '#' then
    (some (.directive (String.ofList (rest.takeWhile (· ≠ '\n')))), rest.dropWhile (· ≠ '\n'))
  else if isIdentifierPart first then
    (some (runToken first (rest.takeWhile isIdentifierPart)), rest.dropWhile isIdentifierPart)
  else if first = '"' then
    (literal? rest).elim (some (.stray first), rest) fun (values, after) =>
      (some (.literal values), after)
  else if first = '\'' then
    (character? rest).elim (some (.stray first), rest) fun (byte, after) =>
      (some (.character byte), after)
  else
    (mark? (first :: rest)).elim (some (.stray first), rest) fun text =>
      (some (.mark text), rest.drop (text.toList.length - 1))

theorem suffix_afterComment (text : List Char) : afterComment text <:+ text := by
  fun_induction afterComment text with
  | case1 rest => exact ⟨['*', '/'], rfl⟩
  | case2 c rest _ ih => exact ih.trans (List.suffix_cons c rest)
  | case3 => exact List.suffix_rfl

theorem suffix_literal? {text rest : List Char} {values : List UInt8}
    (read : literal? text = some (values, rest)) : rest <:+ text := by
  fun_induction literal? text generalizing values rest with
  | case1 text quoted =>
    cases read
    exact List.tail_suffix text
  | case2 => cases read
  | case3 text _ first middle element ih =>
    obtain ⟨⟨others, after⟩, tail, same⟩ := Option.map_eq_some_iff.1 read
    cases same
    cases text with
    | nil => cases element
    | cons c text => exact (ih tail).trans ((suffix_element? element).trans (List.suffix_cons c text))

theorem suffix_character? {text rest : List Char} {byte : UInt8}
    (read : character? text = some (byte, rest)) : rest <:+ text := by
  unfold character? at read
  split at read
  case h_1 first after element =>
    split_ifs at read
    cases read
    cases text with
    | nil => cases element
    | cons c text =>
      exact (List.suffix_cons _ _).trans ((suffix_element? element).trans (List.suffix_cons c text))
  case h_2 => cases read

/-- Only the front of a text is taken for its first token. -/
theorem suffix_lexeme (first : Char) (rest : List Char) : (lexeme first rest).2 <:+ rest := by
  unfold lexeme
  split_ifs
  · exact List.suffix_rfl
  · exact (suffix_afterComment _).trans (List.tail_suffix rest)
  · exact List.dropWhile_suffix _
  · exact List.dropWhile_suffix _
  · exact List.dropWhile_suffix _
  · cases read : literal? rest with
    | none => exact List.suffix_rfl
    | some result => exact suffix_literal? read
  · cases read : character? rest with
    | none => exact List.suffix_rfl
    | some result => exact suffix_character? read
  · cases mark? (first :: rest) with
    | none => exact List.suffix_rfl
    | some text => exact List.drop_suffix _ rest

def tokens : List Char → List Token
  | [] => []
  | first :: rest => (lexeme first rest).1.toList ++ tokens (lexeme first rest).2
termination_by text => text.length
decreasing_by exact Nat.lt_succ_of_le (suffix_lexeme first rest).length_le

theorem tokens_cons (first : Char) (rest : List Char) :
    tokens (first :: rest) = (lexeme first rest).1.toList ++ tokens (lexeme first rest).2 := by
  rw [tokens]

end PetriCode.C
