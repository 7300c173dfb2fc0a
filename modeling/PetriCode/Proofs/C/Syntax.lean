import PetriCode.C.Code
import PetriCode.Proofs.C.Phases
import PetriCode.Proofs.C.Token

/-! A reader for the fragment of C in which nets are written. It takes tokens from the front of a list
and refuses what is not of the fragment. What it makes of a file is a list of items: comments are
gone, directives are kept as lines, and literals as the bytes that they denote. -/
namespace PetriCode.C

inductive Item
  | directive (line : String)
  | enumeration (tag : String) (constants : List String)
  | nameArray (array size : String) (texts : List (List UInt8))
  | prototype (head : Prototype)
  | function (head : Prototype) (body : List Statement)
deriving DecidableEq, Repr

def keywords : List String :=
  ["auto", "break", "case", "char", "const", "continue", "default", "do", "double", "else", "enum",
    "extern", "float", "for", "goto", "if", "inline", "int", "long", "register", "restrict",
    "return", "short", "signed", "sizeof", "static", "struct", "switch", "typedef", "union",
    "unsigned", "void", "volatile", "while", "_Alignas", "_Alignof", "_Atomic", "_Bool",
    "_Complex", "_Generic", "_Imaginary", "_Noreturn", "_Static_assert", "_Thread_local"]

/-- Takes the front of a list of tokens, or refuses. -/
abbrev Reader (α : Type) := List Token → Option (α × List Token)

namespace Reader

def expect : List Token → List Token → Option (List Token)
  | [], rest => some rest
  | _ :: _, [] => none
  | token :: front, first :: rest => if first = token then expect front rest else none

def name : Reader String
  | .word text :: rest => if text ∈ keywords then none else some (text, rest)
  | _ => none

/-- The name of a type: an identifier, or the one keyword among the types of the fragment. -/
def typeName : Reader String
  | .word text :: rest => if text ∈ keywords ∧ text ≠ "char" then none else some (text, rest)
  | _ => none

def weight : Reader Weight
  | .number value :: rest =>
    if value < UInt32.size then some (UInt32.ofNat value, rest) else none
  | _ => none

def literal : Reader (List UInt8)
  | .literal values :: rest => some (values, rest)
  | _ => none

/-- One or more items between commas up to a closing mark, before which a comma may be left. -/
def listed {α : Type} (read : Reader α) (trailing : Bool) (close : String) (tokens : List Token) :
    Option (List α × List Token) :=
  match read tokens with
  | none => none
  | some (item, rest) =>
    if rest.head? = some (.mark close) then some ([item], rest.tail)
    else if rest.head? = some (.mark ",") ∧ rest.length < tokens.length then
      if trailing ∧ rest.tail.head? = some (.mark close) then some ([item], rest.tail.tail)
      else (listed read trailing close rest.tail).map fun (items, rest) => (item :: items, rest)
    else none
termination_by tokens.length
decreasing_by
  rw [List.length_tail]
  omega

def operand (tokens : List Token) : Option (Operand × List Token) :=
  (weight tokens).map (fun (value, rest) => (.number value, rest)) <|> do
    let (first, rest) ← name tokens
    if rest.head? = some (.mark "[") then
      let (index, rest) ← name rest.tail
      return (.element first index, ← expect [.mark "]"] rest)
    else return (.name first, rest)

def declared (tokens : List Token) : Option (Variable × List Token) :=
  if tokens.head? = some (.word "const") then do
    let (type, rest) ← typeName tokens.tail
    let (name, rest) ← name (← expect [.mark "*"] rest)
    return (⟨.constPointer type, name⟩, rest)
  else do
    let (type, rest) ← typeName tokens
    if rest.head? = some (.mark "*") then
      let (name, rest) ← name rest.tail
      return (⟨.pointer type, name⟩, rest)
    else
      let (name, rest) ← name rest
      return (⟨.plain type, name⟩, rest)

def prototype (tokens : List Token) : Option (Prototype × List Token) := do
  let (result, rest) ← declared tokens
  let rest ← expect [.mark "("] rest
  if rest.head? = some (.word "void") then
    return (⟨result.type, result.name, none⟩, ← expect [.mark ")"] rest.tail)
  else
    let (parameter, rest) ← declared rest
    return (⟨result.type, result.name, some parameter⟩, ← expect [.mark ")"] rest)

def comparison (tokens : List Token) : Option (Condition × List Token) := do
  let (first, rest) ← name tokens
  if rest.head? = some (.mark "(") then
    let (left, rest) ← operand (← expect [.word "strcmp", .mark "("] tokens)
    let (right, rest) ← operand (← expect [.mark ","] rest)
    return (.sameText left right, ← expect [.mark ")", .mark "==", .number 0] rest)
  else if rest.head? = some (.mark "[") then
    return (.isEmptyText first,
      ← expect [.mark "[", .number 0, .mark "]", .mark "==", .character 0] rest)
  else if rest.head? = some (.mark "==") then
    return (.isNull first, ← expect [.mark "==", .word "NULL"] rest)
  else
    let (second, rest) ← name (← expect [.mark ">="] rest)
    return (.atLeast first second, rest)

def condition (tokens : List Token) : Option (Condition × List Token) := do
  let (left, rest) ← comparison tokens
  if rest.head? = some (.mark "||") then
    let (right, rest) ← comparison rest.tail
    return (.either left right, rest)
  else return (left, rest)

def arguments (tokens : List Token) : Option (List Operand × List Token) :=
  if tokens.head? = some (.mark ")") then some ([], tokens.tail)
  else listed operand false ")" tokens

def call (tokens : List Token) : Option ((String × List Operand) × List Token) := do
  let (function, rest) ← name tokens
  let (values, rest) ← arguments (← expect [.mark "("] rest)
  return ((function, values), ← expect [.mark ";"] rest)

/-- A definition in a function: an array of numbers, or a variable that begins with a call. -/
def definition (tokens : List Token) : Option (Statement × List Token) := do
  let (result, rest) ← declared tokens
  if rest.head? = some (.mark "[") then
    let .plain type := result.type | none
    let (size, rest) ← name rest.tail
    let rest ← expect [.mark "]", .mark "=", .mark "\x7b"] rest
    let (values, rest) ← listed weight true "\x7d" rest
    return (.defineArray type result.name size values, ← expect [.mark ";"] rest)
  else
    let ((function, values), rest) ← call (← expect [.mark "="] rest)
    return (.define result function values, rest)

/-- A statement that holds no other one but a `return`. -/
def plainStatement (tokens : List Token) : Option (Statement × List Token) :=
  if tokens.head? = some (.mark "(") then do
    let (name, rest) ← name (← expect [.word "void", .mark ")"] tokens.tail)
    return (.discard name, ← expect [.mark ";"] rest)
  else if tokens.head? = some (.word "return") then do
    let (value, rest) ← operand tokens.tail
    return (.returns value, ← expect [.mark ";"] rest)
  else if tokens.head? = some (.word "if") then do
    let (condition, rest) ← condition (← expect [.mark "("] tokens.tail)
    let (value, rest) ← operand (← expect [.mark ")", .word "return"] rest)
    return (.returnsIf condition value, ← expect [.mark ";"] rest)
  else if tokens.tail.head? = some (.mark "(") then do
    let ((function, values), rest) ← call tokens
    return (.call function values, rest)
  else definition tokens

def loopHead (tokens : List Token) : Option ((String × String × String) × List Token) := do
  let (type, rest) ← typeName (← expect [.word "for", .mark "("] tokens)
  let (index, rest) ← name rest
  let rest ← expect [.mark "=", .number 0, .mark ";", .word index, .mark "<"] rest
  let (bound, rest) ← name rest
  return ((type, index, bound),
    ← expect [.mark ";", .word index, .mark "++", .mark ")", .mark "\x7b"] rest)

def statement (tokens : List Token) : Option (Statement × List Token) :=
  if tokens.head? = some (.word "for") then
    match loopHead tokens with
    | none => none
    | some ((type, index, bound), rest) =>
      if rest.length < tokens.length then do
        let (body, rest) ← statement rest
        return (.countUp type index bound body, ← expect [.mark "\x7d"] rest)
      else none
  else plainStatement tokens
termination_by tokens.length

def block (tokens : List Token) : Option (List Statement × List Token) :=
  if tokens.head? = some (.mark "\x7d") then some ([], tokens.tail)
  else
    match statement tokens with
    | none => none
    | some (first, rest) =>
      if rest.length < tokens.length then
        (block rest).map fun (others, rest) => (first :: others, rest)
      else none
termination_by tokens.length

def enumeration (tokens : List Token) : Option (Item × List Token) := do
  let (tag, rest) ← name (← expect [.word "enum"] tokens)
  let (constants, rest) ← listed name true "\x7d" (← expect [.mark "\x7b"] rest)
  return (.enumeration tag constants, ← expect [.mark ";"] rest)

def nameArray (tokens : List Token) : Option (Item × List Token) := do
  let rest ← expect
    [.word "static", .word "const", .word "char", .mark "*", .word "const"] tokens
  let (array, rest) ← name rest
  let (size, rest) ← name (← expect [.mark "["] rest)
  let rest ← expect [.mark "]", .mark "=", .mark "\x7b"] rest
  let (texts, rest) ← listed literal true "\x7d" rest
  return (.nameArray array size texts, ← expect [.mark ";"] rest)

def function (tokens : List Token) : Option (Item × List Token) := do
  let (head, rest) ← prototype tokens
  if rest.head? = some (.mark ";") then return (.prototype head, rest.tail)
  else
    let (body, rest) ← block (← expect [.mark "\x7b"] rest)
    return (.function head body, rest)

def item (tokens : List Token) : Option (Item × List Token) :=
  match tokens with
  | .directive line :: rest => some (.directive line, rest)
  | .word text :: _ =>
    if text = "enum" then enumeration tokens
    else if text = "static" then nameArray tokens
    else function tokens
  | _ => none

def items (tokens : List Token) : Option (List Item) :=
  if tokens = [] then some []
  else
    match item tokens with
    | none => none
    | some (first, rest) =>
      if rest.length < tokens.length then (items rest).map (first :: ·) else none
termination_by tokens.length

end Reader

def read (text : String) : Option (List Item) := Reader.items (tokens (logical text.toList))

end PetriCode.C
