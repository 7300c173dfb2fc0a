import Mathlib.Algebra.Group.Nat.Defs
import PetriCode.Proofs.C.Syntax

/-! Running the lookups of a file. A run gives nothing where C does not say what happens: when a name is
unknown, a pointer to no text is read, an array is read outside its bounds, or a loop does not end.
A text is an array of bytes, and all that reads it reads up to its first null byte. -/
namespace PetriCode.C

inductive Value
  | null
  | text (array : List UInt8)
  | number (value : Nat)
deriving DecidableEq, Repr

/-- The text at the front of an array, if a null byte ends it. -/
def content? (array : List UInt8) : Option (List UInt8) :=
  if 0 ∈ array then some (array.takeWhile (· ≠ 0)) else none

/-- What `strcmp` tells of two arrays: whether their texts are the same. -/
def sameText? (first second : List UInt8) : Option Bool := do
  return (← content? first) = (← content? second)

/-- A loop over the numbers from an index on, with the given number of rounds left. A round may return a
value. An index that reached the limit of its type would begin again and never get to its bound. -/
def countUp (round : Nat → Option (Option Value)) (limit : Nat) :
    Nat → Nat → Option (Option Value)
  | 0, _ => some none
  | left + 1, index =>
    match round index with
    | none => none
    | some (some value) => some (some value)
    | some none => if index + 1 < limit then countUp round limit left (index + 1) else none

def Item.array? (array : String) : Item → Option (String × List (List UInt8))
  | .nameArray name size texts => if name = array then some (size, texts) else none
  | _ => none

def Item.function? (function : String) : Item → Option (Prototype × List Statement)
  | .function head body => if head.name = function then some (head, body) else none
  | _ => none

/-- What functions run in: the items of their file, the values of constants, and how many bits the types
of positions have, which are unsigned. -/
structure Program where
  items : List Item
  constant? : String → Option Nat
  width : String → Nat

abbrev Scope := List (String × Value)

namespace Program
variable (program : Program) (scope : Scope)

def name? (name : String) : Option Value :=
  if name = "NULL" then some .null
  else scope.lookup name <|> (program.constant? name).map .number

def number? (name : String) : Option Nat :=
  match program.name? scope name with
  | some (.number value) => some value
  | _ => none

def array? (array : String) : Option (String × List (List UInt8)) :=
  program.items.findSome? (Item.array? array)

/-- An element of an array. Those without an initial value are null. -/
def element? (array : String) (index : Nat) : Option Value := do
  let (size, texts) ← if scope.lookup array = none then program.array? array else none
  let dimension ← program.constant? size
  if texts.length ≤ dimension ∧ index < dimension then
    return texts[index]?.elim .null fun text => .text (text ++ [0])
  else none

def operand? : Operand → Option Value
  | .name identifier => program.name? scope identifier
  | .number value => some (.number value.toNat)
  | .element array index => do program.element? scope array (← program.number? scope index)

def holds? : Condition → Option Bool
  | .isNull pointer =>
    match program.name? scope pointer with
    | some .null => some true
    | some (.text _) => some false
    | _ => none
  | .isEmptyText pointer =>
    match program.name? scope pointer with
    | some (.text (first :: _)) => some (first = 0)
    | _ => none
  | .atLeast left right => do
    return (← program.number? scope right) ≤ (← program.number? scope left)
  | .sameText left right =>
    match program.operand? scope left, program.operand? scope right with
    | some (.text first), some (.text second) => sameText? first second
    | _, _ => none
  | .either left right => do
    if ← holds? left then return true else holds? right

/-- Runs a statement. What is not part of a lookup is not run. -/
def run? (scope : Scope) : Statement → Option (Option Value)
  | .discard name => (program.name? scope name).map fun _ => none
  | .returns value => (program.operand? scope value).map some
  | .returnsIf condition value => do
    if ← program.holds? scope condition then (program.operand? scope value).map some
    else some none
  | .countUp type index bound body => do
    let rounds ← program.number? ((index, .number 0) :: scope) bound
    C.countUp (fun position => run? ((index, .number position) :: scope) body)
      (2 ^ program.width type) rounds 0
  | _ => none

def runAll? : List Statement → Option (Option Value)
  | [] => some none
  | statement :: statements =>
    match program.run? scope statement with
    | none => none
    | some (some value) => some (some value)
    | some none => runAll? statements

def convert? : TypeName → Value → Option Value
  | .plain type, .number value => some (.number (value % 2 ^ program.width type))
  | .constPointer _, .null => some .null
  | .constPointer _, .text array => some (.text array)
  | _, _ => none

def function? (function : String) : Option (Prototype × List Statement) :=
  program.items.findSome? (Item.function? function)

/-- Calls a function of one parameter. -/
def call? (function : String) (argument : Value) : Option Value := do
  let (head, body) ← program.function? function
  let parameter ← head.parameter
  let value ← program.convert? parameter.type argument
  let result ← program.runAll? [(parameter.name, value)] body
  program.convert? head.result (← result)

theorem call?_eq {program : Program} {function : String} {head : Prototype} {body : List Statement}
    (defined : program.function? function = some (head, body)) {parameter : Variable}
    (takes : head.parameter = some parameter) {argument value : Value}
    (converted : program.convert? parameter.type argument = some value) {result : Value}
    (run : program.runAll? [(parameter.name, value)] body = some (some result)) :
    program.call? function argument = program.convert? head.result result := by
  simp [call?, defined, takes, converted, run]

end Program
end PetriCode.C
