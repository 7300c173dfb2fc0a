import PetriCode.Net.Basic

/-! The fragment of C in which nets are written, as data: enumerations, tables of names, prototypes
and functions of one parameter at most. A translation unit is a list of paragraphs of
declarations, and a function body a list of paragraphs of statements. -/
namespace PetriCode.C

inductive TypeName
  | plain (name : String)
  | pointer (name : String)
  | constPointer (name : String)
deriving DecidableEq, Repr

structure Variable where
  type : TypeName
  name : String
deriving DecidableEq, Repr

structure Prototype where
  result : TypeName
  name : String
  parameter : Option Variable
deriving DecidableEq, Repr

inductive Operand
  | name (identifier : String)
  | number (value : Weight)
  | element (array index : String)
deriving DecidableEq, Repr

/-- The null pointer is a name like any other as far as texts are concerned. -/
def Operand.null : Operand := .name "NULL"

inductive Condition
  | isNull (pointer : String)
  | isEmptyText (pointer : String)
  | atLeast (left right : String)
  | sameText (left right : Operand)
  | either (left right : Condition)
deriving DecidableEq, Repr

inductive Statement
  /-- A variable that begins with the result of a call. -/
  | define (result : Variable) (function : String) (arguments : List Operand)
  | defineArray (type name size : String) (values : List Weight)
  | call (function : String) (arguments : List Operand)
  | discard (name : String)
  | returns (value : Operand)
  | returnsIf (condition : Condition) (value : Operand)
  /-- A statement run with an index of 0, 1, … as long as it is below a bound. -/
  | countUp (type index bound : String) (body : Statement)
deriving DecidableEq, Repr

structure Definition where
  head : Prototype
  body : List (List Statement)
deriving DecidableEq, Repr

inductive Declaration
  | comment (text : String)
  | pragmaOnce
  | includeSystem (header : String)
  | includeQuoted (header : String)
  /-- Constants numbered from 0; the last is the number of those before it. -/
  | enumeration (tag : String) (members : List String) (count : String)
  | nameArray (array size : String) (names : List String)
  | prototype (head : Prototype)
  | function (definition : Definition)
deriving DecidableEq, Repr

abbrev TranslationUnit := List (List Declaration)

end PetriCode.C
