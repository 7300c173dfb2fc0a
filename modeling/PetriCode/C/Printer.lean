import PetriCode.C.Code
import PetriCode.C.Literal
import PetriCode.Text.Blank
import PetriCode.Text.Numeral

/-! The text of the C fragment. Everything is written line by line, a block four columns further in
than its braces, with an empty line between two paragraphs. -/
namespace PetriCode.C

def TypeName.declare : TypeName → String → String
  | plain type, name => type ++ " " ++ name
  | pointer type, name => type ++ " *" ++ name
  | constPointer type, name => "const " ++ type ++ " *" ++ name

def Variable.text (declared : Variable) : String :=
  declared.type.declare declared.name

def Prototype.text (head : Prototype) : String :=
  head.result.declare head.name ++ "(" ++ (head.parameter.elim "void" Variable.text) ++ ")"

def Operand.text : Operand → String
  | name identifier => identifier
  | number value => Text.Numeral.write value
  | element array index => array ++ "[" ++ index ++ "]"

def Condition.text : Condition → String
  | isNull pointer => pointer ++ " == NULL"
  | isEmptyText pointer => pointer ++ "[0] == '\\0'"
  | atLeast left right => left ++ " >= " ++ right
  | sameText left right => "strcmp(" ++ left.text ++ ", " ++ right.text ++ ") == 0"
  | either left right => left.text ++ " || " ++ right.text

def callText (function : String) (arguments : List Operand) : String :=
  function ++ "(" ++ ", ".intercalate (arguments.map Operand.text) ++ ")"

def initializer (values : List Weight) : String :=
  "\x7b" ++ ", ".intercalate (values.map Text.Numeral.write) ++ "\x7d"

def indented (lines : List String) : List String :=
  lines.map ("    " ++ ·)

/-- Paragraphs of lines, with an empty line between two of them. -/
def spaced (paragraphs : List (List String)) : List String :=
  [""].intercalate paragraphs

def Statement.lines : Statement → List String
  | define result function arguments =>
    [result.text ++ " = " ++ callText function arguments ++ ";"]
  | defineArray type name size values =>
    [type ++ " " ++ name ++ "[" ++ size ++ "] = " ++ initializer values ++ ";"]
  | call function arguments => [callText function arguments ++ ";"]
  | discard name => ["(void)" ++ name ++ ";"]
  | returns value => ["return " ++ value.text ++ ";"]
  | returnsIf condition value => ["if (" ++ condition.text ++ ") return " ++ value.text ++ ";"]
  | countUp type index bound body =>
    ["for (" ++ type ++ " " ++ index ++ " = 0; " ++ index ++ " < " ++ bound ++ "; " ++ index ++
      "++) \x7b"] ++ indented body.lines ++ ["\x7d"]

def Definition.lines (function : Definition) : List String :=
  [function.head.text, "\x7b"] ++
    spaced (function.body.map fun group => indented (group.flatMap Statement.lines)) ++ ["\x7d"]

def Declaration.lines : Declaration → List String
  | comment text => ["/* " ++ text ++ " */"]
  | pragmaOnce => ["#pragma once"]
  | includeSystem header => ["#include <" ++ header ++ ">"]
  | includeQuoted header => ["#include \"" ++ header ++ "\""]
  | enumeration tag members count =>
    ["enum " ++ tag ++ " \x7b"] ++ members.map ("    " ++ · ++ ",") ++ ["    " ++ count, "\x7d;"]
  | nameArray array size names =>
    ["static const char *const " ++ array ++ "[" ++ size ++ "] = \x7b"] ++
      names.map ("    " ++ literal · ++ ",") ++ ["\x7d;"]
  | prototype head => [head.text ++ ";"]
  | function definition => definition.lines

def unitLines (unit : TranslationUnit) : List String :=
  spaced (unit.map fun paragraph => paragraph.flatMap Declaration.lines)

def joined (lines : List String) : String :=
  "\n".intercalate lines

/-- The text without the white space at its end, and one line end after it. -/
def finished (text : String) : String :=
  String.ofList (Text.trimEnd text.toList) ++ "\n"

def unitText (unit : TranslationUnit) : String :=
  finished (joined (unitLines unit))

end PetriCode.C
