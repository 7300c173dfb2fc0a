import PetriCode.C.Identifier
import PetriCode.Net.Basic
import PetriCode.Text.Uppercase

/-! Names of generated modules: C identifiers, told apart without regard to case. The lower case
names files, functions and arrays, the capitalized form the enumerations, the upper case the two
constants that count places and transitions. -/
namespace PetriCode

/-- A module name, kept in lower case. -/
structure ModuleName where
  spelling : List Char
  identifier : C.isIdentifier spelling

namespace ModuleName

def ofString? (text : String) : Option ModuleName :=
  if identifier : C.isIdentifier text.toList then
    some ⟨Text.lowercaseAscii text.toList, C.isIdentifier_map_toLower _ identifier⟩
  else none

def lower (name : ModuleName) : String := String.ofList name.spelling

def capitalized (name : ModuleName) : String :=
  String.ofList (Text.capitalizeAscii name.spelling)

def upper (name : ModuleName) : String :=
  String.ofList (Text.uppercaseAscii name.spelling)

def interfaceFile (name : ModuleName) : String := name.lower ++ ".h"

def implementationFile (name : ModuleName) : String := name.lower ++ ".c"

def enumeration (name : ModuleName) : NodeKind → String
  | .place => name.capitalized ++ "Place"
  | .transition => name.capitalized ++ "Transition"

def count (name : ModuleName) : NodeKind → String
  | .place => name.upper ++ "_PLACES_ALL"
  | .transition => name.upper ++ "_TRANS_ALL"

def nameArray (name : ModuleName) : NodeKind → String
  | .place => name.lower ++ "_place_names"
  | .transition => name.lower ++ "_trans_names"

end ModuleName
end PetriCode
