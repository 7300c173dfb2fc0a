import PetriCode.Text.CaseTable

/-! The upper case of a text, character by character. A character may become several; one without
an upper case stays as it is. Module names use the ASCII letters alone. -/
namespace PetriCode.Text

def upperCodes (code : Nat) : List Nat :=
  match caseRuns.find? (·.covers code) with
  | some run => [run.apply code]
  | none => (caseExpansions.lookup code).getD [code]

def upperChar (c : Char) : List Char :=
  (upperCodes c.toNat).map Char.ofNat

/-- The full upper case of a text. -/
def uppercase (text : String) : String :=
  String.ofList (text.toList.flatMap upperChar)

def uppercaseAscii (text : List Char) : List Char :=
  text.map Char.toUpper

def lowercaseAscii (text : List Char) : List Char :=
  text.map Char.toLower

def capitalizeAscii : List Char → List Char
  | [] => []
  | first :: rest => first.toUpper :: rest

end PetriCode.Text
