/-! Natural numbers below 2³² in decimal. A numeral is at most one plus sign and then one or more
ASCII digits, with any number of leading zeros; it is written with the fewest digits and no
sign. -/
namespace PetriCode.Text.Numeral

def digits? (text : List Char) : Option (List Char) :=
  let digits := if text.head? = some '+' then text.tail else text
  if digits ≠ [] ∧ digits.all Char.isDigit then some digits else none

/-- The number that a text denotes, if it is a numeral and the number fits. -/
def read? (text : List Char) : Option UInt32 := do
  let value := Nat.ofDigitChars 10 (← digits? text) 0
  if value < UInt32.size then some (UInt32.ofNat value) else none

def write (value : UInt32) : String :=
  String.ofList (Nat.toDigits 10 value.toNat)

end PetriCode.Text.Numeral
