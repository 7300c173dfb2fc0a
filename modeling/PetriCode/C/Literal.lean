/-! String literals of C. The bytes of a text in UTF-8 are written in printable ASCII: quotes,
backslashes and question marks behind a backslash, every other byte outside the printable range as
a backslash and three octal digits. A question mark is escaped so that two of them never begin a
trigraph, and three digits are the most that an octal escape can have, so that a digit behind one
stays a digit. -/
namespace PetriCode.C

def bytes (text : String) : List UInt8 :=
  text.toList.flatMap String.utf8EncodeChar

def octalDigit (n : Nat) : Char := Char.ofNat ('0'.toNat + n % 8)

def octal (byte : Nat) : List Char :=
  [octalDigit (byte / 64), octalDigit (byte / 8), octalDigit byte]

def escape (byte : UInt8) : List Char :=
  let c := Char.ofNat byte.toNat
  if c = '"' ∨ c = '\\' ∨ c = '?' then ['\\', c]
  else if 0x20 ≤ byte.toNat ∧ byte.toNat ≤ 0x7E then [c]
  else '\\' :: octal byte.toNat

/-- The literal that denotes the bytes of a text. -/
def literal (text : String) : String :=
  "\"" ++ String.ofList ((bytes text).flatMap escape) ++ "\""

end PetriCode.C
