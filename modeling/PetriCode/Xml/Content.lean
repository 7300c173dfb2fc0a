import PetriCode.Xml.Name

/-! Character data and attribute values as they are meant: line ends are a line feed each, white
space in a value is a space each, and references stand for their characters, which are taken as
they are. A carriage return of character data ends a line only where plain text shows it to. -/
namespace PetriCode.Xml

/-- Each carriage return, with the line feed behind it if there is one, becomes a line feed. -/
def lineEnds (raw : List Char) : List Char :=
  ((' ' :: raw).zip raw).filterMap fun (before, c) =>
    if before = '\r' ∧ c = '\n' then none else some (if c = '\r' then '\n' else c)

/-- The line ends and tabs of a value become a space each. -/
def valueSpaces (raw : List Char) : List Char :=
  (lineEnds raw).map fun c => if c = '\n' ∨ c = '\t' then ' ' else c

def isHexDigit (c : Char) : Bool :=
  c.isDigit || ('a' ≤ c && c ≤ 'f') || ('A' ≤ c && c ≤ 'F')

def hexValue (c : Char) : Nat :=
  if c.isDigit then c.toNat - '0'.toNat else c.toLower.toNat - 'a'.toNat + 10

/-- The character that a number stands for, if a document may hold it. Numbers have 32 bits, and
those that no character has stand for the replacement character. -/
def charOf? (code : Nat) : Option Char :=
  if code < UInt32.size then
    let c := if code.isValidChar then Char.ofNat code else '\uFFFD'
    if isXmlChar c then some c else none
  else none

def namedChar? (name : List Char) : Option Char :=
  [("lt".toList, '<'), ("gt".toList, '>'), ("amp".toList, '&'), ("apos".toList, '\''),
    ("quot".toList, '"')].lookup name

namespace Scan

def reference : Scan Char := do
  let c ←
    if ← beginsWith ['#', 'x'] then
      exactly ['#', 'x']
      let digits ← whileIn isHexDigit
      guard !digits.isEmpty
      lift (charOf? (digits.foldl (fun value c => 16 * value + hexValue c) 0))
    else if ← beginsWith ['#'] then
      exactly ['#']
      let digits ← whileIn Char.isDigit
      guard !digits.isEmpty
      lift (charOf? (digits.foldl (fun value c => 10 * value + hexValue c) 0))
    else lift (namedChar? (← name))
  exactly [';']
  return c

end Scan

/-- A character of a text, and whether a reference stands there for it. -/
structure Sign where
  char : Char
  isReferred : Bool
deriving DecidableEq, Repr

/-- The signs of a text, after those that have been read already, the last of them first. -/
def signsAfter (done : List Sign) (text : List Char) : Option (List Sign) :=
  match text with
  | [] => some done.reverse
  | c :: rest =>
    if c = '&' then
      match Scan.reference rest with
      | none => none
      | some (meant, after) => signsAfter (⟨meant, true⟩ :: done) after.val
    else signsAfter (⟨c, false⟩ :: done) rest
termination_by text.length
decreasing_by
  · exact Nat.lt_succ_of_le after.property
  · exact Nat.lt_succ_self _

/-- The signs of a text, unless it has an ampersand that begins no reference. -/
def signs? (text : List Char) : Option (List Sign) := signsAfter [] text

/-- What a sign of character data stands for between its neighbours. A carriage return that is
written as such gives way to a line feed written behind it and stands for one before any other
written character, but is kept before a reference. At the end of the text it stands for a line feed
unless a reference comes before it. -/
def Sign.meant (before : Option Sign) (sign : Sign) (behind : Option Sign) : Option Char :=
  if sign = ⟨'\r', false⟩ then
    match behind with
    | some next =>
      if next.isReferred then some '\r' else if next.char = '\n' then none else some '\n'
    | none => some (if before.any (·.isReferred) then '\r' else '\n')
  else some sign.char

def dataChars (signs : List Sign) : List Char :=
  let around := (none :: signs.map some).zip (signs.tail.map some ++ [none])
  (signs.zip around).filterMap fun (sign, before, behind) => sign.meant before behind

/-- What character data stands for. The mark that ends a CDATA section does not occur in it. -/
def characterData? (raw : List Char) : Option String :=
  if (Scan.upTo "]]>".toList raw).isSome then none
  else (signs? raw).map fun signs => String.ofList (dataChars signs)

def attributeValue? (raw : List Char) : Option String :=
  (signs? (valueSpaces raw)).map fun signs => String.ofList (signs.map (·.char))

end PetriCode.Xml
