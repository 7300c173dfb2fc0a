import PetriCode.Xml.Scan

/-! Characters and names of XML: which characters a document may hold, which ones begin and continue
a name, and names with a qualifier before a colon. -/
namespace PetriCode.Xml

def inRuns (runs : List (Nat × Nat)) (c : Char) : Bool :=
  runs.any fun run => run.1 ≤ c.toNat && c.toNat ≤ run.2

def isXmlChar : Char → Bool :=
  inRuns [(0x20, 0xD7FF), (0x9, 0xA), (0xD, 0xD), (0xE000, 0xFFFD), (0x10000, 0x10FFFF)]

def isSpace (c : Char) : Bool := c == ' ' || c == '\t' || c == '\n' || c == '\r'

/-- The characters that begin a name; a colon is one of them. -/
def isNameStart : Char → Bool :=
  inRuns [(0x61, 0x7A), (0x41, 0x5A), (0x3A, 0x3A), (0x5F, 0x5F), (0xC0, 0xD6), (0xD8, 0xF6),
    (0xF8, 0x2FF), (0x370, 0x37D), (0x37F, 0x1FFF), (0x200C, 0x200D), (0x2070, 0x218F),
    (0x2C00, 0x2FEF), (0x3001, 0xD7FF), (0xF900, 0xFDCF), (0xFDF0, 0xFFFD), (0x10000, 0xEFFFF)]

def isNamePart (c : Char) : Bool :=
  isNameStart c ||
    inRuns [(0x30, 0x39), (0x2D, 0x2E), (0xB7, 0xB7), (0x300, 0x36F), (0x203F, 0x2040)] c

/-- A name as it is written, its qualifier empty if there is none. -/
structure QualifiedName where
  qualifier : String
  localName : String
deriving DecidableEq, Repr

namespace Scan

def spaces : Scan Unit := do
  let _ ← whileIn isSpace

/-- White space, unless the given text follows at once. -/
def spacesBefore (front : List Char) : Scan Unit := do
  let c ← ahead
  if (c.elim false isSpace) then spaces else guard (← beginsWith front)

/-- A name in which colons do not count. -/
def name : Scan (List Char) := do
  let text ← whileIn isNamePart
  guard (text.head?.elim false isNameStart)
  return text

/-- A name with at most one colon, on both sides of which a name begins; before the colon there may
be nothing. -/
def qualifiedName : Scan QualifiedName := do
  let text ← whileIn isNamePart
  let (front, back) := text.span (· ≠ ':')
  let begins (part : List Char) := part.head?.elim false isNameStart
  match back with
  | [] =>
    guard (begins front)
    return ⟨"", String.ofList front⟩
  | _ :: base =>
    guard (front.isEmpty || begins front)
    guard (begins base && !base.contains ':')
    return ⟨String.ofList front, String.ofList base⟩

end Scan
end PetriCode.Xml
