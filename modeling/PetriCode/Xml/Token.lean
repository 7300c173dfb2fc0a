import PetriCode.Xml.Content

/-! The tokens of a document: tags, character data, CDATA sections, comments and instructions.
Whether the tags match and where character data may stand is not asked here. -/
namespace PetriCode.Xml

structure WrittenAttribute where
  name : QualifiedName
  value : String
deriving DecidableEq, Repr

inductive Token
  /-- A tag that opens an element, and closes it too if it is the tag of an empty one. -/
  | opening (name : QualifiedName) (attributes : List WrittenAttribute) (closes : Bool)
  | closing (name : QualifiedName)
  | characters (raw : List Char)
  | cdata (raw : List Char)
  | comment (content : String)
  | instruction (target content : String)
deriving DecidableEq, Repr

namespace Scan

/-- A name and the characters of its value as they are written between quotes. -/
def assignment : Scan (QualifiedName × List Char) := do
  let name ← qualifiedName
  spaces
  exactly ['=']
  spaces
  let quote ← next
  guard (quote == '"' || quote == '\'')
  let raw ← whileIn fun c => c != quote && c != '<'
  exactly [quote]
  guard (raw.all isXmlChar)
  return (name, raw)

def writtenAttribute : Scan WrittenAttribute := do
  let (name, raw) ← assignment
  return ⟨name, ← lift (attributeValue? raw)⟩

/-- Attributes with white space before each of them, and white space at their end. -/
def attributesAfter (done : List WrittenAttribute) (text : List Char) :
    Option (List WrittenAttribute × Rest text) :=
  match text with
  | [] => none
  | c :: rest =>
    if isSpace c then
      match rest.dropWhile isSpace, length_dropWhile_le isSpace rest with
      | [], _ => none
      | c :: others, shorter =>
        if c = '/' ∨ c = '>' then
          some (done.reverse, ⟨c :: others, Nat.le_succ_of_le shorter⟩)
        else
          match writtenAttribute (c :: others) with
          | none => none
          | some (found, ⟨after, left⟩) =>
            match attributesAfter (found :: done) after with
            | none => none
            | some (all, ⟨last, least⟩) =>
              some (all, ⟨last, Nat.le_succ_of_le (Nat.le_trans least (Nat.le_trans left shorter))⟩)
    else some (done.reverse, ⟨c :: rest, Nat.le_refl _⟩)
termination_by text.length
decreasing_by exact Nat.lt_succ_of_le (Nat.le_trans left shorter)

def attributes : Scan (List WrittenAttribute) := attributesAfter []

def openingTag : Scan Token := do
  let name ← qualifiedName
  let found ← attributes
  let closes := (← ahead) == some '/'
  exactly (if closes then ['/', '>'] else ['>'])
  return .opening name found closes

def closingTag : Scan Token := do
  exactly ['/']
  let name ← qualifiedName
  spaces
  exactly ['>']
  return .closing name

/-- No two hyphens stand in a comment, and none at its end. -/
def comment : Scan Token := do
  exactly "!--".toList
  let content ← upTo "-->".toList
  guard (content.all isXmlChar)
  guard ((upTo "--".toList content).isNone && content.getLast? != some '-')
  return .comment (String.ofList content)

def cdata : Scan Token := do
  exactly "![CDATA[".toList
  let content ← upTo "]]>".toList
  guard (content.all isXmlChar)
  return .cdata content

/-- An instruction; the declaration of a document is none. -/
def instruction : Scan Token := do
  guard !(← beginsWith "?xml ".toList)
  exactly ['?']
  let target ← name
  spaces
  let content ← upTo "?>".toList
  guard (content.all isXmlChar)
  return .instruction (String.ofList target) (String.ofList content)

def markup : Scan Token := do
  if ← beginsWith ['/'] then closingTag
  else if ← beginsWith "!--".toList then comment
  else if ← beginsWith ['!'] then cdata
  else if ← beginsWith ['?'] then instruction
  else openingTag

/-- The declaration at the start of a document: its version, and then its encoding and whether it
stands alone, where they are given. The values say nothing here. -/
def declaration : Scan Unit := do
  let finish := "?>".toList
  exactly "<?xml".toList
  spacesBefore finish
  guard (← beginsWith "version".toList)
  let _ ← assignment
  spacesBefore finish
  if ← beginsWith "encoding".toList then
    let _ ← assignment
    spacesBefore finish
  if ← beginsWith "standalone".toList then
    let _ ← assignment
  spaces
  exactly finish

end Scan

/-- The tokens of a text, after those that have been read already. -/
def tokensAfter (done : List Token) (text : List Char) : Option (List Token) :=
  match text with
  | [] => some done.reverse
  | c :: rest =>
    if c = '<' then
      match Scan.markup rest with
      | none => none
      | some (token, after) => tokensAfter (token :: done) after.val
    else
      let raw := c :: rest.takeWhile (· ≠ '<')
      if raw.all isXmlChar then
        tokensAfter (.characters raw :: done) (rest.dropWhile (· ≠ '<'))
      else none
termination_by text.length
decreasing_by
  · exact Nat.lt_succ_of_le after.property
  · exact Nat.lt_succ_of_le (Scan.length_dropWhile_le _ _)

def withoutMark (text : List Char) : List Char :=
  if text.head? = some '\uFEFF' then text.tail else text

def tokens? (document : List Char) : Option (List Token) := do
  let text := withoutMark document
  if "<?xml ".toList.isPrefixOf text then
    let ((), after) ← Scan.declaration text
    tokensAfter [] after.val
  else tokensAfter [] text

end PetriCode.Xml
