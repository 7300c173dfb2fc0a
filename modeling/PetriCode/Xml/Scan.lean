/-! Scanners: functions that read the front of a text and leave the rest, or refuse. That the rest
is never longer than the text is part of what a scanner returns, so that loops over scanners can
be seen to end. -/
namespace PetriCode.Xml

abbrev Rest (text : List Char) := { rest : List Char // rest.length ≤ text.length }

def Scan (α : Type) := (text : List Char) → Option (α × Rest text)

namespace Scan
variable {α β : Type}

protected def pure (value : α) : Scan α := fun text => some (value, ⟨text, Nat.le_refl _⟩)

protected def bind (first : Scan α) (next : α → Scan β) : Scan β := fun text =>
  match first text with
  | none => none
  | some (value, middle) =>
    match next value middle.val with
    | none => none
    | some (result, rest) => some (result, ⟨rest.val, Nat.le_trans rest.property middle.property⟩)

instance : Monad Scan where
  pure := Scan.pure
  bind := Scan.bind

def fail : Scan α := fun _ => none

def guard (condition : Bool) : Scan Unit := if condition then Scan.pure () else fail

def lift (value : Option α) : Scan α := value.elim fail Scan.pure

def next : Scan Char := fun text =>
  match text with
  | [] => none
  | c :: rest => some (c, ⟨rest, Nat.le_succ _⟩)

/-- The first character, which is left where it is. -/
def ahead : Scan (Option Char) := fun text => some (text.head?, ⟨text, Nat.le_refl _⟩)

/-- Whether the text begins with the given one, which is left where it is. -/
def beginsWith (front : List Char) : Scan Bool := fun text =>
  some (front.isPrefixOf text, ⟨text, Nat.le_refl _⟩)

def exactly (front : List Char) : Scan Unit := fun text =>
  if front.isPrefixOf text then
    some ((), ⟨text.drop front.length, by rw [List.length_drop]; exact Nat.sub_le _ _⟩)
  else none

theorem length_dropWhile_le (p : Char → Bool) (text : List Char) :
    (text.dropWhile p).length ≤ text.length :=
  (List.dropWhile_sublist p).length_le

def whileIn (p : Char → Bool) : Scan (List Char) := fun text =>
  some (text.takeWhile p, ⟨text.dropWhile p, length_dropWhile_le p text⟩)

/-- Reads up to the first occurrence of a mark and over it. -/
def through (mark : List Char) (before : List Char) : Scan (List Char) := fun text =>
  match text with
  | [] => none
  | c :: rest =>
    if mark.isPrefixOf (c :: rest) then
      some (before.reverse, ⟨(c :: rest).drop mark.length, by
        rw [List.length_drop]; exact Nat.sub_le _ _⟩)
    else
      match through mark (c :: before) rest with
      | none => none
      | some (value, after) => some (value, ⟨after.val, Nat.le_succ_of_le after.property⟩)

def upTo (mark : List Char) : Scan (List Char) := through mark []

end Scan
end PetriCode.Xml
