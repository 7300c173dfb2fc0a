import PetriCode.C.Printer

/-! Tables of names: the names of the places or of the transitions of a net in their order, looked
up by position and by name. A position out of range has no name, and everything that is not in the
table, the empty name and a missing one among it, is found at the table's length. -/
namespace PetriCode

structure NameTable where
  array : String
  /-- The type of positions in C. -/
  indexType : String
  /-- The constant in C that is the number of names. -/
  count : String
  names : List String
deriving DecidableEq, Repr

namespace NameTable

def size (table : NameTable) : Nat := table.names.length

def nameOf (table : NameTable) (index : Nat) : Option String := table.names[index]?

def indexOf (table : NameTable) : Option String → Nat
  | none => table.size
  | some name => if name = "" then table.size else table.names.idxOf name

def declaration (table : NameTable) : C.Declaration :=
  .nameArray table.array table.count table.names

def text (table : NameTable) : String := C.joined table.declaration.lines

end NameTable
end PetriCode
