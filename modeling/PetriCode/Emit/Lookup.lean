import PetriCode.Naming.Assignment

/-! The four lookups in C, two for each table of names: from positions to names and back. -/
namespace PetriCode.Emit
open C

def textHead (module : ModuleName) : NodeKind → Prototype
  | .place =>
    ⟨.constPointer "char", module.lower ++ "_petri_place_str", some ⟨.plain "pn_place", "place"⟩⟩
  | .transition =>
    ⟨.constPointer "char", module.lower ++ "_petri_trans_str", some ⟨.plain "pn_trans", "trans"⟩⟩

def positionHead (module : ModuleName) : NodeKind → Prototype
  | .place =>
    ⟨.plain "pn_place", module.lower ++ "_petri_str_place", some ⟨.constPointer "char", "name"⟩⟩
  | .transition =>
    ⟨.plain "pn_trans", module.lower ++ "_petri_str_trans", some ⟨.constPointer "char", "name"⟩⟩

def positionName : NodeKind → String
  | .place => "place"
  | .transition => "trans"

/-- From a position to a name, or to the null pointer beyond the table. -/
def textBody (table : NameTable) (position : String) : List Statement :=
  if table.names = [] then [.discard position, .returns .null]
  else
    [.returnsIf (.atLeast position table.count) .null,
      .returns (.element table.array position)]

/-- From a name to the first position that has it, or to the table's length. -/
def positionBody (table : NameTable) : List Statement :=
  if table.names = [] then [.discard "name", .returns (.name table.count)]
  else
    [.returnsIf (.either (.isNull "name") (.isEmptyText "name")) (.name table.count),
      .countUp table.indexType "i" table.count
        (.returnsIf (.sameText (.element table.array "i") (.name "name")) (.name "i")),
      .returns (.name table.count)]

def textLookup (naming : Naming) (kind : NodeKind) : Definition :=
  ⟨textHead naming.module kind, [textBody (naming.table kind) (positionName kind)]⟩

def positionLookup (naming : Naming) (kind : NodeKind) : Definition :=
  ⟨positionHead naming.module kind, [positionBody (naming.table kind)]⟩

end PetriCode.Emit
