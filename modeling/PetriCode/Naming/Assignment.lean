import PetriCode.Naming.NameTable
import PetriCode.Naming.Register

/-! The names of a net in a module, those of the places and those of the transitions. The position of a name
is that of its node. -/
namespace PetriCode

structure Naming where
  module : ModuleName
  places : List String
  transitions : List String

namespace Naming

def names (naming : Naming) : NodeKind → List String
  | .place => naming.places
  | .transition => naming.transitions

def count (naming : Naming) (kind : NodeKind) : String := naming.module.count kind

/-- The name at a position, and beyond the last one the constant with that value. -/
def nameAt (naming : Naming) (kind : NodeKind) (position : Nat) : String :=
  (naming.names kind)[position]?.getD (naming.count kind)

def indexType : NodeKind → String
  | .place => "pn_place"
  | .transition => "pn_trans"

def table (naming : Naming) (kind : NodeKind) : NameTable :=
  ⟨naming.module.nameArray kind, indexType kind, naming.count kind, naming.names kind⟩

end Naming

end PetriCode
