import PetriCode.Naming.Assignment

/-! The names of a net gathered one by one, those of the places first. Each name is claimed and then filed under
itself, that of a place with its marking. A name in use would take the place of the old one, and every
position behind it would be off by one; but the register refuses such a name. -/
namespace PetriCode

/-- The names that have been claimed, with those of the places and of the transitions filed under themselves. -/
structure Gathering where
  module : ModuleName
  register : Register
  places : Roster (Prod.fst : String × Weight → String)
  transitions : Roster (id : String → String)

namespace Gathering

def begun (module : ModuleName) : Gathering := ⟨module, .reserved module, .empty, .empty⟩

/-- Claims the name of a node and files what belongs to it. -/
def add (gathering : Gathering) (node : Node) (file : Gathering → Gathering) :
    Except NamingError Gathering := do
  return file { gathering with register := ← gathering.register.claim node }

def addPlace (gathering : Gathering) (place : Place) : Except NamingError Gathering :=
  gathering.add place.node fun claimed =>
    { claimed with places := claimed.places.insert (place.node.name, place.marking) }

def addTransition (gathering : Gathering) (transition : Transition) :
    Except NamingError Gathering :=
  gathering.add transition.node fun claimed =>
    { claimed with transitions := claimed.transitions.insert transition.node.name }

def naming (gathering : Gathering) : Naming :=
  ⟨gathering.module, gathering.places.keys, gathering.transitions.keys⟩

end Gathering

namespace Net

def gathering (net : Net) (module : ModuleName) : Except NamingError Gathering := do
  let placed ← net.places.entries.foldlM Gathering.addPlace (.begun module)
  net.transitions.entries.foldlM Gathering.addTransition placed

def naming (net : Net) (module : ModuleName) : Except NamingError Naming := do
  return (← net.gathering module).naming

end Net
end PetriCode
