import PetriCode.Net.Roster

/-! Place/transition nets as they are declared: places and transitions filed under their ids, and
arcs in the order given, each between two ids and inscribed with a text. Nothing here asks whether
an arc's ids are declared or its inscription is a number. -/
namespace PetriCode

/-- Numbers of tokens: what a place holds at first and what an arc moves. -/
abbrev Weight := UInt32

structure Place where
  id : String
  label : String
  marking : Weight
deriving DecidableEq, Repr

structure Transition where
  id : String
  label : String
deriving DecidableEq, Repr

structure Arc where
  source : String
  target : String
  inscription : String
deriving DecidableEq, Repr

structure Net where
  places : Roster Place.id
  transitions : Roster Transition.id
  arcs : List Arc

/-- A declaration of a place, a transition or an arc. -/
inductive Edit
  | place (declared : Place)
  | transition (declared : Transition)
  | arc (declared : Arc)
deriving DecidableEq, Repr

inductive NodeKind
  | place
  | transition
deriving DecidableEq, Repr

def NodeKind.all : List NodeKind := [.place, .transition]

def NodeKind.word : NodeKind → String
  | place => "place"
  | transition => "transition"

namespace Net

def empty : Net := ⟨.empty, .empty, []⟩

/-- Declares a place and hands back the place that had its id. -/
def addPlace (net : Net) (place : Place) : Option Place × Net :=
  let (old, places) := net.places.put place
  (old, { net with places })

def addTransition (net : Net) (transition : Transition) : Option Transition × Net :=
  let (old, transitions) := net.transitions.put transition
  (old, { net with transitions })

def addArc (net : Net) (arc : Arc) : Net :=
  { net with arcs := net.arcs ++ [arc] }

def size (net : Net) : Nat × Nat × Nat :=
  (net.places.size, net.transitions.size, net.arcs.length)

end Net
end PetriCode
