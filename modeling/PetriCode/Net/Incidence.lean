import PetriCode.Net.Basic
import PetriCode.Text.Blank
import PetriCode.Text.Numeral

/-! Incidences: arcs whose two ends have been found among the places and transitions and whose
inscription has been read. An arc is looked at in a fixed order: its inscription, its source, its
target, and last whether the two ends are of different kinds. -/
namespace PetriCode

inductive Direction
  /-- From a place to a transition. -/
  | input
  /-- From a transition to a place. -/
  | output
deriving DecidableEq, Repr

/-- An arc between the place and the transition at two positions. -/
structure Incidence where
  direction : Direction
  place : Nat
  transition : Nat
  weight : Weight
deriving DecidableEq, Repr

inductive ArcFault
  | inscription (text : String)
  | zeroWeight
  | unknownEndpoint (id : String)
  | ambiguousEndpoint (id : String)
  | placeToPlace
  | transitionToTransition
deriving DecidableEq, Repr

def ArcFault.message : ArcFault → String
  | inscription text => "inscription `" ++ text ++ "` is not an integer"
  | zeroWeight => "inscription must be positive"
  | unknownEndpoint id => "`" ++ id ++ "` is neither a place nor a transition"
  | ambiguousEndpoint id => "`" ++ id ++ "` is both a place and a transition"
  | placeToPlace => "cannot connect two places"
  | transitionToTransition => "cannot connect two transitions"

/-- A faulty arc of a net, with its number among the arcs. -/
structure MalformedArc where
  index : Nat
  source : String
  target : String
  fault : ArcFault
deriving DecidableEq, Repr

/-- The position that an id has among the places or among the transitions. -/
inductive Endpoint
  | place (position : Nat)
  | transition (position : Nat)
deriving DecidableEq, Repr

def Net.endpoint (net : Net) (id : String) : Except ArcFault Endpoint :=
  match net.places.position? id, net.transitions.position? id with
  | some position, none => .ok (.place position)
  | none, some position => .ok (.transition position)
  | some _, some _ => .error (.ambiguousEndpoint id)
  | none, none => .error (.unknownEndpoint id)

/-- The positive number that an inscription denotes, white space around it aside. -/
def weightOf (inscription : String) : Except ArcFault Weight :=
  match Text.Numeral.read? (Text.trim inscription.toList) with
  | none => .error (.inscription inscription)
  | some weight => if weight = 0 then .error .zeroWeight else .ok weight

def Incidence.between (weight : Weight) : Endpoint → Endpoint → Except ArcFault Incidence
  | .place place, .transition transition => .ok ⟨.input, place, transition, weight⟩
  | .transition transition, .place place => .ok ⟨.output, place, transition, weight⟩
  | .place _, .place _ => .error .placeToPlace
  | .transition _, .transition _ => .error .transitionToTransition

def Net.incidence (net : Net) (arc : Arc) : Except ArcFault Incidence := do
  let weight ← weightOf arc.inscription
  let source ← net.endpoint arc.source
  let target ← net.endpoint arc.target
  Incidence.between weight source target

/-- The incidences of the arcs, in their order, up to the first faulty arc. -/
def Net.incidences (net : Net) : Except MalformedArc (List Incidence) :=
  net.arcs.zipIdx.mapM fun (arc, index) =>
    (net.incidence arc).mapError fun fault => ⟨index, arc.source, arc.target, fault⟩

end PetriCode
