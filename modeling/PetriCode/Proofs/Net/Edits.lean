import PetriCode.Proofs.Generation

/-! Nets under declarations. A declaration takes the place of the entry with its id, or comes behind all
entries of its kind if the id is new. So no declaration moves an id, however many are made and in
whatever order. -/
namespace PetriCode

def Edit.apply (net : Net) : Edit → Net
  | .place declared => (net.addPlace declared).2
  | .transition declared => (net.addTransition declared).2
  | .arc declared => net.addArc declared

def Edit.place? : Edit → Option Place
  | .place declared => some declared
  | _ => none

def Edit.transition? : Edit → Option Transition
  | .transition declared => some declared
  | _ => none

def Edit.arc? : Edit → Option Arc
  | .arc declared => some declared
  | _ => none

namespace Net

/-- A net after some declarations, made one by one. -/
def edited (net : Net) (edits : List Edit) : Net := edits.foldl Edit.apply net

def nodesOf (net : Net) : NodeKind → List Node
  | .place => net.places.entries.map Place.node
  | .transition => net.transitions.entries.map Transition.node

/-- The ids of the nodes of a kind, in their order. -/
def idsOf (net : Net) (kind : NodeKind) : List String := (net.nodesOf kind).map Node.id

theorem idsOf_eq_keys (net : Net) (kind : NodeKind) : net.idsOf kind = match kind with
    | .place => net.places.keys
    | .transition => net.transitions.keys := by
  cases kind <;>
    simp [idsOf, nodesOf, Roster.keys, Place.node, Transition.node, Function.comp_def]

theorem nodup_idsOf (net : Net) (kind : NodeKind) : (net.idsOf kind).Nodup := by
  rw [idsOf_eq_keys]
  cases kind with
  | place => exact net.places.distinct
  | transition => exact net.transitions.distinct

theorem names_named_nodesOf (net : Net) (module : ModuleName) (kind : NodeKind) :
    (net.named module).names kind = (net.nodesOf kind).map Node.name := by
  cases kind <;> simp [Naming.names, named, nodesOf, Function.comp_def]

/-- One declaration moves no id. -/
theorem idsOf_isPrefix_apply (net : Net) (edit : Edit) (kind : NodeKind) :
    net.idsOf kind <+: (edit.apply net).idsOf kind := by
  rw [idsOf_eq_keys, idsOf_eq_keys]
  cases kind with
  | place =>
    cases edit with
    | place declared => exact net.places.keys_isPrefix_insert declared
    | transition declared => exact List.prefix_rfl
    | arc declared => exact List.prefix_rfl
  | transition =>
    cases edit with
    | place declared => exact List.prefix_rfl
    | transition declared => exact net.transitions.keys_isPrefix_insert declared
    | arc declared => exact List.prefix_rfl

theorem idsOf_isPrefix_edited (net : Net) (edits : List Edit) (kind : NodeKind) :
    net.idsOf kind <+: (net.edited edits).idsOf kind := by
  induction edits generalizing net with
  | nil => exact List.prefix_rfl
  | cons edit edits ih => exact (net.idsOf_isPrefix_apply edit kind).trans (ih (edit.apply net))

end Net
end PetriCode
