import PetriCode.Naming.ModuleName

/-! The register of the names that a module takes in C. The count constants come first, then the
places, then the transitions, and nothing is given a name that is taken. -/
namespace PetriCode

structure Node where
  kind : NodeKind
  id : String
  label : String
deriving DecidableEq, Repr

/-- The name of a node in the generated code: its label in upper case. -/
def Node.name (node : Node) : String := Text.uppercase node.label

def Place.node (place : Place) : Node := ⟨.place, place.id, place.label⟩

def Transition.node (transition : Transition) : Node :=
  ⟨.transition, transition.id, transition.label⟩

/-- What a name is taken for. -/
inductive Owner
  | countConstant
  | node (kind : NodeKind) (label : String)
deriving DecidableEq, Repr

def Owner.text : Owner → String
  | countConstant => "the reserved count constant"
  | node kind label => kind.word ++ " `" ++ label ++ "`"

inductive NamingError
  | emptyLabel (kind : NodeKind) (id : String)
  | duplicate (name : String) (first second : Owner)
deriving DecidableEq, Repr

def NamingError.message : NamingError → String
  | emptyLabel kind id => kind.word ++ " `" ++ id ++ "` has an empty label"
  | duplicate name first second =>
    second.text ++ " normalizes to `" ++ name ++ "`, which is already used by " ++ first.text

structure Claim where
  name : String
  owner : Owner
deriving DecidableEq, Repr

abbrev Register := List Claim

/-- The register in which only the count constants are claimed. -/
def Register.reserved (module : ModuleName) : Register :=
  [⟨module.count .place, .countConstant⟩, ⟨module.count .transition, .countConstant⟩]

/-- Claims the name of a node, which has to be non-empty and free. -/
def Register.claim (register : Register) (node : Node) : Except NamingError Register :=
  let owner := Owner.node node.kind node.label
  if node.name = "" then .error (.emptyLabel node.kind node.id)
  else match register.find? (·.name = node.name) with
    | some first => .error (.duplicate node.name first.owner owner)
    | none => .ok (register ++ [⟨node.name, owner⟩])

end PetriCode
