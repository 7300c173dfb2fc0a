import PetriCode.Net.Basic
import PetriCode.Text.Blank
import PetriCode.Text.Numeral
import PetriCode.Xml.Document

/-! Nets from PNML documents. The first net of a document is read, its places, transitions and arcs
at any depth in document order, and the first fault ends the reading. A node without a name is
labelled by its id, a place without an initial marking is empty, and an arc without an inscription
has weight one. -/
namespace PetriCode.Pnml
open Xml

inductive LoadError
  | malformed
  | missingNet
  | missingAttribute (element name : String)
  | duplicateId (kind : NodeKind) (id : String)
  | invalidMarking (place marking : String)
deriving DecidableEq, Repr

def LoadError.message : LoadError → String
  | malformed => "invalid PNML document"
  | missingNet => "document contains no net"
  | missingAttribute element name =>
    "<" ++ element ++ "> is missing the `" ++ name ++ "` attribute"
  | duplicateId kind id => kind.word ++ " id `" ++ id ++ "` is used more than once"
  | invalidMarking place marking =>
    "initial marking `" ++ marking ++ "` of place `" ++ place ++ "` is not a non-negative integer"

/-- What an annotation of a node holds: the leading text of its text element, without the white
space around it. Blank content is as good as none. -/
def annotation? (node : Xml.Node) (name : String) : Option String := do
  let content ← (← (← node.child? name).child? "text").leadingText?
  let text := Text.trim content.toList
  if text = [] then none else some (String.ofList text)

def requiredAttribute (node : Xml.Node) (element name : String) : Except LoadError String :=
  match node.attribute? name with
  | some value => .ok value
  | none => .error (.missingAttribute element name)

def placeOf (node : Xml.Node) : Except LoadError Place := do
  let id ← requiredAttribute node "place" "id"
  let label := (annotation? node "name").getD id
  match annotation? node "initialMarking" with
  | none => return ⟨id, label, 0⟩
  | some text =>
    match Text.Numeral.read? text.toList with
    | some marking => return ⟨id, label, marking⟩
    | none => .error (.invalidMarking id text)

def transitionOf (node : Xml.Node) : Except LoadError Transition := do
  let id ← requiredAttribute node "transition" "id"
  return ⟨id, (annotation? node "name").getD id⟩

def arcOf (node : Xml.Node) : Except LoadError Arc := do
  let source ← requiredAttribute node "arc" "source"
  let target ← requiredAttribute node "arc" "target"
  return ⟨source, target, (annotation? node "inscription").getD "1"⟩

/-- What an element declares, if it declares anything. -/
def editOf (node : Xml.Node) : Except LoadError (Option Edit) := do
  if node.isNamed "place" then return some (.place (← placeOf node))
  else if node.isNamed "transition" then return some (.transition (← transitionOf node))
  else if node.isNamed "arc" then return some (.arc (← arcOf node))
  else return none

/-- A net to which an entry has been added that took the place of none. -/
def unlessReplaced {α : Type} (kind : NodeKind) (id : String) :
    Option α × Net → Except LoadError Net
  | (none, net) => .ok net
  | (some _, _) => .error (.duplicateId kind id)

/-- Adds what is declared to a net. Unlike in a net that is declared by hand, no id may come twice. -/
def accept (net : Net) : Edit → Except LoadError Net
  | .place place => unlessReplaced .place place.id (net.addPlace place)
  | .transition transition =>
    unlessReplaced .transition transition.id (net.addTransition transition)
  | .arc arc => .ok (net.addArc arc)

def loadElement (net : Net) (node : Xml.Node) : Except LoadError Net := do
  match ← editOf node with
  | none => return net
  | some edit => accept net edit

def load (root : Xml.Node) : Except LoadError Net :=
  match root.elements.find? (·.isNamed "net") with
  | none => .error .missingNet
  | some net => (Node.elementsOf net.children).foldlM loadElement .empty

/-- A fault of loading with its cause, where it has one: what keeps the text from being a document. -/
structure Failure where
  error : LoadError
  cause : Option Xml.Fault
deriving DecidableEq, Repr

/-- A failure is taken for its error where no cause is asked for. -/
instance : Coe Failure LoadError := ⟨Failure.error⟩

def Failure.report (failure : Failure) : String :=
  failure.error.message ++ failure.cause.elim "" (": " ++ ·.message)

def read (document : String) : Except Failure Net :=
  match rootOf document with
  | .error cause => .error ⟨.malformed, some cause⟩
  | .ok root => (load root).mapError (⟨·, none⟩)

def parse (document : String) : Except LoadError Net := (read document).mapError Failure.error

theorem parse_of_fault {document : String} {cause : Xml.Fault} (failed : rootOf document = .error cause) :
    parse document = .error .malformed := by
  rw [parse, read, failed]
  rfl

theorem parse_of_rootOf {document : String} {root : Xml.Node} (found : rootOf document = .ok root) :
    parse document = load root := by
  simp only [parse, read, found]
  cases load root <;> rfl

end PetriCode.Pnml
