import PetriCode.Proofs.Pnml.Loading
import PetriCode.Proofs.Xml.Change

/-! What of a document has a say in what is loaded from it. Of an element only its name, its attributes and
the annotations that are read of its kind do, and elements of other names are passed over; so two
documents are loaded alike, down to the fault, if the elements of their first nets are. -/
namespace PetriCode.Pnml
open Xml

/-- Two trees from which the same is loaded, or the same fault reported, whatever documents have them. -/
structure LoadsAlike (root other : Xml.Node) : Prop where
  trees : load other = load root
  documents : ∀ document another, root? document = some root → root? another = some other →
    parse another = parse document

theorem parse_of_root? {document : String} {root : Xml.Node} (read : root? document = some root) :
    parse document = load root :=
  parse_of_rootOf (root?_eq_some_iff.1 read)

theorem LoadsAlike.of_load {root other : Xml.Node} (same : load other = load root) :
    LoadsAlike root other :=
  ⟨same, fun _ _ read again => by rw [parse_of_root? read, parse_of_root? again, same]⟩

theorem LoadsAlike.trans {root middle other : Xml.Node} (one : LoadsAlike root middle)
    (two : LoadsAlike middle other) : LoadsAlike root other :=
  .of_load (two.trees.trans one.trees)

/-- A document with a net of some content. -/
def documentOf (content : List Xml.Node) : Xml.Node :=
  .element ⟨none, "pnml"⟩ [] [.element ⟨none, "net"⟩ [] content]

/-- What a text is without the white space around it, if anything is left. -/
def coreOf? (content : String) : Option String :=
  if Text.trim content.toList = [] then none else some (String.ofList (Text.trim content.toList))

/-- What is read of a text element. -/
def textOf? (inner : Xml.Node) : Option String := inner.leadingText?.bind coreOf?

/-- What is read of an annotation. -/
def heldText? (holder : Xml.Node) : Option String := (holder.child? "text").bind textOf?

theorem annotation?_eq (node : Xml.Node) (name : String) :
    annotation? node name = (node.child? name).bind heldText? := rfl

/-- The annotations that are read, each of the elements of a name. -/
inductive IsRead : String → String → Prop
  | label : IsRead "place" "name"
  | marking : IsRead "place" "initialMarking"
  | name : IsRead "transition" "name"
  | inscription : IsRead "arc" "inscription"

section Elements
variable {node other : Xml.Node} {net : Net}

theorem loadElement_of_other (place : node.isNamed "place" = false)
    (transition : node.isNamed "transition" = false) (arc : node.isNamed "arc" = false) :
    loadElement net node = .ok net := by
  rw [loadElement, editOf_of_other place transition arc]
  rfl

/-- Elements of one name with the same attributes and the same annotations are loaded alike. -/
theorem loadElement_congr (keeps : node.Keeps other)
    (annotations : ∀ kind key, node.isNamed kind → IsRead kind key →
      annotation? other key = annotation? node key) :
    loadElement net other = loadElement net node := by
  have names := keeps.isNamed_eq
  have attributes := keeps.attribute?_eq
  have required (element name : String) :
      requiredAttribute other element name = requiredAttribute node element name := by
    rw [requiredAttribute, requiredAttribute, attributes]
  have declared : editOf other = editOf node := by
    unfold editOf
    rw [names, names, names]
    split_ifs with place transition arc
    · rw [placeOf, placeOf, required, annotations _ _ place .label, annotations _ _ place .marking]
    · rw [transitionOf, transitionOf, required, annotations _ _ transition .name]
    · rw [arcOf, arcOf, required, required, annotations _ _ arc .inscription]
    · rfl
  rw [loadElement, loadElement, declared]

end Elements

/-- Loads what the elements among some nodes and below them declare. -/
def loadNodes (net : Net) (nodes : List Xml.Node) : Except LoadError Net :=
  (Node.elementsOf nodes).foldlM loadElement net

theorem loadNodes_append (net : Net) (front back : List Xml.Node) :
    loadNodes net (front ++ back) = loadNodes net front >>= (loadNodes · back) := by
  rw [loadNodes, Node.elementsOf_append, List.foldlM_append]
  rfl

theorem loadNodes_element (net : Net) (own : ExpandedName) (attributes : List Attribute)
    (children : List Xml.Node) : loadNodes net [.element own attributes children] =
      loadElement net (.element own attributes children) >>= (loadNodes · children) := by
  rw [loadNodes, Node.elementsOf, Node.elementsOf, List.append_nil, Node.elements, List.foldlM_cons]
  rfl

/-- An element that declares nothing itself is loaded as what is in it. -/
theorem loadNodes_of_other {node : Xml.Node} (place : node.isNamed "place" = false)
    (transition : node.isNamed "transition" = false) (arc : node.isNamed "arc" = false) (net : Net) :
    loadNodes net [node] = loadNodes net node.children := by
  cases node with
  | element own attributes children =>
    rw [loadNodes_element, loadElement_of_other place transition arc]
    rfl
  | text => rfl
  | comment => rfl
  | instruction => rfl

/-- Nothing else of a node matters than how it is loaded. -/
theorem loadNodes_inside {node other : Xml.Node}
    (alike : ∀ net, loadNodes net [other] = loadNodes net [node]) (net : Net)
    (front back : List Xml.Node) :
    loadNodes net (front ++ other :: back) = loadNodes net (front ++ node :: back) := by
  have single (inner : Xml.Node) : front ++ inner :: back = front ++ [inner] ++ back := by simp
  simp only [single other, single node, loadNodes_append, alike]

/-- Documents are loaded alike if their first nets are. -/
theorem loadsAlike_of_first {root other : Xml.Node}
    (changed : Node.InFirst "net"
      (fun net changed => ∀ start, loadNodes start [changed] = loadNodes start [net]) root other) :
    LoadsAlike root other := by
  have entered {net : Xml.Node} (named : net.isNamed "net") (start : Net) :=
    loadNodes_of_other (isNamed_apart named (by decide))
      (isNamed_apart named (by decide)) (isNamed_apart named (by decide)) start
  obtain ⟨net, next, alike, named, still, found, again⟩ := changed.find?
  refine .of_load ?_
  rw [load, load, found, again]
  have same := alike .empty
  rwa [entered named, entered still] at same

end PetriCode.Pnml
