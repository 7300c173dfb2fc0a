import PetriCode.Proofs.Naming.Tables
import PetriCode.Proofs.Pnml.Loading
import PetriCode.Proofs.Xml.Legal

/-! The labels of loaded nets. A label is the value of an attribute or a part of a text, so it is made of
the characters that documents may hold and has no null character. -/
namespace PetriCode
open Xml

namespace Xml.Node

mutual
theorem IsLegal.elements : ∀ {node : Node}, node.IsLegal → ∀ found ∈ node.elements, found.IsLegal
  | .element name attributes children, legal, found, member => by
    obtain rfl | below := List.mem_cons.1 member
    · exact legal
    · cases legal with
      | element _ _ childrenLegal => exact legal_elementsOf childrenLegal found below
  | .text _, _, _, member => by cases member
  | .comment _, _, _, member => by cases member
  | .instruction _ _, _, _, member => by cases member

theorem legal_elementsOf : ∀ {nodes : List Node}, (∀ node ∈ nodes, node.IsLegal) →
    ∀ found ∈ elementsOf nodes, found.IsLegal
  | [], _, _, member => by cases member
  | node :: nodes, legal, found, member => by
    obtain ⟨first, others⟩ := List.forall_mem_cons.1 legal
    obtain inside | behind := List.mem_append.1 member
    · exact IsLegal.elements first found inside
    · exact legal_elementsOf others found behind
end

variable {node : Node} (legal : node.IsLegal)
include legal

theorem IsLegal.children : ∀ child ∈ node.children, child.IsLegal := by
  intro child member
  cases legal with
  | element _ _ below => exact below child member
  | text => cases member
  | comment => cases member
  | instruction => cases member

theorem IsLegal.attribute? {name value : String} (read : node.attribute? name = some value) :
    Legal value.toList := by
  cases legal with
  | element _ values _ =>
    obtain ⟨found, present, rfl⟩ := Option.map_eq_some_iff.1 read
    exact values found (List.mem_of_find?_eq_some present)
  | text => cases read
  | comment => cases read
  | instruction => cases read

theorem IsLegal.child? {name : String} {child : Node} (found : node.child? name = some child) :
    child.IsLegal :=
  legal.children child (List.mem_of_find?_eq_some found)

theorem IsLegal.leadingText? {content : String} (read : node.leadingText? = some content) :
    Legal content.toList := by
  unfold Node.leadingText? at read
  split at read
  · rename_i front rest children
    cases read
    have first := legal.children (.text content) (by simp [children])
    cases first with
    | text contentLegal => exact contentLegal
  · cases read

end Xml.Node

namespace Text

theorem mem_of_mem_trim {text : List Char} {c : Char} (member : c ∈ trim text) : c ∈ text := by
  have kept := List.mem_reverse.1 member
  have inside := (List.dropWhile_suffix isBlank).mem kept
  exact (List.dropWhile_suffix isBlank).mem (List.mem_reverse.1 inside)

end Text

namespace Pnml

theorem legal_annotation {node : Xml.Node} (legal : node.IsLegal) {name text : String}
    (read : annotation? node name = some text) : Legal text.toList := by
  unfold annotation? at read
  obtain ⟨named, found, read⟩ := Option.bind_eq_some_iff.1 read
  obtain ⟨holder, inside, read⟩ := Option.bind_eq_some_iff.1 read
  obtain ⟨content, leading, read⟩ := Option.bind_eq_some_iff.1 read
  have contentLegal := ((legal.child? found).child? inside).leadingText? leading
  dsimp only at read
  split_ifs at read
  cases read
  rw [String.toList_ofList]
  intro c member
  exact contentLegal c (Text.mem_of_mem_trim member)

/-- A label is the name of its node or else its id. -/
theorem legal_label {node : Xml.Node} (legal : node.IsLegal) {id label : String}
    (held : node.Holds "id" id) (labelled : AnnotatesOr node "name" id label) : Legal label.toList := by
  obtain annotated | ⟨_, rfl⟩ := labelled
  · exact legal_annotation legal (annotation?_eq_some_iff.2 annotated)
  · exact legal.attribute? (Node.attribute?_eq_some_iff.2 held)

/-- If legal elements declare legal labels one by one, all that they declare are legal. -/
theorem legal_declared {α : Type} {related : Xml.Node → α → Prop} {label : α → String}
    {nodes : List Xml.Node} {found : List α} (nodesLegal : ∀ node ∈ nodes, node.IsLegal)
    (declared : List.Forall₂ related nodes found)
    (each : ∀ node entry, node.IsLegal → related node entry → Legal (label entry).toList) :
    ∀ entry ∈ found, Legal (label entry).toList := by
  induction declared with
  | nil => simp
  | @cons node entry _ _ relates _ ih =>
    obtain ⟨first, others⟩ := List.forall_mem_cons.1 nodesLegal
    exact List.forall_mem_cons.2 ⟨each node entry first relates, ih others⟩

theorem hasPlainLabels_of_load {root : Xml.Node} (legal : root.IsLegal) {net : Net}
    (loaded : load root = .ok net) : net.HasPlainLabels := by
  unfold load at loaded
  split at loaded
  · cases loaded
  · rename_i inner found
    have innerLegal := legal.elements inner (List.mem_of_find?_eq_some found)
    have elementsLegal := Node.legal_elementsOf innerLegal.children
    have listedLegal (name : String) : ∀ node ∈ (Node.elementsOf inner.children).filter
        (Node.isNamed name), node.IsLegal := fun node listed =>
      elementsLegal node (List.mem_of_mem_filter listed)
    obtain ⟨contents, ⟨places, transitions, _⟩, same⟩ := loadElements_eq_ok_iff.1 loaded
    obtain rfl : net.contents = contents := same
    have placeLabels := legal_declared (listedLegal "place") places fun node place nodeLegal declares =>
      legal_label nodeLegal declares.id declares.label
    have transitionLabels := legal_declared (listedLegal "transition") transitions
      fun node transition nodeLegal declares => legal_label nodeLegal declares.id declares.label
    intro kind label member
    cases kind with
    | place =>
      obtain ⟨place, present, rfl⟩ := List.mem_map.1 member
      exact (placeLabels place present).nul_not_mem
    | transition =>
      obtain ⟨transition, present, rfl⟩ := List.mem_map.1 member
      exact (transitionLabels transition present).nul_not_mem

/-- A net that is loaded from a document has no null character in its labels. -/
theorem hasPlainLabels_of_parse {document : String} {net : Net} (loaded : parse document = .ok net) :
    net.HasPlainLabels := by
  cases found : rootOf document with
  | error fault =>
    rw [parse_of_fault found] at loaded
    cases loaded
  | ok root =>
    rw [parse_of_rootOf found] at loaded
    exact hasPlainLabels_of_load (legal_root found) loaded

end Pnml
end PetriCode
