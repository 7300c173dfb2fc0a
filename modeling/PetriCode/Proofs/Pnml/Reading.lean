import PetriCode.Pnml.Load
import PetriCode.Proofs.Net.Connection

/-! What the elements of a document declare, said of their attributes and children alone. An annotation is
the text with which the first text element of the first element of its name begins, without the white
space around it, and there is none if nothing is left. -/
namespace PetriCode
open Xml

namespace Xml.Node

/-- A node has a value under a local name. Of several attributes with the name the first one counts. -/
def Holds (node : Node) (name value : String) : Prop :=
  ∃ own before counted after children,
    node = .element own (before ++ counted :: after) children ∧
      counted.name.localName = name ∧ counted.value = value ∧
      ∀ earlier ∈ before, earlier.name.localName ≠ name

/-- The first child of a node that is an element with a local name. -/
def FirstChild (node : Node) (name : String) (child : Node) : Prop :=
  ∃ before after, node.children = before ++ child :: after ∧ child.isNamed name ∧
    ∀ earlier ∈ before, earlier.isNamed name = false

/-- The text with which the content of a node begins. -/
def Begins (node : Node) (content : String) : Prop :=
  ∃ rest, node.children = .text content :: rest

variable {node child : Node} {name value content : String}

theorem attribute?_eq_some_iff : node.attribute? name = some value ↔ node.Holds name value := by
  cases node with
  | element own attributes children =>
    simp only [attribute?, Option.map_eq_some_iff, List.find?_eq_some_iff_append, beq_iff_eq,
      Bool.not_eq_true', beq_eq_false_iff_ne]
    constructor
    · rintro ⟨counted, ⟨named, before, after, rfl, others⟩, same⟩
      exact ⟨own, before, counted, after, children, rfl, named, same, others⟩
    · rintro ⟨_, before, counted, after, _, same, named, read, others⟩
      cases same
      exact ⟨counted, ⟨named, before, after, rfl, others⟩, read⟩
  | text => simp [attribute?, Holds]
  | comment => simp [attribute?, Holds]
  | instruction => simp [attribute?, Holds]

theorem child?_eq_some_iff : node.child? name = some child ↔ node.FirstChild name child := by
  simp only [child?, List.find?_eq_some_iff_append, Bool.not_eq_true']
  constructor
  · rintro ⟨named, before, after, children, others⟩
    exact ⟨before, after, children, named, others⟩
  · rintro ⟨before, after, children, named, others⟩
    exact ⟨named, before, after, children, others⟩

theorem leadingText?_eq_some_iff : node.leadingText? = some content ↔ node.Begins content := by
  unfold leadingText? Begins
  split
  · rename_i front rest children
    simp [children]
  · rename_i other
    simpa using fun rest children => other content rest children

end Xml.Node

namespace Pnml
variable {node : Xml.Node} {name text default : String}

/-- What is annotated to a node under a name. -/
def Annotates (node : Xml.Node) (name text : String) : Prop :=
  ∃ holder inner content, node.FirstChild name holder ∧ holder.FirstChild "text" inner ∧
    inner.Begins content ∧ Text.Trimmed content.toList text.toList ∧ text ≠ ""

/-- What is annotated to a node under a name, or the text that stands for it where there is nothing. -/
def AnnotatesOr (node : Xml.Node) (name default text : String) : Prop :=
  Annotates node name text ∨ (∀ other, ¬ Annotates node name other) ∧ text = default

theorem annotation?_eq_some_iff : annotation? node name = some text ↔ Annotates node name text := by
  have nothing (content : String) : Text.trim content.toList = [] ↔
      String.ofList (Text.trim content.toList) = "" := by
    rw [← String.toList_inj, String.toList_ofList, String.toList_empty]
  simp only [annotation?, Option.bind_eq_bind, Option.bind_eq_some_iff, Node.child?_eq_some_iff,
    Node.leadingText?_eq_some_iff, Option.ite_none_left_eq_some, Option.some.injEq,
    Annotates, Text.trimmed_iff, nothing]
  constructor
  · rintro ⟨holder, first, inner, second, content, begins, inhabited, rfl⟩
    exact ⟨holder, inner, content, first, second, begins, by simp, inhabited⟩
  · rintro ⟨holder, inner, content, first, second, begins, trimmed, inhabited⟩
    have same : String.ofList (Text.trim content.toList) = text := by
      rw [← trimmed, String.ofList_toList]
    exact ⟨holder, first, inner, second, content, begins, same ▸ inhabited, same⟩

theorem annotation?_eq_none_iff : annotation? node name = none ↔ ∀ text, ¬ Annotates node name text := by
  simp [Option.eq_none_iff_forall_ne_some, annotation?_eq_some_iff]

theorem getD_annotation?_eq_iff :
    (annotation? node name).getD default = text ↔ AnnotatesOr node name default text := by
  unfold AnnotatesOr
  simp only [← annotation?_eq_some_iff]
  cases annotation? node name with
  | none => simp [eq_comm]
  | some found => simp

/-- What a place element declares. Where no marking is annotated there are no tokens. -/
structure DeclaresPlace (node : Xml.Node) (place : Place) : Prop where
  id : node.Holds "id" place.id
  label : AnnotatesOr node "name" place.id place.label
  marking : (∃ text, Annotates node "initialMarking" text ∧
      Text.Numeral.Denotes text.toList place.marking.toNat) ∨
    (∀ text, ¬ Annotates node "initialMarking" text) ∧ place.marking.toNat = 0

structure DeclaresTransition (node : Xml.Node) (transition : Transition) : Prop where
  id : node.Holds "id" transition.id
  label : AnnotatesOr node "name" transition.id transition.label

structure DeclaresArc (node : Xml.Node) (arc : Arc) : Prop where
  source : node.Holds "source" arc.source
  target : node.Holds "target" arc.target
  inscription : AnnotatesOr node "inscription" "1" arc.inscription

theorem requiredAttribute_eq_ok_iff {element value : String} :
    requiredAttribute node element name = .ok value ↔ node.Holds name value := by
  rw [← Node.attribute?_eq_some_iff, requiredAttribute]
  cases node.attribute? name with
  | none => simp
  | some found => simp

theorem requiredAttribute_eq_error_iff {element : String} {fault : LoadError} :
    requiredAttribute node element name = .error fault ↔
      fault = .missingAttribute element name ∧ ∀ value, ¬ node.Holds name value := by
  simp only [← Node.attribute?_eq_some_iff, requiredAttribute]
  cases node.attribute? name with
  | none => simp [eq_comm]
  | some found => simp

theorem placeOf_eq_ok_iff {place : Place} : placeOf node = .ok place ↔ DeclaresPlace node place := by
  unfold placeOf
  simp only [bind_eq_ok_iff, requiredAttribute_eq_ok_iff]
  constructor
  · rintro ⟨id, holds, made⟩
    split at made
    · rename_i absent
      cases made
      exact ⟨holds, getD_annotation?_eq_iff.1 rfl, .inr ⟨annotation?_eq_none_iff.1 absent, rfl⟩⟩
    · rename_i text annotated
      split at made
      · rename_i marking read
        cases made
        exact ⟨holds, getD_annotation?_eq_iff.1 rfl,
          .inl ⟨text, annotation?_eq_some_iff.1 annotated, Text.Numeral.read?_eq_some_iff.1 read⟩⟩
      · cases made
  · rintro ⟨holds, label, marking⟩
    refine ⟨_, holds, ?_⟩
    rw [getD_annotation?_eq_iff.2 label]
    obtain ⟨text, annotated, denotes⟩ | ⟨absent, empty⟩ := marking
    · simp only [annotation?_eq_some_iff.2 annotated, Text.Numeral.read?_eq_some_iff.2 denotes]
      rfl
    · have zero : place.marking = 0 := UInt32.toNat_inj.1 empty
      simp only [annotation?_eq_none_iff.2 absent, ← zero]
      rfl

theorem transitionOf_eq_ok_iff {transition : Transition} :
    transitionOf node = .ok transition ↔ DeclaresTransition node transition := by
  unfold transitionOf
  simp only [bind_eq_ok_iff, requiredAttribute_eq_ok_iff]
  constructor
  · rintro ⟨id, holds, made⟩
    cases made
    exact ⟨holds, getD_annotation?_eq_iff.1 rfl⟩
  · rintro ⟨holds, label⟩
    exact ⟨_, holds, by rw [getD_annotation?_eq_iff.2 label]; rfl⟩

theorem arcOf_eq_ok_iff {arc : Arc} : arcOf node = .ok arc ↔ DeclaresArc node arc := by
  unfold arcOf
  simp only [bind_eq_ok_iff, requiredAttribute_eq_ok_iff]
  constructor
  · rintro ⟨source, begins, target, ends, made⟩
    cases made
    exact ⟨begins, ends, getD_annotation?_eq_iff.1 rfl⟩
  · rintro ⟨begins, ends, inscription⟩
    exact ⟨_, begins, _, ends, by rw [getD_annotation?_eq_iff.2 inscription]; rfl⟩

theorem exists_annotatesOr (node : Xml.Node) (name default : String) :
    ∃ text, AnnotatesOr node name default text :=
  ⟨_, getD_annotation?_eq_iff.1 rfl⟩

/-- A place element declares a place just if it has an id and the marking annotated to it, if there is one, is
a number that fits. -/
theorem exists_declaresPlace_iff : (∃ place, DeclaresPlace node place) ↔
    (∃ id, node.Holds "id" id) ∧ ∀ text, Annotates node "initialMarking" text →
      ∃ value ≤ 4294967295, Text.Numeral.Denotes text.toList value := by
  constructor
  · rintro ⟨place, id, _, marking⟩
    refine ⟨⟨_, id⟩, ?_⟩
    intro text annotated
    obtain ⟨other, again, denotes⟩ | ⟨absent, _⟩ := marking
    · rw [← annotation?_eq_some_iff] at annotated again
      cases annotated.symm.trans again
      exact ⟨_, Nat.le_of_lt_succ place.marking.toNat_lt_size, denotes⟩
    · exact absurd annotated (absent text)
  · rintro ⟨⟨id, holds⟩, fits⟩
    obtain ⟨label, labelled⟩ := exists_annotatesOr node "name" id
    by_cases annotated : ∃ text, Annotates node "initialMarking" text
    · obtain ⟨text, annotated⟩ := annotated
      obtain ⟨value, small, denotes⟩ := fits text annotated
      have kept : (UInt32.ofNat value).toNat = value :=
        UInt32.toNat_ofNat_of_lt' (Nat.lt_succ_of_le small)
      rw [← kept] at denotes
      exact ⟨⟨id, label, .ofNat value⟩, holds, labelled, .inl ⟨text, annotated, denotes⟩⟩
    · exact ⟨⟨id, label, 0⟩, holds, labelled, .inr ⟨not_exists.1 annotated, rfl⟩⟩

theorem exists_declaresTransition_iff :
    (∃ transition, DeclaresTransition node transition) ↔ ∃ id, node.Holds "id" id := by
  constructor
  · rintro ⟨transition, id, _⟩
    exact ⟨_, id⟩
  · rintro ⟨id, holds⟩
    obtain ⟨label, labelled⟩ := exists_annotatesOr node "name" id
    exact ⟨⟨id, label⟩, holds, labelled⟩

theorem exists_declaresArc_iff : (∃ arc, DeclaresArc node arc) ↔
    (∃ source, node.Holds "source" source) ∧ ∃ target, node.Holds "target" target := by
  constructor
  · rintro ⟨arc, source, target, _⟩
    exact ⟨⟨_, source⟩, ⟨_, target⟩⟩
  · rintro ⟨⟨source, begins⟩, ⟨target, ends⟩⟩
    obtain ⟨inscription, inscribed⟩ := exists_annotatesOr node "inscription" "1"
    exact ⟨⟨source, target, inscription⟩, begins, ends, inscribed⟩

end Pnml
end PetriCode
