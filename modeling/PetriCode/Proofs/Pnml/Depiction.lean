import PetriCode.Proofs.Net.History
import PetriCode.Proofs.Pnml.Influence

/-! Documents that depict a net. Each place, each transition and each arc has an element, in any order that keeps
that of each kind, and what has a default may be left out where the default is meant. From every such
document the net is loaded again. -/
namespace PetriCode
open Xml

/-- What is written of a declaration is not blank and has no white space at its ends. -/
def Edit.HasTidyText : Edit → Prop
  | .place declared => Text.Tidy declared.label
  | .transition declared => Text.Tidy declared.label
  | .arc declared => Text.Tidy declared.inscription

/-- The labels and the inscriptions of a net are not blank and have no white space at their ends. -/
structure Net.HasTidyTexts (net : Net) : Prop where
  places : ∀ place ∈ net.places.entries, Text.Tidy place.label
  transitions : ∀ transition ∈ net.transitions.entries, Text.Tidy transition.label
  arcs : ∀ arc ∈ net.arcs, Text.Tidy arc.inscription

theorem Text.tidy_write (value : UInt32) : Text.Tidy (Text.Numeral.write value) :=
  have denotes := Text.Numeral.denotes_write value
  Text.tidy_of_visible denotes.inhabited denotes.solid

namespace Pnml

theorem coreOf?_padded {core content : String} (tidy : Text.Tidy core)
    (padded : Text.Padded core content) : coreOf? content = some core := by
  obtain ⟨before, after, whole, blankBefore, blankAfter⟩ := padded
  have trimmed := Text.trim_padded blankBefore blankAfter tidy.head tidy.last
  have inhabited : core.toList ≠ [] := by
    simpa using tidy.inhabited
  rw [coreOf?, whole, trimmed, if_neg inhabited, String.ofList_toList]

/-- An element that annotates some text and nothing else. -/
inductive IsCaption (key content : String) : Xml.Node → Prop
  | intro {own inner : ExpandedName} {attributes others : List Attribute} (named : own.localName = key)
    (text : inner.localName = "text") :
    IsCaption key content (.element own attributes [.element inner others [.text content]])

/-- A text annotated with any white space around it, or nothing where that says the same. -/
inductive Annotated (key text : String) (silent : Prop) : List Xml.Node → Prop
  | absent (silence : silent) : Annotated key text silent []
  | present {content : String} {node : Xml.Node} (padded : Text.Padded text content)
    (caption : IsCaption key content node) : Annotated key text silent [node]

/-- An element that depicts a place, a transition or an arc. A label that is the id need not be written, nor a
marking without tokens, nor an inscription that is `1`. -/
inductive Depicts : Edit → Xml.Node → Prop
  | place {place : Place} {own : ExpandedName} {attributes : List Attribute}
    {names markings children : List Xml.Node} (named : own.localName = "place")
    (id : (Node.element own attributes children).Holds "id" place.id)
    (label : Annotated "name" place.label (place.label = place.id) names)
    (marking : Annotated "initialMarking" (Text.Numeral.write place.marking) (place.marking = 0)
      markings)
    (content : children = names ++ markings ∨ children = markings ++ names) :
    Depicts (.place place) (.element own attributes children)
  | transition {transition : Transition} {own : ExpandedName} {attributes : List Attribute}
    {names : List Xml.Node} (named : own.localName = "transition")
    (id : (Node.element own attributes names).Holds "id" transition.id)
    (label : Annotated "name" transition.label (transition.label = transition.id) names) :
    Depicts (.transition transition) (.element own attributes names)
  | arc {arc : Arc} {own : ExpandedName} {attributes : List Attribute}
    {inscriptions : List Xml.Node} (named : own.localName = "arc")
    (source : (Node.element own attributes inscriptions).Holds "source" arc.source)
    (target : (Node.element own attributes inscriptions).Holds "target" arc.target)
    (inscription : Annotated "inscription" arc.inscription (arc.inscription = "1") inscriptions) :
    Depicts (.arc arc) (.element own attributes inscriptions)

/-- A document with one net, whose elements depict the places, the transitions and the arcs of a net, each kind in
its order. -/
inductive Shows (net : Net) : Xml.Node → Prop
  | intro {own inner : ExpandedName} {attributes others : List Attribute} {edits : List Edit}
    {children : List Xml.Node} (document : own.localName = "pnml") (inside : inner.localName = "net")
    (made : Contents.of edits = net.contents) (depicts : List.Forall₂ Depicts edits children) :
    Shows net (.element own attributes [.element inner others children])

section Annotations
variable {key content text : String} {silent : Prop} {node : Xml.Node} {mine others : List Xml.Node}

theorem IsCaption.isNamed_iff (caption : IsCaption key content node) (name : String) :
    node.isNamed name ↔ key = name := by
  obtain ⟨rfl, _⟩ := caption
  exact Node.isNamed_element

theorem IsCaption.heldText?_eq (caption : IsCaption key content node) :
    heldText? node = coreOf? content := by
  obtain ⟨_, inside⟩ := caption
  simp [heldText?, Node.child?, Node.children, Node.isNamed, inside, textOf?, Node.leadingText?]

theorem Annotated.isNamed_eq_false (annotated : Annotated key text silent mine) {name : String}
    (apart : key ≠ name) : ∀ node ∈ mine, node.isNamed name = false := by
  cases annotated with
  | absent => simp
  | present _ caption =>
    intro node member
    rw [List.mem_singleton.1 member]
    exact Bool.eq_false_iff.2 (mt (caption.isNamed_iff name).1 apart)

theorem Annotated.declares_nothing (annotated : Annotated key text silent mine)
    (apart : key ∉ ["place", "transition", "arc"]) :
    (Listing.of (Node.elementsOf mine)).Declares .empty := by
  cases annotated with
  | absent => exact Listing.declares_nil_iff.2 rfl
  | present _ caption =>
    obtain ⟨rfl, inside⟩ := caption
    simp only [List.mem_cons, List.not_mem_nil, or_false, not_or] at apart
    simp [Node.elementsOf, Node.elements, Listing.of, Node.isNamed, inside, apart, Listing.declares_iff,
      Contents.empty]

/-- What is read of an annotation is the text that is written, wherever among others it stands. -/
theorem Annotated.annotation?_eq (annotated : Annotated key text silent mine) (tidy : Text.Tidy text)
    (apart : ∀ node ∈ others, node.isNamed key = false) {own : ExpandedName}
    {attributes : List Attribute} {children : List Xml.Node}
    (content : children = mine ++ others ∨ children = others ++ mine) :
    silent ∧ annotation? (.element own attributes children) key = none ∨
      annotation? (.element own attributes children) key = some text := by
  -- No other child has the name, so the search ends at the annotation on whichever side of them it stands.
  have nothing : others.find? (Node.isNamed key) = none :=
    List.find?_eq_none.2 fun node member => by simp [apart node member]
  have found : children.find? (Node.isNamed key) = mine.find? (Node.isNamed key) := by
    obtain rfl | rfl := content <;> simp [List.find?_append, nothing]
  rw [Pnml.annotation?_eq, Node.child?, Node.children, found]
  cases annotated with
  | absent silence => exact .inl ⟨silence, rfl⟩
  | present padded caption =>
    right
    rw [List.find?_cons_of_pos ((caption.isNamed_iff key).2 rfl), Option.bind_some,
      caption.heldText?_eq, coreOf?_padded tidy padded]

theorem Annotated.annotatesOr {default : String} (annotated : Annotated key text (text = default) mine)
    (tidy : Text.Tidy text) (apart : ∀ node ∈ others, node.isNamed key = false)
    {own : ExpandedName} {attributes : List Attribute} {children : List Xml.Node}
    (content : children = mine ++ others ∨ children = others ++ mine) :
    AnnotatesOr (.element own attributes children) key default text := by
  rw [← getD_annotation?_eq_iff]
  obtain ⟨same, nothing⟩ | found := annotated.annotation?_eq tidy apart content
  · rw [nothing, Option.getD_none, same]
  · rw [found, Option.getD_some]

end Annotations

section Declarations
variable {edit : Edit} {edits : List Edit} {node : Xml.Node} {children : List Xml.Node}

theorem Depicts.declaresEdit (depicts : Depicts edit node) (tidy : edit.HasTidyText) :
    DeclaresEdit node edit := by
  cases depicts with
  | @place place own attributes names markings children named id label marking content =>
    refine .place (Node.isNamed_element.2 named) ⟨id, ?_, ?_⟩
    · exact label.annotatesOr tidy (marking.isNamed_eq_false (by decide)) content
    · obtain ⟨empty, nothing⟩ | found := marking.annotation?_eq (Text.tidy_write place.marking)
        (label.isNamed_eq_false (by decide)) content.symm
      · exact .inr ⟨annotation?_eq_none_iff.1 nothing, by rw [empty]; rfl⟩
      · exact .inl ⟨_, annotation?_eq_some_iff.1 found, Text.Numeral.denotes_write place.marking⟩
  | transition named id label =>
    refine .transition (Node.isNamed_element.2 named) ⟨id, ?_⟩
    exact label.annotatesOr tidy (by simp) (.inl (List.append_nil _).symm)
  | arc named source target inscription =>
    refine .arc (Node.isNamed_element.2 named) ⟨source, target, ?_⟩
    exact inscription.annotatesOr tidy (by simp) (.inl (List.append_nil _).symm)

theorem Depicts.declares_self (depicts : Depicts edit node) (tidy : edit.HasTidyText) :
    (Listing.of [node]).Declares (Contents.of [edit]) :=
  declares_singleton_iff.2 ⟨some edit, editOf_eq_some_iff.2 (depicts.declaresEdit tidy), rfl⟩

theorem Depicts.declares_nothing (depicts : Depicts edit node) :
    (Listing.of (Node.elementsOf node.children)).Declares .empty := by
  cases depicts with
  | @place _ _ _ names markings _ _ _ label marking content =>
    have name := label.declares_nothing (by decide)
    have tokens := marking.declares_nothing (by decide)
    obtain rfl | rfl := content
    · rw [Node.children, Node.elementsOf_append]
      exact name.append tokens
    · rw [Node.children, Node.elementsOf_append]
      exact tokens.append name
  | transition _ _ label => exact label.declares_nothing (by decide)
  | arc _ _ _ inscription => exact inscription.declares_nothing (by decide)

/-- What depicts a declaration declares it, and declares nothing else. -/
theorem Depicts.declares (depicts : Depicts edit node) (tidy : edit.HasTidyText) :
    (Listing.of node.elements).Declares (Contents.of [edit]) := by
  have whole : node.elements = [node] ++ Node.elementsOf node.children := by
    cases depicts <;> rfl
  have declares := (depicts.declares_self tidy).append depicts.declares_nothing
  rwa [whole, ← Contents.append_empty (Contents.of [edit])]

/-- Elements that depict some declarations one by one declare them, each kind in its order. -/
theorem declares_of_depicts (depicts : List.Forall₂ Depicts edits children)
    (tidy : ∀ edit ∈ edits, edit.HasTidyText) :
    (Listing.of (Node.elementsOf children)).Declares (Contents.of edits) := by
  induction depicts with
  | nil => exact Listing.declares_nil_iff.2 rfl
  | cons first others ih =>
    obtain ⟨tidyFirst, tidyOthers⟩ := List.forall_mem_cons.1 tidy
    rw [Node.elementsOf, Contents.of_cons]
    exact (first.declares tidyFirst).append (ih tidyOthers)

end Declarations

end Pnml

theorem Net.HasTidyTexts.edits {net : Net} (tidy : net.HasTidyTexts) {edits : List Edit}
    (made : Contents.of edits = net.contents) : ∀ edit ∈ edits, edit.HasTidyText := by
  obtain ⟨places, transitions, arcs⟩ := Contents.mk.inj made
  intro edit member
  cases edit with
  | place place => exact tidy.places place (places ▸ List.mem_filterMap.2 ⟨_, member, rfl⟩)
  | transition transition =>
    exact tidy.transitions transition (transitions ▸ List.mem_filterMap.2 ⟨_, member, rfl⟩)
  | arc arc => exact tidy.arcs arc (arcs ▸ List.mem_filterMap.2 ⟨_, member, rfl⟩)

namespace Pnml

theorem load_of_shows {net : Net} {root : Xml.Node} (tidy : net.HasTidyTexts) (shown : Shows net root) :
    load root = .ok net := by
  obtain @⟨own, inner, attributes, others, edits, children, document, inside, made, depicts⟩ := shown
  -- The document itself is no net, so the only element in it is the first one.
  have found : (Node.element own attributes [.element inner others children]).elements.find?
      (·.isNamed "net") = some (.element inner others children) := by
    simp [Node.elements, Node.elementsOf, Node.isNamed, document, inside]
  have declares := declares_of_depicts depicts (tidy.edits made)
  rw [load, found]
  exact loadElements_eq_ok_iff.2 ⟨_, declares, made.symm⟩

def captionOf (key content : String) : Xml.Node :=
  .element ⟨none, key⟩ [] [.element ⟨none, "text"⟩ [] [.text content]]

def attributeOf (name value : String) : Attribute := ⟨⟨none, name⟩, value⟩

/-- An element that depicts a declaration and leaves nothing out. -/
def drawn : Edit → Xml.Node
  | .place place => .element ⟨none, "place"⟩ [attributeOf "id" place.id]
    [captionOf "name" place.label, captionOf "initialMarking" (Text.Numeral.write place.marking)]
  | .transition transition => .element ⟨none, "transition"⟩ [attributeOf "id" transition.id]
    [captionOf "name" transition.label]
  | .arc arc => .element ⟨none, "arc"⟩ [attributeOf "source" arc.source, attributeOf "target" arc.target]
    [captionOf "inscription" arc.inscription]

/-- The places of a net, then its transitions and then its arcs. -/
def declarations (net : Net) : List Edit := net.places.entries.map .place ++
  net.transitions.entries.map .transition ++ net.arcs.map .arc

/-- A document in which a net is drawn, the places first, then the transitions and then the arcs. -/
def drawing (net : Net) : Xml.Node := documentOf ((declarations net).map drawn)

theorem isCaption_captionOf (key content : String) :
    IsCaption key content (captionOf key content) := .intro rfl rfl

theorem depicts_drawn (edit : Edit) : Depicts edit (drawn edit) := by
  cases edit with
  | place place =>
    exact .place rfl (Node.attribute?_eq_some_iff.1 rfl)
      (.present (.refl _) (isCaption_captionOf _ _))
      (.present (.refl _) (isCaption_captionOf _ _)) (.inl rfl)
  | transition transition =>
    exact .transition rfl (Node.attribute?_eq_some_iff.1 rfl)
      (.present (.refl _) (isCaption_captionOf _ _))
  | arc arc =>
    exact .arc rfl (Node.attribute?_eq_some_iff.1 rfl) (Node.attribute?_eq_some_iff.1 rfl)
      (.present (.refl _) (isCaption_captionOf _ _))

theorem of_declarations (net : Net) : Contents.of (declarations net) = net.contents := by
  simp [Contents.of, declarations, Net.contents, List.filterMap_map, Function.comp_def, Edit.place?,
    Edit.transition?, Edit.arc?]

theorem shows_drawing (net : Net) : Shows net (drawing net) := by
  refine .intro rfl rfl (of_declarations net) ?_
  rw [List.forall₂_map_right_iff, List.forall₂_same]
  exact fun edit _ => depicts_drawn edit

/-- Every net can be drawn. From every document that depicts a net, however the kinds are mixed and whatever is left
out, that net is loaded, if trimming leaves its labels and inscriptions as they are. -/
theorem net_reloaded : (∀ net, Shows net (drawing net)) ∧
    ∀ (net : Net) (root : Xml.Node), net.HasTidyTexts → Shows net root →
      load root = .ok net ∧ ∀ document, root? document = some root → parse document = .ok net := by
  refine ⟨shows_drawing, fun net root tidy shown => ?_⟩
  have loaded := load_of_shows tidy shown
  exact ⟨loaded, fun document read => (parse_of_root? read).trans loaded⟩

/-- A place and a transition under one id, and an arc between them. -/
def twins : Net := ⟨⟨[⟨"p", "p", 7⟩], by decide⟩, ⟨[⟨"p", "p"⟩], by decide⟩, [⟨"p", "p", "1"⟩]⟩

def twinsDocument : String := "<pnml><net><arc source=\"p\" target=\"p\"/><transition id=\"p\"/>" ++
  "<place id=\"p\"><initialMarking><text> 7</text></initialMarking></place></net></pnml>"

def twinsTree : Xml.Node := documentOf
  [.element ⟨none, "arc"⟩ [attributeOf "source" "p", attributeOf "target" "p"] [],
    .element ⟨none, "transition"⟩ [attributeOf "id" "p"] [],
    .element ⟨none, "place"⟩ [attributeOf "id" "p"] [captionOf "initialMarking" " 7"]]

set_option maxRecDepth 4000 in
theorem root?_twinsDocument : root? twinsDocument = some twinsTree := by
  with_unfolding_all rfl

theorem shows_twinsTree : Shows twins twinsTree := by
  have held {name value : String} {own : ExpandedName} {attributes : List Attribute}
      {children : List Xml.Node} (found : (Node.element own attributes children).attribute? name =
        some value) : (Node.element own attributes children).Holds name value :=
    Node.attribute?_eq_some_iff.1 found
  have padded : Text.Padded (Text.Numeral.write 7) " 7" :=
    ⟨[' '], [], by decide, List.forall_mem_singleton.2 rfl, by simp⟩
  have arc := @Depicts.arc ⟨"p", "p", "1"⟩ ⟨none, "arc"⟩
    [attributeOf "source" "p", attributeOf "target" "p"] [] rfl (held rfl) (held rfl) (.absent rfl)
  have transition := @Depicts.transition ⟨"p", "p"⟩ ⟨none, "transition"⟩ [attributeOf "id" "p"] _ rfl
    (held rfl) (.absent rfl)
  have place := @Depicts.place ⟨"p", "p", 7⟩ ⟨none, "place"⟩ [attributeOf "id" "p"] _ _ _ rfl (held rfl)
    (.absent rfl) (.present padded (isCaption_captionOf _ " 7")) (.inl rfl)
  exact .intro rfl rfl rfl (.cons arc (.cons transition (.cons place .nil)))

/-- A document with the kinds the other way round. The names and the inscription are left out, and there is a space
before the marking. -/
theorem net_reloaded_twins : parse twinsDocument = .ok twins := by
  have letter : Text.Tidy "p" := Text.tidy_of_visible (by decide) (List.forall_mem_singleton.2 rfl)
  have one : Text.Tidy "1" := Text.tidy_of_visible (by decide) (List.forall_mem_singleton.2 rfl)
  have tidy : twins.HasTidyTexts := ⟨List.forall_mem_singleton.2 letter,
    List.forall_mem_singleton.2 letter, List.forall_mem_singleton.2 one⟩
  exact (net_reloaded.2 twins twinsTree tidy shows_twinsTree).2 twinsDocument root?_twinsDocument

end Pnml
end PetriCode
