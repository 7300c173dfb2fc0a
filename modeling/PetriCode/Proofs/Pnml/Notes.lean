import PetriCode.Proofs.Pnml.Influence

/-! Comments and processing instructions in a net. What is annotated to a node is the text with which a text
element begins, and a note ends that text. So a note that is taken out changes nothing, unless it
stood at the end of such a text and more than white space follows it at once: what was read there was
cut short, or nothing was read at all. -/
namespace PetriCode
open Xml

namespace Xml.Node

def isNote : Node → Bool
  | comment _ => true
  | instruction _ _ => true
  | _ => false

/-- Two stretches of children one behind the other. A text at the end of the first and a text at the start of
the second become one. -/
def joined : List Node → List Node → List Node
  | [.text one], .text two :: back => .text (one ++ two) :: back
  | [], back => back
  | node :: front, back => node :: joined front back

/-- A note among the children of an element is taken out. -/
inductive DropsNote : Node → Node → Prop
  | intro {own : ExpandedName} {attributes : List Attribute} {front back : List Node} {note : Node}
    (isNote : note.isNote) :
    DropsNote (element own attributes (front ++ note :: back))
      (element own attributes (joined front back))

/-- A note is taken out of an element or of one below it, at any depth. -/
def RemovesNote : Node → Node → Prop := Below (fun _ => True) DropsNote

theorem elementsOf_joined (front back : List Node) :
    elementsOf (joined front back) = elementsOf front ++ elementsOf back := by
  fun_induction joined front back with
  | case1 one two back => simp [elementsOf, elements]
  | case2 back => rfl
  | case3 back node front _ ih => rw [elementsOf, elementsOf, ih, List.append_assoc]

theorem find?_joined (name : String) (front back : List Node) :
    (joined front back).find? (isNamed name) = (front ++ back).find? (isNamed name) := by
  fun_induction joined front back with
  | case1 one two back => simp [isNamed]
  | case2 back => rfl
  | case3 back node front _ ih => rw [List.cons_append, List.find?_cons, List.find?_cons, ih]

theorem isNamed_of_isNote {note : Node} (isNote : note.isNote) (name : String) :
    note.isNamed name = false := by
  cases note with
  | element => cases isNote
  | text => cases isNote
  | comment => rfl
  | instruction => rfl

theorem elements_of_isNote {note : Node} (isNote : note.isNote) : note.elements = [] := by
  cases note with
  | element => cases isNote
  | text => cases isNote
  | comment => rfl
  | instruction => rfl

section Notes
variable {node other : Node}

theorem DropsNote.keeps (drops : DropsNote node other) : Keeps node other := by
  cases drops
  exact .intro _ _ _ _

theorem RemovesNote.keeps (removes : RemovesNote node other) : Keeps node other :=
  Below.keeps (fun _ _ => DropsNote.keeps) removes

theorem DropsNote.child?_eq (drops : DropsNote node other) (name : String) :
    other.child? name = node.child? name := by
  obtain @⟨own, attributes, front, back, note, isNote⟩ := drops
  have passed : ¬ note.isNamed name := by simp [isNamed_of_isNote isNote]
  rw [child?, child?, children, children, find?_joined, List.find?_append, List.find?_append,
    List.find?_cons_of_neg passed]

theorem DropsNote.elementsOf_children (drops : DropsNote node other) :
    elementsOf other.children = elementsOf node.children := by
  obtain @⟨own, attributes, front, back, note, isNote⟩ := drops
  rw [children, children, elementsOf_joined, elementsOf_append, elementsOf,
    elements_of_isNote isNote, List.nil_append]

end Notes
end Xml.Node

namespace Pnml

/-- More of a text than of what has been cut off behind it. -/
def Extends (short long : Option String) : Prop :=
  ∃ whole, long = some whole ∧ ∀ part, short = some part → part.toList <+: whole.toList ∧ part ≠ whole

theorem coreOf?_append_blanks (content : String) {behind : String}
    (blank : ∀ c ∈ behind.toList, Text.isBlank c) : coreOf? (content ++ behind) = coreOf? content := by
  rw [coreOf?, coreOf?, String.toList_append, Text.trim_append_blanks _ blank]

theorem coreOf?_append_solid (content : String) {behind : String}
    (solid : ∃ c ∈ behind.toList, Text.isBlank c = false) :
    Extends (coreOf? content) (coreOf? (content ++ behind)) := by
  obtain ⟨rest, inhabited, whole⟩ := Text.trim_append_solid content.toList solid
  rw [coreOf?, coreOf?, String.toList_append, whole]
  rw [if_neg (List.append_ne_nil_of_right_ne_nil _ inhabited)]
  refine ⟨_, rfl, ?_⟩
  intro part read
  simp only [Option.ite_none_left_eq_some, Option.some.injEq] at read
  obtain ⟨_, rfl⟩ := read
  rw [String.toList_ofList, String.toList_ofList, ne_eq, String.ofList_inj]
  refine ⟨List.prefix_append _ _, ?_⟩
  simpa using inhabited.symm

/-- A note is taken out of a text element at the end of the text with which it begins, or before any text, and
more than white space follows it at once. -/
inductive CutsText : Xml.Node → Xml.Node → Prop
  | intro {own : ExpandedName} {attributes : List Attribute} {lead back : List Xml.Node}
    {note : Xml.Node} {behind : String} (isNote : note.isNote)
    (leads : lead = [] ∨ ∃ before, lead = [.text before])
    (solid : ∃ c ∈ behind.toList, Text.isBlank c = false) :
    CutsText (.element own attributes (lead ++ note :: .text behind :: back))
      (.element own attributes (Node.joined lead (.text behind :: back)))

/-- Such a note is taken out of the text element that is read for an annotation. -/
def CutsAnnotation (key : String) : Xml.Node → Xml.Node → Prop :=
  Node.InChild key (Node.InChild "text" CutsText)

/-- This happens to an annotation that is read of a node, at any depth, and there less is read than without the
note, or nothing at all. -/
def CutsRead : Xml.Node → Xml.Node → Prop :=
  Node.Below (fun _ => True) fun node other =>
    ∃ kind key, node.isNamed kind ∧ IsRead kind key ∧ CutsAnnotation key node other ∧
      Extends (annotation? node key) (annotation? other key)

section Notes
variable {node other : Xml.Node}

theorem leadingText?_note {own : ExpandedName} {attributes : List Attribute} {note : Xml.Node}
    {back : List Xml.Node} (isNote : note.isNote) :
    (Node.element own attributes (note :: back)).leadingText? = none := by
  cases note with
  | element => cases isNote
  | text => cases isNote
  | comment => rfl
  | instruction => rfl

/-- What is read of a text element stays when a note is taken out of it, or has been cut. -/
theorem textOf?_of_dropsNote (drops : node.DropsNote other) :
    textOf? other = textOf? node ∨ CutsText node other := by
  obtain @⟨own, attributes, front, back, note, isNote⟩ := drops
  fun_cases Node.joined front back with
  | case1 one two back =>
    obtain solid | blank := Text.solid_or_blank two.toList
    · exact .inr (.intro isNote (.inr ⟨one, rfl⟩) solid)
    · exact .inl (coreOf?_append_blanks one blank)
  | case2 =>
    have before : textOf? (.element own attributes ([] ++ note :: back)) = none := by
      rw [textOf?, List.nil_append, leadingText?_note isNote, Option.bind_none]
    rw [before]
    match back with
    | .text two :: rest =>
      obtain solid | blank := Text.solid_or_blank two.toList
      · exact .inr (.intro isNote (.inl rfl) solid)
      · have nothing : coreOf? ("" ++ two) = none := coreOf?_append_blanks "" blank
        rw [String.empty_append] at nothing
        exact .inl nothing
    | [] => exact .inl rfl
    | .element .. :: _ => exact .inl rfl
    | .comment _ :: _ => exact .inl rfl
    | .instruction .. :: _ => exact .inl rfl
  | case3 first front _ =>
    -- A child that is no text stays first, and so does a text with another child between it and the note.
    cases first <;> exact .inl rfl

/-- A note that cuts a text leaves less to be read than there is without it. -/
theorem CutsText.textOf?_extends (cuts : CutsText node other) : Extends (textOf? node) (textOf? other) := by
  obtain @⟨own, attributes, lead, back, note, behind, isNote, rfl | ⟨before, rfl⟩, solid⟩ := cuts
  · have longer := coreOf?_append_solid "" solid
    have nothing : textOf? (.element own attributes ([] ++ note :: .text behind :: back)) =
        coreOf? "" := by
      rw [textOf?, List.nil_append, leadingText?_note isNote]
      rfl
    rw [String.empty_append] at longer
    rwa [nothing]
  · exact coreOf?_append_solid before solid

theorem CutsAnnotation.annotation?_extends {key : String} (cuts : CutsAnnotation key node other) :
    Extends (annotation? node key) (annotation? other key) := by
  obtain ⟨holder, changedHolder, cuts, held, stillHeld⟩ := Node.InChild.child?_eq cuts
  obtain ⟨inner, changedInner, cuts, found, stillFound⟩ := Node.InChild.child?_eq cuts
  rw [annotation?_eq, annotation?_eq, held, stillHeld, Option.bind_some, Option.bind_some, heldText?,
    heldText?, found, stillFound]
  exact cuts.textOf?_extends

theorem textOf?_of_removesNote (removes : node.RemovesNote other) :
    textOf? other = textOf? node ∨ CutsText node other := by
  cases removes with
  | here drops => exact textOf?_of_dropsNote drops
  | @child _ _ front _ child other _ removes =>
    obtain ⟨own, attributes, children, others⟩ := Node.RemovesNote.keeps removes
    left
    cases front with
    | nil => rfl
    | cons first front => cases first <;> rfl

theorem heldText?_of_removesNote (removes : node.RemovesNote other) :
    heldText? other = heldText? node ∨ Node.InChild "text" CutsText node other := by
  cases removes with
  | here drops => exact .inl (by rw [heldText?, heldText?, drops.child?_eq])
  | child _ removes =>
    exact Node.child?_bind_or (Node.RemovesNote.keeps removes) (textOf?_of_removesNote removes)

theorem annotation?_of_removesNote (removes : node.RemovesNote other) (key : String) :
    annotation? other key = annotation? node key ∨ CutsAnnotation key node other := by
  cases removes with
  | here drops => exact .inl (by rw [annotation?_eq, annotation?_eq, drops.child?_eq])
  | child _ removes =>
    exact Node.child?_bind_or (Node.RemovesNote.keeps removes) (heldText?_of_removesNote removes)

/-- An element in which a note is taken out is loaded as it was if what is in it is, or something that is read of it
has been cut. -/
theorem loadNodes_or_cuts (removes : node.RemovesNote other)
    (inside : ∀ net, loadNodes net other.children = loadNodes net node.children) :
    (∀ net, loadNodes net [other] = loadNodes net [node]) ∨ CutsRead node other := by
  by_cases cut : ∃ kind key, node.isNamed kind ∧ IsRead kind key ∧ CutsAnnotation key node other
  · obtain ⟨kind, key, named, isRead, cuts⟩ := cut
    exact .inr (.here ⟨kind, key, named, isRead, cuts, cuts.annotation?_extends⟩)
  · push Not at cut
    refine .inl fun net => ?_
    have same : loadElement net other = loadElement net node :=
      loadElement_congr removes.keeps fun kind key named isRead =>
        (annotation?_of_removesNote removes key).resolve_right (cut kind key named isRead)
    obtain ⟨own, attributes, children, others⟩ := removes.keeps
    simp only [Node.children] at inside
    simp only [loadNodes_element, same, inside]

/-- A node is loaded as it was when a note is taken out of it, or something that is read of it has been cut. -/
theorem loadNodes_of_removesNote (removes : node.RemovesNote other) :
    (∀ net, loadNodes net [other] = loadNodes net [node]) ∨ CutsRead node other := by
  -- On the way up to the net each element may read the annotation in which the note stood, so all are asked.
  induction removes with
  | here drops =>
    refine loadNodes_or_cuts (.here drops) fun net => ?_
    rw [loadNodes, loadNodes, drops.elementsOf_children]
  | @child _ _ front back child other _ removes ih =>
    obtain alike | deeper := ih
    · exact loadNodes_or_cuts (.child trivial removes) (loadNodes_inside alike · front back)
    · exact .inr (.child trivial deeper)

end Notes

/-- A comment or an instruction that is taken out of the first net of a document changes nothing of what is loaded,
unless it cuts an annotation that is read. -/
theorem load_without_note {root other : Xml.Node}
    (removed : Node.InFirst "net" Node.RemovesNote root other) :
    LoadsAlike root other ∨ Node.InFirst "net" CutsRead root other := by
  have each := removed.mono fun _ _ _ => loadNodes_of_removesNote
  exact each.or.imp loadsAlike_of_first id

def textWith (content : List Xml.Node) : Xml.Node := .element ⟨none, "text"⟩ [] content

def placeMarked (content : List Xml.Node) : Xml.Node :=
  .element ⟨none, "place"⟩ [⟨⟨none, "id"⟩, "p"⟩]
    [.element ⟨none, "initialMarking"⟩ [] [textWith content]]

def noted : List Xml.Node := [.text "1", .comment "0", .text "2"]

theorem removesNote_noted : Node.InFirst "net" Node.RemovesNote
    (documentOf [placeMarked noted]) (documentOf [placeMarked [.text "12"]]) := by
  have drops : Node.DropsNote (textWith noted) (textWith [.text "12"]) :=
    @Node.DropsNote.intro _ _ [.text "1"] [.text "2"] _ rfl
  exact .onlyChild (by decide) (.here rfl rfl (.onlyChild trivial (.onlyChild trivial
    (.onlyChild trivial (.here drops)))))

/-- A note between the two digits of a marking. -/
theorem load_without_note_noted :
    Node.InFirst "net" Node.RemovesNote (documentOf [placeMarked noted])
      (documentOf [placeMarked [.text "12"]]) ∧
    (LoadsAlike (documentOf [placeMarked noted]) (documentOf [placeMarked [.text "12"]]) ∨
      Node.InFirst "net" CutsRead (documentOf [placeMarked noted])
        (documentOf [placeMarked [.text "12"]])) :=
  ⟨removesNote_noted, load_without_note removesNote_noted⟩

def notedDocument : String :=
  "<pnml><net><place id=\"p\"><initialMarking><text>1<!--0-->2</text></initialMarking></place></net></pnml>"

def bareDocument : String :=
  "<pnml><net><place id=\"p\"><initialMarking><text>12</text></initialMarking></place></net></pnml>"

/-- With the note the place holds one token, and twelve without it. -/
theorem note_cuts_marking : ∃ root other, root? notedDocument = some root ∧
    root? bareDocument = some other ∧ Node.InFirst "net" Node.RemovesNote root other ∧
    (parse notedDocument).map Net.contents = .ok ⟨[⟨"p", "p", 1⟩], [], []⟩ ∧
    (parse bareDocument).map Net.contents = .ok ⟨[⟨"p", "p", 12⟩], [], []⟩ := by
  have read : root? notedDocument = some (documentOf [placeMarked noted]) := by
    with_unfolding_all rfl
  have again : root? bareDocument = some (documentOf [placeMarked [.text "12"]]) := by
    with_unfolding_all rfl
  refine ⟨_, _, read, again, removesNote_noted, ?_, ?_⟩
  · rw [parse_of_root? read]
    rfl
  · rw [parse_of_root? again]
    rfl

end Pnml
end PetriCode
