import PetriCode.Proofs.Pnml.Influence

/-! Pages of a net. A page groups what is drawn on one sheet and declares nothing itself: a net whose pages
give way to what is on them, one by one or all at once, is loaded like the net before. -/
namespace PetriCode
open Xml

namespace Xml.Node

mutual
/-- What takes the place of a node when all pages are opened: of a page, what is on it and on its pages. -/
def spread : Node → List Node
  | element own attributes children =>
    if own.localName = "page" then spreadAll children else [element own attributes children]
  | node => [node]

def spreadAll : List Node → List Node
  | [] => []
  | node :: nodes => spread node ++ spreadAll nodes
end

/-- An element whose pages are all opened. -/
def flattened : Node → Node
  | element own attributes children => element own attributes (spreadAll children)
  | node => node

mutual
theorem isNamed_of_mem_spread : ∀ node : Node, ∀ child ∈ node.spread, child.isNamed "page" = false
  | .element own attributes children => by
    rw [spread]
    split_ifs with page
    · exact isNamed_of_mem_spreadAll children
    · intro child member
      rw [List.mem_singleton.1 member]
      exact beq_eq_false_iff_ne.2 page
  | .text content => by simp [spread, isNamed]
  | .comment content => by simp [spread, isNamed]
  | .instruction target content => by simp [spread, isNamed]

theorem isNamed_of_mem_spreadAll :
    ∀ nodes : List Node, ∀ child ∈ spreadAll nodes, child.isNamed "page" = false
  | [] => by simp [spreadAll]
  | node :: nodes => by
    intro child member
    rw [spreadAll] at member
    obtain near | far := List.mem_append.1 member
    · exact isNamed_of_mem_spread node child near
    · exact isNamed_of_mem_spreadAll nodes child far
end

/-- No page is left among the children of a flattened element. -/
theorem isNamed_of_mem_flattened {node child : Node} (member : child ∈ node.flattened.children) :
    child.isNamed "page" = false := by
  cases node with
  | element own attributes children => exact isNamed_of_mem_spreadAll children child member
  | text => cases member
  | comment => cases member
  | instruction => cases member

end Xml.Node

namespace Pnml

/-- Among the children of an element a page gives way to its own children, or two texts that stand side by
side become one. -/
inductive Flattens : Xml.Node → Xml.Node → Prop
  | page {own : ExpandedName} {attributes : List Attribute} {front back : List Xml.Node}
    {page : Xml.Node} (named : page.isNamed "page") :
    Flattens (.element own attributes (front ++ page :: back))
      (.element own attributes (front ++ page.children ++ back))
  | texts {own : ExpandedName} {attributes : List Attribute} {front back : List Xml.Node}
    {one two : String} :
    Flattens (.element own attributes (front ++ .text one :: .text two :: back))
      (.element own attributes (front ++ .text (one ++ two) :: back))

/-- This happens to the children of a node or of a page below it, all ancestors of which are pages up to the
node. -/
def OpensPage : Xml.Node → Xml.Node → Prop := Node.Below (·.isNamed "page") Flattens

theorem Flattens.keeps {node other : Xml.Node} (flattens : Flattens node other) :
    node.Keeps other := by
  cases flattens with
  | page _ => exact .intro _ _ _ _
  | texts => exact .intro _ _ _ _

theorem OpensPage.keeps {node other : Xml.Node} (opens : OpensPage node other) : node.Keeps other :=
  Node.Below.keeps (fun _ _ => Flattens.keeps) opens

/-- An element that is a net or a page. -/
def IsSheet (node : Xml.Node) : Prop := node.isNamed "net" ∨ node.isNamed "page"

theorem loadNodes_sheet {node : Xml.Node} (sheet : IsSheet node) (net : Net) :
    loadNodes net [node] = loadNodes net node.children := by
  have other (kind : String) (net : "net" ≠ kind) (page : "page" ≠ kind) :
      node.isNamed kind = false :=
    sheet.elim (isNamed_apart · net) (isNamed_apart · page)
  exact loadNodes_of_other (other _ (by decide) (by decide)) (other _ (by decide) (by decide))
    (other _ (by decide) (by decide)) net

theorem Flattens.loadNodes_children {node other : Xml.Node} (flattens : Flattens node other)
    (net : Net) : loadNodes net other.children = loadNodes net node.children := by
  cases flattens with
  | @page _ _ front back page named =>
    have opened (start : Net) := loadNodes_sheet (.inr named) start
    have split : front ++ page :: back = front ++ [page] ++ back := by simp
    simp only [Node.children, split, loadNodes_append, opened]
  | texts =>
    simp only [Node.children, loadNodes, Node.elementsOf_append, Node.elementsOf, Node.elements,
      List.nil_append]

theorem IsSheet.kept {node other : Xml.Node} (sheet : IsSheet node) (keeps : node.Keeps other) :
    IsSheet other := by
  rwa [IsSheet, keeps.isNamed_eq, keeps.isNamed_eq]

/-- A page that is opened leaves what is loaded from a net or a page around it alone. -/
theorem OpensPage.loadNodes_eq {node other : Xml.Node} (opens : OpensPage node other)
    (sheet : IsSheet node) (net : Net) : loadNodes net [other] = loadNodes net [node] := by
  have still := sheet.kept opens.keeps
  rw [loadNodes_sheet sheet, loadNodes_sheet still]
  -- On the way down only pages are passed, which are loaded as what is on them.
  induction opens generalizing net with
  | here flattens => exact flattens.loadNodes_children net
  | @child _ _ front back child other page opens ih =>
    have inside : IsSheet child := .inr page
    have kept := inside.kept (OpensPage.keeps opens)
    refine loadNodes_inside (fun start => ?_) net front back
    rw [loadNodes_sheet inside, loadNodes_sheet kept]
    exact ih inside start kept

mutual
theorem flattens_spread (own : ExpandedName) (attributes : List Attribute) :
    ∀ (node : Xml.Node) (front back : List Xml.Node),
      Relation.ReflTransGen Flattens (.element own attributes (front ++ node :: back))
        (.element own attributes (front ++ node.spread ++ back))
  | .element name inner children, front, back => by
    rw [Node.spread]
    split_ifs with page
    · exact .head (.page (Node.isNamed_element.2 page))
        (flattens_spreadAll own attributes children front back)
    · rw [List.append_assoc]
      exact .refl
  | .text content, front, back => by
    rw [Node.spread, List.append_assoc]
    · exact .refl
    · simp
  | .comment content, front, back => by
    rw [Node.spread, List.append_assoc]
    · exact .refl
    · simp
  | .instruction target content, front, back => by
    rw [Node.spread, List.append_assoc]
    · exact .refl
    · simp

theorem flattens_spreadAll (own : ExpandedName) (attributes : List Attribute) :
    ∀ (nodes front back : List Xml.Node),
      Relation.ReflTransGen Flattens (.element own attributes (front ++ nodes ++ back))
        (.element own attributes (front ++ Node.spreadAll nodes ++ back))
  | [], front, back => .refl
  | node :: nodes, front, back => by
    have first := flattens_spread own attributes node front (nodes ++ back)
    have others := flattens_spreadAll own attributes nodes (front ++ node.spread) back
    rw [Node.spreadAll]
    simp only [List.append_assoc, List.cons_append] at first others ⊢
    exact first.trans others
end

/-- All pages are opened by opening one after the other. -/
theorem flattens_flattened (node : Xml.Node) :
    Relation.ReflTransGen OpensPage node node.flattened := by
  cases node with
  | element own attributes children =>
    have flattens := flattens_spreadAll own attributes children [] []
    simp only [List.nil_append, List.append_nil] at flattens
    exact flattens.lift id fun _ _ => Node.Below.here
  | text => exact .refl
  | comment => exact .refl
  | instruction => exact .refl

theorem loadsAlike_of_page {root other : Xml.Node} (opened : Node.InFirst "net" OpensPage root other) :
    LoadsAlike root other :=
  loadsAlike_of_first (opened.mono fun _ _ named opens => opens.loadNodes_eq (.inl named))

/-- Pages are opened, and texts that come to stand side by side made one, any number of times in the first net
of a document: the same is loaded, or the same fault reported. Opened all at once they leave no page, and
this is no other than opening them one after the other. -/
theorem pages_transparent :
    (∀ root other, Relation.ReflTransGen (Node.InFirst "net" OpensPage) root other →
      LoadsAlike root other) ∧
    (∀ root other, Node.InFirst "net" (fun net flat => flat = net.flattened) root other →
      LoadsAlike root other ∧ Relation.ReflTransGen (Node.InFirst "net" OpensPage) root other) ∧
    ∀ net child : Xml.Node, child ∈ net.flattened.children → child.isNamed "page" = false := by
  have opened (root other : Xml.Node)
      (steps : Relation.ReflTransGen (Node.InFirst "net" OpensPage) root other) :
      LoadsAlike root other := by
    induction steps with
    | refl => exact .of_load rfl
    | tail _ last ih => exact ih.trans (loadsAlike_of_page last)
  refine ⟨opened, ?_, fun net child => Node.isNamed_of_mem_flattened⟩
  intro root other flat
  have steps := (flat.mono fun net _ _ same => same ▸ flattens_flattened net).reflTransGen
    fun _ _ => OpensPage.keeps
  exact ⟨opened root other steps, steps⟩

def drawnPlace : Xml.Node := .element ⟨none, "place"⟩ [⟨⟨none, "id"⟩, "p"⟩] []

def drawnTransition : Xml.Node := .element ⟨none, "transition"⟩ [⟨⟨none, "id"⟩, "t"⟩] []

def sheets : String :=
  "<pnml><net> <page> <page><place id=\"p\"/></page></page><transition id=\"t\"/></net></pnml>"

def sheetless : String :=
  "<pnml><net>  <place id=\"p\"/><transition id=\"t\"/></net></pnml>"

/-- A document and the same without its pages, one of which lies on the other. The space before the outer page and
the one on it become one text. -/
theorem pages_transparent_sheets : parse sheetless = parse sheets := by
  have read : root? sheets = some (documentOf [.text " ", .element ⟨none, "page"⟩ []
      [.text " ", .element ⟨none, "page"⟩ [] [drawnPlace]], drawnTransition]) := by
    with_unfolding_all rfl
  have again : root? sheetless = some (documentOf [.text "  ", drawnPlace, drawnTransition]) := by
    with_unfolding_all rfl
  have flat : Node.InFirst "net" (fun net flat => flat = net.flattened)
      (documentOf [.text " ", .element ⟨none, "page"⟩ []
        [.text " ", .element ⟨none, "page"⟩ [] [drawnPlace]], drawnTransition])
      (documentOf [.text " ", .text " ", drawnPlace, drawnTransition]) :=
    .onlyChild (by decide) (.here rfl rfl rfl)
  have joined : Node.InFirst "net" OpensPage
      (documentOf [.text " ", .text " ", drawnPlace, drawnTransition])
      (documentOf [.text "  ", drawnPlace, drawnTransition]) :=
    .onlyChild (by decide) (.here rfl rfl (.here (@Flattens.texts _ _ [] _ " " " ")))
  have steps := (pages_transparent.2.1 _ _ flat).2.tail joined
  exact (pages_transparent.1 _ _ steps).documents _ _ read again

end Pnml
end PetriCode
