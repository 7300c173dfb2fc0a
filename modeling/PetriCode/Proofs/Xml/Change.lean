import Mathlib.Logic.Relation
import PetriCode.Xml.Node

/-! Changes at one place of a document. A relation between nodes says what is changed; what is said here is
where: at a node or anywhere below it, at the first child of a name, or at the first element of a
name in document order. Everything else stays as it is. -/
namespace PetriCode.Xml.Node

/-- A node is changed, or one node below it that is reached through nodes of some kind. -/
inductive Below (through : Node → Prop) (change : Node → Node → Prop) : Node → Node → Prop
  | here {node other : Node} (changed : change node other) : Below through change node other
  | child {own : ExpandedName} {attributes : List Attribute} {front back : List Node}
    {child other : Node} (passes : through child) (changed : Below through change child other) :
    Below through change (element own attributes (front ++ child :: back))
      (element own attributes (front ++ other :: back))

/-- The first child of a name is changed, and keeps its name. -/
inductive InChild (name : String) (change : Node → Node → Prop) : Node → Node → Prop
  | intro {own : ExpandedName} {attributes : List Attribute} {front back : List Node}
    {child other : Node} (others : ∀ node ∈ front, node.isNamed name = false)
    (named : child.isNamed name) (still : other.isNamed name) (changed : change child other) :
    InChild name change (element own attributes (front ++ child :: back))
      (element own attributes (front ++ other :: back))

/-- The first element of a name, the node itself or one below it, is changed, and keeps its name. -/
inductive InFirst (name : String) (change : Node → Node → Prop) : Node → Node → Prop
  | here {node other : Node} (named : node.isNamed name) (still : other.isNamed name)
    (changed : change node other) : InFirst name change node other
  | child {own : ExpandedName} {attributes : List Attribute} {front back : List Node}
    {child other : Node} (elsewhere : own.localName ≠ name)
    (others : ∀ node ∈ elementsOf front, node.isNamed name = false)
    (changed : InFirst name change child other) :
    InFirst name change (element own attributes (front ++ child :: back))
      (element own attributes (front ++ other :: back))

/-- An element has the name and the attributes of another, and nothing is said of the children. -/
inductive Keeps : Node → Node → Prop
  | intro (own : ExpandedName) (attributes : List Attribute) (children others : List Node) :
    Keeps (element own attributes children) (element own attributes others)

section Names
variable {node other : Node} {name : String} {through : Node → Prop} {change : Node → Node → Prop}

theorem Keeps.isNamed_eq (keeps : Keeps node other) (name : String) :
    other.isNamed name = node.isNamed name := by
  cases keeps
  rfl

theorem Keeps.attribute?_eq (keeps : Keeps node other) (name : String) :
    other.attribute? name = node.attribute? name := by
  cases keeps
  rfl

/-- What is changed below an element leaves its name and its attributes alone. -/
theorem Below.keeps (kept : ∀ node other, change node other → Keeps node other)
    (changed : Below through change node other) : Keeps node other := by
  cases changed with
  | here changed => exact kept node other changed
  | child _ _ => exact .intro _ _ _ _

theorem elementsOf_append (front back : List Node) :
    elementsOf (front ++ back) = elementsOf front ++ elementsOf back := by
  induction front with
  | nil => rfl
  | cons node front ih => rw [List.cons_append, elementsOf, elementsOf, ih, List.append_assoc]

theorem isNamed_element {own : ExpandedName} {attributes : List Attribute} {children : List Node} :
    (element own attributes children).isNamed name ↔ own.localName = name := beq_iff_eq

theorem InChild.child?_eq (changed : InChild name change node other) : ∃ inner changedInner,
    change inner changedInner ∧ node.child? name = some inner ∧
      other.child? name = some changedInner := by
  obtain @⟨own, attributes, front, back, child, changedChild, others, named, still, changed⟩ := changed
  have nothing : front.find? (isNamed name) = none :=
    List.find?_eq_none.2 fun earlier member => by simp [others earlier member]
  refine ⟨child, changedChild, changed, ?_, ?_⟩
  · rw [child?, children, List.find?_append, nothing, Option.none_or, List.find?_cons_of_pos named]
  · rw [child?, children, List.find?_append, nothing, Option.none_or, List.find?_cons_of_pos still]

/-- What is read of the first child of a name stays if a child is changed, or that child is the first. -/
theorem child?_bind_or {α : Type} {read : Node → Option α} {own : ExpandedName}
    {attributes : List Attribute} {front back : List Node} (keeps : Keeps node other)
    (inner : read other = read node ∨ change node other) :
    ((element own attributes (front ++ other :: back)).child? name).bind read =
        ((element own attributes (front ++ node :: back)).child? name).bind read ∨
      InChild name change (element own attributes (front ++ node :: back))
        (element own attributes (front ++ other :: back)) := by
  have still := keeps.isNamed_eq name
  simp only [child?, children, List.find?_append]
  cases early : front.find? (isNamed name) with
  | some found => exact .inl rfl
  | none =>
    by_cases named : node.isNamed name
    · have nothing : ∀ earlier ∈ front, earlier.isNamed name = false := fun earlier member => by
        simpa using List.find?_eq_none.1 early earlier member
      rw [List.find?_cons_of_pos named, List.find?_cons_of_pos (still.trans named)]
      exact inner.imp id (.intro nothing named (still.trans named))
    · rw [List.find?_cons_of_neg named, List.find?_cons_of_neg (by rwa [still])]
      exact .inl rfl

theorem Below.onlyChild {own : ExpandedName} {attributes : List Attribute} (passes : through node)
    (changed : Below through change node other) :
    Below through change (element own attributes [node]) (element own attributes [other]) :=
  @Below.child through change own attributes [] [] node other passes changed

theorem InChild.onlyChild {own : ExpandedName} {attributes : List Attribute} (named : node.isNamed name)
    (still : other.isNamed name) (changed : change node other) :
    InChild name change (element own attributes [node]) (element own attributes [other]) :=
  @InChild.intro name change own attributes [] [] node other (by simp) named still changed

theorem InFirst.onlyChild {own : ExpandedName} {attributes : List Attribute}
    (elsewhere : own.localName ≠ name) (changed : InFirst name change node other) :
    InFirst name change (element own attributes [node]) (element own attributes [other]) := by
  have nothing : ∀ earlier ∈ elementsOf [], earlier.isNamed name = false := by simp [elementsOf]
  exact .child elsewhere nothing changed

/-- The first element of a name and what it is changed to are what is found in either document. -/
theorem InFirst.find? (changed : InFirst name change node other) : ∃ first changedFirst,
    change first changedFirst ∧ first.isNamed name ∧ changedFirst.isNamed name ∧
      node.elements.find? (isNamed name) = some first ∧
      other.elements.find? (isNamed name) = some changedFirst := by
  induction changed with
  | @here node other named still changed =>
    refine ⟨node, other, changed, named, still, ?_, ?_⟩
    · cases node with
      | element => rw [elements, List.find?_cons_of_pos named]
      | text => cases named
      | comment => cases named
      | instruction => cases named
    · cases other with
      | element => rw [elements, List.find?_cons_of_pos still]
      | text => cases still
      | comment => cases still
      | instruction => cases still
  | child elsewhere others _ ih =>
    obtain ⟨first, second, changed, named, still, found, again⟩ := ih
    have nothing := List.find?_eq_none.2 fun node member => by
      simpa using others node member
    refine ⟨first, second, changed, named, still, ?_, ?_⟩ <;>
      rw [elements, List.find?_cons_of_neg (mt isNamed_element.1 elsewhere), elementsOf_append,
        List.find?_append, nothing, Option.none_or, elementsOf, List.find?_append]
    · rw [found, Option.some_or]
    · rw [again, Option.some_or]

theorem InFirst.mono {wider : Node → Node → Prop} (changed : InFirst name change node other)
    (implies : ∀ node other, node.isNamed name → change node other → wider node other) :
    InFirst name wider node other := by
  induction changed with
  | here named still changed => exact .here named still (implies _ _ named changed)
  | child elsewhere others _ ih => exact .child elsewhere others ih

/-- The first element of a name is changed in one way or in the other. -/
theorem InFirst.or {less : Node → Node → Prop}
    (changed : InFirst name (fun node other => change node other ∨ less node other) node other) :
    InFirst name change node other ∨ InFirst name less node other := by
  induction changed with
  | here named still changed =>
    exact changed.imp (.here named still) (.here named still)
  | child elsewhere others _ ih => exact ih.imp (.child elsewhere others) (.child elsewhere others)

/-- Changes of the first element of a name, one after the other, are such changes of the whole. -/
theorem InFirst.reflTransGen (kept : ∀ node other, change node other → Keeps node other)
    (changed : InFirst name (Relation.ReflTransGen change) node other) :
    Relation.ReflTransGen (InFirst name change) node other := by
  induction changed with
  | @here node other named still changed =>
    clear still
    have names : ∀ {later}, Relation.ReflTransGen change node later → later.isNamed name := by
      intro later reached
      induction reached with
      | refl => exact named
      | tail _ last ih => rwa [(kept _ _ last).isNamed_eq]
    induction changed with
    | refl => exact .refl
    | tail before last ih => exact ih.tail (.here (names before) (names (before.tail last)) last)
  | @child own attributes front back child other elsewhere others _ ih =>
    exact ih.lift (fun inner => element own attributes (front ++ inner :: back))
      fun _ _ changed => .child elsewhere others changed

end Names
end PetriCode.Xml.Node
