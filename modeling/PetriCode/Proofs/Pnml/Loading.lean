import PetriCode.Proofs.Net.Edits
import PetriCode.Proofs.Pnml.Reading
import PetriCode.Proofs.Xml.Address

/-! What is loaded from a document. Each element adds what it declares to what there is, as long as its id is
not in use, so what is loaded in the end are the declarations of all elements in their order. -/
namespace PetriCode
open Xml

/-- What a net is made of. -/
structure Contents where
  places : List Place
  transitions : List Transition
  arcs : List Arc

namespace Contents

def empty : Contents := ⟨[], [], []⟩

instance : Append Contents where
  append front back := ⟨front.places ++ back.places, front.transitions ++ back.transitions,
    front.arcs ++ back.arcs⟩

theorem append_def (front back : Contents) : front ++ back =
    ⟨front.places ++ back.places, front.transitions ++ back.transitions, front.arcs ++ back.arcs⟩ :=
  rfl

theorem empty_append (contents : Contents) : empty ++ contents = contents := rfl

theorem append_empty (contents : Contents) : contents ++ empty = contents := by
  simp [append_def, empty]

theorem append_assoc (front middle back : Contents) :
    front ++ middle ++ back = front ++ (middle ++ back) := by
  simp [append_def]

/-- No id is that of two places or of two transitions. -/
def Distinct (contents : Contents) : Prop :=
  (contents.places.map Place.id).Nodup ∧ (contents.transitions.map Transition.id).Nodup

theorem Distinct.front {front back : Contents} (distinct : (front ++ back).Distinct) :
    front.Distinct := by
  obtain ⟨places, transitions⟩ := distinct
  simp only [append_def, List.map_append] at places transitions
  exact ⟨places.of_append_left, transitions.of_append_left⟩

end Contents

namespace Net
variable {net next : Net}

def contents (net : Net) : Contents := ⟨net.places.entries, net.transitions.entries, net.arcs⟩

theorem contents_inj : net.contents = next.contents ↔ net = next := by
  constructor
  · intro same
    rw [contents, contents, Contents.mk.injEq] at same
    have places := Roster.entries_inj.1 same.1
    have transitions := Roster.entries_inj.1 same.2.1
    cases net
    cases next
    rw [Net.mk.injEq]
    exact ⟨places, transitions, same.2.2⟩
  · rintro rfl
    rfl

theorem exists_contents_iff {contents : Contents} :
    (∃ net : Net, net.contents = contents) ↔ contents.Distinct := by
  constructor
  · rintro ⟨net, rfl⟩
    exact ⟨net.places.distinct, net.transitions.distinct⟩
  · rintro ⟨places, transitions⟩
    exact ⟨⟨⟨_, places⟩, ⟨_, transitions⟩, contents.arcs⟩, rfl⟩

end Net

/-- What some declarations make, each kind in its order. -/
def Contents.of (edits : List Edit) : Contents :=
  ⟨edits.filterMap Edit.place?, edits.filterMap Edit.transition?, edits.filterMap Edit.arc?⟩

@[simp]
theorem Contents.of_place (declared : Place) : Contents.of [.place declared] = ⟨[declared], [], []⟩ :=
  rfl

@[simp]
theorem Contents.of_transition (declared : Transition) :
    Contents.of [.transition declared] = ⟨[], [declared], []⟩ :=
  rfl

@[simp]
theorem Contents.of_arc (declared : Arc) : Contents.of [.arc declared] = ⟨[], [], [declared]⟩ :=
  rfl

theorem Contents.of_cons (edit : Edit) (edits : List Edit) :
    Contents.of (edit :: edits) = Contents.of [edit] ++ Contents.of edits := by
  cases edit <;> rfl

namespace Pnml

theorem unlessReplaced_eq_ok_iff {α : Type} {kind : NodeKind} {id : String} {added : Option α × Net}
    {next : Net} : unlessReplaced kind id added = .ok next ↔ added = (none, next) := by
  obtain ⟨_ | old, net⟩ := added <;> simp [unlessReplaced]

/-- What is declared is accepted just if it comes behind what there is. -/
theorem accept_eq_ok_iff {net next : Net} {edit : Edit} :
    accept net edit = .ok next ↔ next.contents = net.contents ++ .of [edit] := by
  obtain ⟨places, transitions, arcs⟩ := next
  cases edit with
  | place declared =>
    have put : net.places.put declared = (none, places) ↔ _ := Roster.put_eq_none_iff
    rw [accept, unlessReplaced_eq_ok_iff]
    simp only [Net.addPlace, Net.mk.injEq, Net.contents, Contents.append_def, Contents.of_place,
      Contents.mk.injEq, List.append_nil, Roster.entries_inj, ← put, Prod.ext_iff, and_assoc,
      eq_comm (a := net.transitions), eq_comm (a := net.arcs)]
  | transition declared =>
    have put : net.transitions.put declared = (none, transitions) ↔ _ := Roster.put_eq_none_iff
    rw [accept, unlessReplaced_eq_ok_iff]
    simp only [Net.addTransition, Net.mk.injEq, Net.contents, Contents.append_def,
      Contents.of_transition, Contents.mk.injEq, List.append_nil, Roster.entries_inj, ← put,
      Prod.ext_iff, and_assoc, eq_comm (a := net.places), eq_comm (a := net.arcs)]
    exact and_left_comm
  | arc declared =>
    simp only [accept, Net.addArc, Net.contents, Contents.append_def, Contents.of_arc,
      Contents.mk.injEq, List.append_nil, Roster.entries_inj, Except.ok.injEq, Net.mk.injEq,
      eq_comm (a := net.places), eq_comm (a := net.transitions), eq_comm (a := net.arcs ++ [declared])]

/-- The elements of a net that are read. -/
structure Listing where
  places : List Xml.Node
  transitions : List Xml.Node
  arcs : List Xml.Node

namespace Listing

def of (nodes : List Xml.Node) : Listing where
  places := nodes.filter (Node.isNamed "place")
  transitions := nodes.filter (Node.isNamed "transition")
  arcs := nodes.filter (Node.isNamed "arc")

/-- Each element declares one thing, in the same order. -/
@[mk_iff]
structure Declares (listing : Listing) (contents : Contents) : Prop where
  places : List.Forall₂ DeclaresPlace listing.places contents.places
  transitions : List.Forall₂ DeclaresTransition listing.transitions contents.transitions
  arcs : List.Forall₂ DeclaresArc listing.arcs contents.arcs

theorem Declares.unique {listing : Listing} {contents other : Contents}
    (declares : listing.Declares contents) (again : listing.Declares other) : contents = other := by
  have placeUnique : Relator.RightUnique DeclaresPlace := fun _ _ _ one two =>
    Except.ok.inj ((placeOf_eq_ok_iff.2 one).symm.trans (placeOf_eq_ok_iff.2 two))
  have transitionUnique : Relator.RightUnique DeclaresTransition := fun _ _ _ one two =>
    Except.ok.inj ((transitionOf_eq_ok_iff.2 one).symm.trans (transitionOf_eq_ok_iff.2 two))
  have arcUnique : Relator.RightUnique DeclaresArc := fun _ _ _ one two =>
    Except.ok.inj ((arcOf_eq_ok_iff.2 one).symm.trans (arcOf_eq_ok_iff.2 two))
  cases contents
  cases other
  rw [Contents.mk.injEq]
  exact ⟨List.right_unique_forall₂' placeUnique declares.places again.places,
    List.right_unique_forall₂' transitionUnique declares.transitions again.transitions,
    List.right_unique_forall₂' arcUnique declares.arcs again.arcs⟩

theorem declares_nil_iff {contents : Contents} : (of []).Declares contents ↔ contents = .empty := by
  constructor
  · rintro ⟨places, transitions, arcs⟩
    rw [Contents.empty, ← List.forall₂_nil_left_iff.1 places,
      ← List.forall₂_nil_left_iff.1 transitions, ← List.forall₂_nil_left_iff.1 arcs]
  · rintro rfl
    exact ⟨.nil, .nil, .nil⟩

theorem of_cons (node : Xml.Node) (nodes : List Xml.Node) (name : String) :
    (node :: nodes).filter (Node.isNamed name) =
      [node].filter (Node.isNamed name) ++ nodes.filter (Node.isNamed name) :=
  List.filter_append [node] nodes

theorem Declares.append {front back : List Xml.Node} {one others : Contents}
    (first : (of front).Declares one) (behind : (of back).Declares others) :
    (of (front ++ back)).Declares (one ++ others) := by
  constructor <;> simp only [of, List.filter_append, Contents.append_def]
  · exact List.rel_append first.places behind.places
  · exact List.rel_append first.transitions behind.transitions
  · exact List.rel_append first.arcs behind.arcs

/-- What some elements declare is what the first one declares and then what the others do. -/
theorem declares_cons_iff {node : Xml.Node} {nodes : List Xml.Node} {contents : Contents} :
    (of (node :: nodes)).Declares contents ↔
      ∃ one others, (of [node]).Declares one ∧ (of nodes).Declares others ∧
        contents = one ++ others := by
  constructor
  · rintro ⟨places, transitions, arcs⟩
    simp only [of, of_cons node nodes, forall₂_append_iff] at places transitions arcs
    obtain ⟨place, places, isPlace, arePlaces, allPlaces⟩ := places
    obtain ⟨transition, transitions, isTransition, areTransitions, allTransitions⟩ := transitions
    obtain ⟨arc, arcs, isArc, areArcs, allArcs⟩ := arcs
    refine ⟨⟨place, transition, arc⟩, ⟨places, transitions, arcs⟩, ⟨isPlace, isTransition, isArc⟩,
      ⟨arePlaces, areTransitions, areArcs⟩, ?_⟩
    rw [Contents.append_def, ← allPlaces, ← allTransitions, ← allArcs]
  · rintro ⟨one, others, first, behind, rfl⟩
    exact first.append behind

/-- What is asked of the elements of a net. -/
structure IsLoadable (listing : Listing) : Prop where
  placeIds : ∀ node ∈ listing.places, ∃ id, node.Holds "id" id
  transitionIds : ∀ node ∈ listing.transitions, ∃ id, node.Holds "id" id
  sources : ∀ node ∈ listing.arcs, ∃ source, node.Holds "source" source
  targets : ∀ node ∈ listing.arcs, ∃ target, node.Holds "target" target
  markings : ∀ node ∈ listing.places, ∀ text, Annotates node "initialMarking" text →
    ∃ value ≤ 4294967295, Text.Numeral.Denotes text.toList value
  differentPlaces : listing.places.Pairwise fun one other =>
    ∀ id, one.Holds "id" id → ¬ other.Holds "id" id
  differentTransitions : listing.transitions.Pairwise fun one other =>
    ∀ id, one.Holds "id" id → ¬ other.Holds "id" id

/-- The ids that are declared are different just if the elements have different ids. -/
theorem nodup_ids_iff {α : Type} {related : Xml.Node → α → Prop} {key : α → String}
    {nodes : List Xml.Node} {found : List α}
    (keyed : ∀ node entry, related node entry → node.Holds "id" (key entry))
    (declared : List.Forall₂ related nodes found) : (found.map key).Nodup ↔
      nodes.Pairwise fun one other => ∀ id, one.Holds "id" id → ¬ other.Holds "id" id := by
  have ids : nodes.map (Node.attribute? "id") = (found.map key).map some := by
    rw [List.map_map, ← List.forall₂_eq_eq_eq, List.forall₂_map_left_iff, List.forall₂_map_right_iff]
    exact declared.imp fun node entry relates => Node.attribute?_eq_some_iff.2 (keyed node entry relates)
  have all : ∀ node ∈ nodes, ∃ id, node.attribute? "id" = some id := by
    intro node member
    have read := List.mem_map_of_mem (f := Node.attribute? "id") member
    rw [ids] at read
    obtain ⟨id, _, same⟩ := List.mem_map.1 read
    exact ⟨id, same.symm⟩
  rw [← List.nodup_map_iff (fun _ _ => Option.some.inj), ← ids, List.Nodup, List.pairwise_map]
  refine List.Pairwise.iff_of_mem ?_
  intro one other isOne _
  obtain ⟨id, held⟩ := all one isOne
  simp only [← Node.attribute?_eq_some_iff, held, Option.some.injEq, forall_eq']
  exact ne_comm

theorem exists_distinct_iff {listing : Listing} :
    (∃ contents, listing.Declares contents ∧ contents.Distinct) ↔ listing.IsLoadable := by
  constructor
  · rintro ⟨contents, ⟨places, transitions, arcs⟩, apartPlaces, apartTransitions⟩
    have eachPlace := exists_forall₂_iff.1 ⟨_, places⟩
    have eachTransition := exists_forall₂_iff.1 ⟨_, transitions⟩
    have eachArc := exists_forall₂_iff.1 ⟨_, arcs⟩
    simp only [exists_declaresPlace_iff, exists_declaresTransition_iff,
      exists_declaresArc_iff] at eachPlace eachTransition eachArc
    exact {
      placeIds := fun node member => (eachPlace node member).1
      transitionIds := eachTransition
      sources := fun node member => (eachArc node member).1
      targets := fun node member => (eachArc node member).2
      markings := fun node member => (eachPlace node member).2
      differentPlaces := (nodup_ids_iff (fun _ _ declares => declares.id) places).1 apartPlaces
      differentTransitions :=
        (nodup_ids_iff (fun _ _ declares => declares.id) transitions).1 apartTransitions }
  · intro loadable
    obtain ⟨places, arePlaces⟩ := exists_forall₂_iff.2 fun node member =>
      exists_declaresPlace_iff.2 ⟨loadable.placeIds node member, loadable.markings node member⟩
    obtain ⟨transitions, areTransitions⟩ := exists_forall₂_iff.2 fun node member =>
      exists_declaresTransition_iff.2 (loadable.transitionIds node member)
    obtain ⟨arcs, areArcs⟩ := exists_forall₂_iff.2 fun node member =>
      exists_declaresArc_iff.2 ⟨loadable.sources node member, loadable.targets node member⟩
    refine ⟨⟨places, transitions, arcs⟩, ⟨arePlaces, areTransitions, areArcs⟩, ?_, ?_⟩
    · exact (nodup_ids_iff (fun _ _ declares => declares.id) arePlaces).2 loadable.differentPlaces
    · exact (nodup_ids_iff (fun _ _ declares => declares.id) areTransitions).2
        loadable.differentTransitions

end Listing

/-- What an element declares by its name. -/
inductive DeclaresEdit (node : Xml.Node) : Edit → Prop
  | place {declared : Place} (named : node.isNamed "place") (declares : DeclaresPlace node declared) :
    DeclaresEdit node (.place declared)
  | transition {declared : Transition} (named : node.isNamed "transition")
    (declares : DeclaresTransition node declared) : DeclaresEdit node (.transition declared)
  | arc {declared : Arc} (named : node.isNamed "arc") (declares : DeclaresArc node declared) :
    DeclaresEdit node (.arc declared)

section One
variable {node : Xml.Node} {edit : Edit} {contents : Contents}

theorem isNamed_apart {one other : String} (named : node.isNamed one) (apart : one ≠ other) :
    node.isNamed other = false := by
  cases node with
  | element name attributes children =>
    have same : name.localName = one := beq_iff_eq.1 named
    exact beq_eq_false_iff_ne.2 (same ▸ apart)
  | text => rfl
  | comment => rfl
  | instruction => rfl

theorem editOf_of_place (named : node.isNamed "place") :
    editOf node = (some ∘ .place) <$> placeOf node := by
  rw [editOf, if_pos named]
  rfl

theorem editOf_of_transition (named : node.isNamed "transition") :
    editOf node = (some ∘ .transition) <$> transitionOf node := by
  have place : node.isNamed "place" = false := isNamed_apart named (by decide)
  rw [editOf, place, if_neg Bool.false_ne_true, if_pos named]
  rfl

theorem editOf_of_arc (named : node.isNamed "arc") : editOf node = (some ∘ .arc) <$> arcOf node := by
  have place : node.isNamed "place" = false := isNamed_apart named (by decide)
  have transition : node.isNamed "transition" = false := isNamed_apart named (by decide)
  rw [editOf, place, transition, if_neg Bool.false_ne_true, if_neg Bool.false_ne_true, if_pos named]
  rfl

theorem editOf_of_other (place : node.isNamed "place" = false)
    (transition : node.isNamed "transition" = false) (arc : node.isNamed "arc" = false) :
    editOf node = .ok none := by
  rw [editOf, place, transition, arc]
  rfl

/-- An element is read as what its name says, and nothing is read of an element with another name. -/
theorem editOf_cases (node : Xml.Node) :
    (node.isNamed "place" ∧ editOf node = (some ∘ .place) <$> placeOf node) ∨
      (node.isNamed "transition" ∧ editOf node = (some ∘ .transition) <$> transitionOf node) ∨
      (node.isNamed "arc" ∧ editOf node = (some ∘ .arc) <$> arcOf node) ∨
      ((∀ name ∈ ["place", "transition", "arc"], node.isNamed name = false) ∧
        editOf node = .ok none) := by
  by_cases place : node.isNamed "place"
  · exact .inl ⟨place, editOf_of_place place⟩
  · by_cases transition : node.isNamed "transition"
    · exact .inr (.inl ⟨transition, editOf_of_transition transition⟩)
    · by_cases arc : node.isNamed "arc"
      · exact .inr (.inr (.inl ⟨arc, editOf_of_arc arc⟩))
      · simp only [Bool.not_eq_true] at place transition arc
        exact .inr (.inr (.inr ⟨by simp [place, transition, arc],
          editOf_of_other place transition arc⟩))

theorem editOf_eq_some_iff : editOf node = .ok (some edit) ↔ DeclaresEdit node edit := by
  constructor
  · intro read
    obtain ⟨named, same⟩ | ⟨named, same⟩ | ⟨named, same⟩ | ⟨_, same⟩ := editOf_cases node
    · obtain ⟨declared, found, made⟩ := map_eq_ok_iff.1 (same ▸ read)
      exact Option.some.inj made ▸ .place named (placeOf_eq_ok_iff.1 found)
    · obtain ⟨declared, found, made⟩ := map_eq_ok_iff.1 (same ▸ read)
      exact Option.some.inj made ▸ .transition named (transitionOf_eq_ok_iff.1 found)
    · obtain ⟨declared, found, made⟩ := map_eq_ok_iff.1 (same ▸ read)
      exact Option.some.inj made ▸ .arc named (arcOf_eq_ok_iff.1 found)
    · rw [same] at read
      cases read
  · rintro (⟨named, declares⟩ | ⟨named, declares⟩ | ⟨named, declares⟩)
    · rw [editOf_of_place named, placeOf_eq_ok_iff.2 declares]
      rfl
    · rw [editOf_of_transition named, transitionOf_eq_ok_iff.2 declares]
      rfl
    · rw [editOf_of_arc named, arcOf_eq_ok_iff.2 declares]
      rfl

theorem forall₂_filter_singleton_iff {α : Type} {related : Xml.Node → α → Prop} {name : String}
    {found : List α} : List.Forall₂ related ([node].filter (Node.isNamed name)) found ↔
      if node.isNamed name then ∃ entry, related node entry ∧ found = [entry] else found = [] := by
  split_ifs with named <;> simp [named, List.forall₂_cons_left_iff]

/-- One element declares what is read of it. -/
theorem declares_singleton_iff : (Listing.of [node]).Declares contents ↔
    ∃ edit?, editOf node = .ok edit? ∧ contents = .of edit?.toList := by
  obtain ⟨places, transitions, arcs⟩ := contents
  simp only [Listing.declares_iff, Listing.of, forall₂_filter_singleton_iff, ← placeOf_eq_ok_iff,
    ← transitionOf_eq_ok_iff, ← arcOf_eq_ok_iff]
  obtain ⟨place, same⟩ | ⟨transition, same⟩ | ⟨arc, same⟩ | ⟨other, same⟩ := editOf_cases node
  · have transition : node.isNamed "transition" = false := isNamed_apart place (by decide)
    have arc : node.isNamed "arc" = false := isNamed_apart place (by decide)
    rw [same]
    cases placeOf node <;> simp [place, transition, arc]
  · have place : node.isNamed "place" = false := isNamed_apart transition (by decide)
    have arc : node.isNamed "arc" = false := isNamed_apart transition (by decide)
    rw [same]
    cases transitionOf node <;> simp [place, transition, arc]
  · have place : node.isNamed "place" = false := isNamed_apart arc (by decide)
    have transition : node.isNamed "transition" = false := isNamed_apart arc (by decide)
    rw [same]
    cases arcOf node <;> simp [place, transition, arc]
  · simp [other, same, Contents.of]

end One

section Load
variable {net next : Net} {node : Xml.Node} {nodes : List Xml.Node}

/-- What an element declares comes behind what there is. -/
theorem loadElement_eq_ok_iff : loadElement net node = .ok next ↔
    ∃ contents, (Listing.of [node]).Declares contents ∧ next.contents = net.contents ++ contents := by
  simp only [loadElement, bind_eq_ok_iff, declares_singleton_iff]
  constructor
  · rintro ⟨_ | edit, read, accepted⟩
    · cases accepted
      exact ⟨.empty, ⟨none, read, rfl⟩, (Contents.append_empty _).symm⟩
    · exact ⟨.of [edit], ⟨some edit, read, rfl⟩, accept_eq_ok_iff.1 accepted⟩
  · rintro ⟨_, ⟨_ | edit, read, rfl⟩, behind⟩
    · have same := Net.contents_inj.1 (behind.trans (Contents.append_empty _))
      exact ⟨none, read, congrArg Except.ok same.symm⟩
    · exact ⟨some edit, read, accept_eq_ok_iff.2 behind⟩

/-- What all elements declare comes behind what there is, in their order. -/
theorem loadElements_eq_ok_iff : nodes.foldlM loadElement net = .ok next ↔
    ∃ contents, (Listing.of nodes).Declares contents ∧ next.contents = net.contents ++ contents := by
  induction nodes generalizing net with
  | nil =>
    simp only [List.foldlM_nil, pure, Except.pure, Except.ok.injEq, Listing.declares_nil_iff,
      exists_eq_left, Contents.append_empty, Net.contents_inj, eq_comm]
  | cons node nodes ih =>
    rw [List.foldlM_cons, bind_eq_ok_iff]
    simp only [loadElement_eq_ok_iff, ih]
    constructor
    · rintro ⟨middle, ⟨one, first, grown⟩, others, behind, whole⟩
      refine ⟨_, Listing.declares_cons_iff.2 ⟨one, others, first, behind, rfl⟩, ?_⟩
      rw [whole, grown, Contents.append_assoc]
    · rintro ⟨contents, declared, whole⟩
      obtain ⟨one, others, first, behind, rfl⟩ := Listing.declares_cons_iff.1 declared
      -- No id of what is loaded is used twice, so none is after the first element either.
      have distinct := Net.exists_contents_iff.1 ⟨next, whole⟩
      rw [← Contents.append_assoc] at distinct whole
      obtain ⟨middle, grown⟩ := Net.exists_contents_iff.2 distinct.front
      exact ⟨middle, ⟨one, first, grown⟩, others, behind, grown ▸ whole⟩

end Load

/-- The elements of a net, at any depth, each kind in document order and none left out. -/
structure Lists (net : Xml.Node) (listing : Listing) : Prop where
  places : Ordered net.below? (Node.isNamed "place") listing.places
  transitions : Ordered net.below? (Node.isNamed "transition") listing.transitions
  arcs : Ordered net.below? (Node.isNamed "arc") listing.arcs

/-- The first element of a name in a document. -/
def IsFirst (root : Xml.Node) (name : String) (node : Xml.Node) : Prop :=
  ∃ address, root.at? address = some node ∧ node.isNamed name ∧
    ∀ earlier < address, ∀ other, root.at? earlier = some other → other.isNamed name = false

/-- What is loaded from a document: the first net of it with everything that its elements declare, if they
can be loaded, and otherwise nothing. -/
inductive Loads (root : Xml.Node) (outcome : Except LoadError Net) : Prop
  | missing (absent : ∀ address node, root.at? address = some node → node.isNamed "net" = false)
      (failed : outcome = .error .missingNet)
  | present {net : Xml.Node} {listing : Listing} (first : IsFirst root "net" net)
      (lists : Lists net listing) (found : outcome ≠ .error .missingNet)
      (succeeds : (∃ result, outcome = .ok result) ↔ listing.IsLoadable)
      (declares : ∀ result, outcome = .ok result → listing.Declares result.contents)

theorem lists_of (net : Xml.Node) : Lists net (.of (Node.elementsOf net.children)) where
  places := net.ordered_named_below "place"
  transitions := net.ordered_named_below "transition"
  arcs := net.ordered_named_below "arc"

/-- There is one list of the elements of a net. -/
theorem Lists.unique {net : Xml.Node} {listing other : Listing} (lists : Lists net listing)
    (again : Lists net other) : listing = other := by
  rw [Listing.mk.injEq]
  exact ⟨lists.places.unique again.places, lists.transitions.unique again.transitions,
    lists.arcs.unique again.arcs⟩

theorem IsFirst.unique {root node other : Xml.Node} {name : String} (first : IsFirst root name node)
    (again : IsFirst root name other) : node = other := by
  obtain ⟨address, standing, named, least⟩ := first
  obtain ⟨place, found, called, lowest⟩ := again
  obtain before | same | behind := lt_trichotomy address place
  · rw [lowest address before node standing] at named
    cases named
  · rw [same, found] at standing
    exact (Option.some.inj standing).symm
  · rw [least place behind other found] at called
    cases called

/-- A document leaves no choice of what is loaded from it. -/
theorem Loads.unique {root : Xml.Node} {one other : Except LoadError Net} (loads : Loads root one)
    (again : Loads root other) {result : Net} (loaded : one = .ok result) : other = .ok result := by
  cases loads with
  | missing _ failed =>
    rw [loaded] at failed
    cases failed
  | present first lists _ succeeds declares =>
    cases again with
    | missing absent _ =>
      obtain ⟨address, standing, named, _⟩ := first
      rw [absent address _ standing] at named
      cases named
    | present firstAgain listsAgain _ succeedsAgain declaresAgain =>
      obtain rfl := first.unique firstAgain
      obtain rfl := lists.unique listsAgain
      obtain ⟨second, read⟩ := succeedsAgain.2 (succeeds.1 ⟨result, loaded⟩)
      have same := (declares result loaded).unique (declaresAgain second read)
      rw [read, Net.contents_inj.1 same]

theorem missing_of_find? {root : Xml.Node} {name : String}
    (nothing : root.elements.find? (·.isNamed name) = none) {address : Address} {node : Xml.Node}
    (standing : root.at? address = some node) : node.isNamed name = false := by
  have ordered := root.ordered_named name
  rw [List.filter_eq_nil_iff.2 (List.find?_eq_none.1 nothing)] at ordered
  exact ordered.wanted_of_nil standing

theorem isFirst_of_find? {root net : Xml.Node} {name : String}
    (found : root.elements.find? (·.isNamed name) = some net) : IsFirst root name net := by
  have ordered := root.ordered_named name
  rw [← List.head?_filter] at found
  obtain ⟨behind, listed⟩ := List.head?_eq_some_iff.1 found
  rw [listed] at ordered
  exact ordered.first

/-- The faults of single elements. Once a net is found, that none is there is not among them. -/
inductive ElementFault : LoadError → Prop
  | attribute (element name : String) : ElementFault (.missingAttribute element name)
  | marking {id text : String} (unread : Text.Numeral.read? text.toList = none) :
    ElementFault (.invalidMarking id text)
  | used (kind : NodeKind) (id : String) : ElementFault (.duplicateId kind id)

namespace ElementFault
variable {net : Net} {node : Xml.Node} {nodes : List Xml.Node} {fault : LoadError}

theorem of_requiredAttribute {element name : String}
    (failed : requiredAttribute node element name = .error fault) : ElementFault fault := by
  obtain ⟨rfl, _⟩ := requiredAttribute_eq_error_iff.1 failed
  exact .attribute element name

theorem of_placeOf (failed : placeOf node = .error fault) : ElementFault fault := by
  obtain failed | ⟨id, _, failed⟩ := bind_eq_error_iff.1 failed
  · exact of_requiredAttribute failed
  · dsimp only at failed
    split at failed
    · cases failed
    · split at failed
      · cases failed
      · rename_i unread
        cases failed
        exact .marking unread

theorem of_transitionOf (failed : transitionOf node = .error fault) : ElementFault fault := by
  obtain failed | ⟨_, _, made⟩ := bind_eq_error_iff.1 failed
  · exact of_requiredAttribute failed
  · cases made

theorem of_arcOf (failed : arcOf node = .error fault) : ElementFault fault := by
  obtain failed | ⟨_, _, rest⟩ := bind_eq_error_iff.1 failed
  · exact of_requiredAttribute failed
  · obtain failed | ⟨_, _, made⟩ := bind_eq_error_iff.1 rest
    · exact of_requiredAttribute failed
    · cases made

theorem of_editOf (failed : editOf node = .error fault) : ElementFault fault := by
  obtain ⟨_, same⟩ | ⟨_, same⟩ | ⟨_, same⟩ | ⟨_, same⟩ := editOf_cases node
  · exact of_placeOf (map_eq_error_iff.1 (same ▸ failed))
  · exact of_transitionOf (map_eq_error_iff.1 (same ▸ failed))
  · exact of_arcOf (map_eq_error_iff.1 (same ▸ failed))
  · rw [same] at failed
    cases failed

theorem of_unlessReplaced {α : Type} {kind : NodeKind} {id : String} {added : Option α × Net}
    (failed : unlessReplaced kind id added = .error fault) : ElementFault fault := by
  obtain ⟨_ | old, net⟩ := added
  · cases failed
  · cases failed
    exact .used kind id

theorem of_loadElement (failed : loadElement net node = .error fault) : ElementFault fault := by
  obtain failed | ⟨_ | _ | _ | _, _, failed⟩ := bind_eq_error_iff.1 failed
  · exact of_editOf failed
  · cases failed
  · exact of_unlessReplaced failed
  · exact of_unlessReplaced failed
  · cases failed

theorem of_loadElements (failed : nodes.foldlM loadElement net = .error fault) :
    ElementFault fault := by
  obtain ⟨_, node, reached, _, _, failed⟩ := foldlM_eq_error_iff.1 failed
  exact of_loadElement failed

end ElementFault

theorem load_loads (root : Xml.Node) : Loads root (load root) := by
  unfold load
  cases found : root.elements.find? (·.isNamed "net") with
  | none => exact .missing (fun _ _ standing => missing_of_find? found standing) rfl
  | some net =>
    refine .present (isFirst_of_find? found) (lists_of net) (fun failed => ?_) ?_ ?_
    · cases ElementFault.of_loadElements failed
    · simp only [loadElements_eq_ok_iff, ← Listing.exists_distinct_iff, ← Net.exists_contents_iff]
      constructor
      · rintro ⟨result, contents, declares, same⟩
        exact ⟨contents, declares, result, same⟩
      · rintro ⟨contents, declares, result, same⟩
        exact ⟨result, contents, declares, same⟩
    · intro result loaded
      obtain ⟨contents, declares, same⟩ := loadElements_eq_ok_iff.1 loaded
      exact same ▸ declares

theorem load_ne_malformed (root : Xml.Node) : load root ≠ .error .malformed := by
  intro failed
  unfold load at failed
  split at failed
  · cases failed
  · cases ElementFault.of_loadElements failed

/-- A cause is told of a failure just if the text is no document. -/
theorem cause_isSome_iff {document : String} {failure : Failure}
    (failed : Pnml.read document = .error failure) :
    failure.cause.isSome ↔ failure.error = .malformed := by
  unfold Pnml.read at failed
  cases found : rootOf document with
  | error fault =>
    rw [found] at failed
    cases failed
    simp
  | ok root =>
    rw [found] at failed
    obtain ⟨error, faulty, rfl⟩ := mapError_eq_error_iff.1 failed
    have other : error ≠ .malformed := fun same => load_ne_malformed root (same ▸ faulty)
    simpa using other

/-- Every document is refused or read as a tree, and what is loaded is what the first net of the tree
declares. -/
theorem parse_loads : (∀ root, Loads root (load root)) ∧ ∀ document,
    root? document = none ∧ parse document = .error .malformed ∨
      ∃ root, root? document = some root ∧ Loads root (parse document) := by
  refine ⟨load_loads, fun document => ?_⟩
  cases found : rootOf document with
  | error fault =>
    exact .inl ⟨root?_eq_none_iff.2 ⟨fault, found⟩, parse_of_fault found⟩
  | ok root =>
    exact .inr ⟨root, root?_eq_some_iff.2 found, parse_of_rootOf found ▸ load_loads root⟩

/-- A place on a page, with a name in white space and without a marking, and an arc to nowhere. -/
example : (load (.element ⟨none, "net"⟩ [] [.element ⟨none, "page"⟩ [] [
    .element ⟨none, "place"⟩ [⟨⟨none, "id"⟩, "p0"⟩] [.element ⟨none, "name"⟩ [] [
      .element ⟨none, "text"⟩ [] [.text " idle "]]],
    .element ⟨none, "arc"⟩ [⟨⟨none, "source"⟩, "p0"⟩, ⟨⟨none, "target"⟩, "t0"⟩] []]])).map
      Net.contents = .ok ⟨[⟨"p0", "idle", 0⟩], [], [⟨"p0", "t0", "1"⟩]⟩ := by
  rfl

end Pnml
end PetriCode
