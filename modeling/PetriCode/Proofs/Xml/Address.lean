import Mathlib.Data.List.Lex
import PetriCode.Xml.Node

/-! Document order. An address is the way to a node from one above it, by the positions of the
children on the way. Of two nodes the one with the smaller address stands first in the document:
addresses are compared like words, so a node stands before what is below it. -/
namespace PetriCode.Xml

/-- The positions of the children on the way to a node. -/
abbrev Address := List Nat

/-- The address by way of the next child. -/
def Address.next : Address → Address
  | [] => []
  | position :: address => (position + 1) :: address

/-- Nodes in the order of their addresses: all that are found at some address and are wanted, each as
often as there are addresses of it. -/
def Ordered (find? : Address → Option Node) (wanted : Node → Bool) (listed : List Node) : Prop :=
  ∃ addresses : List Address, addresses.Pairwise (· < ·) ∧
    (∀ address, address ∈ addresses ↔ ∃ node, find? address = some node ∧ wanted node) ∧
    addresses.map find? = listed.map some

namespace Ordered
variable {find? : Address → Option Node} {wanted : Node → Bool} {listed : List Node}

/-- Order and membership leave no choice. -/
theorem unique {other : List Node} (ordered : Ordered find? wanted listed)
    (again : Ordered find? wanted other) : listed = other := by
  obtain ⟨addresses, increasing, present, looked⟩ := ordered
  obtain ⟨others, rising, found, seen⟩ := again
  have perm : addresses.Perm others := by
    rw [List.perm_ext_iff_of_nodup (increasing.imp fun before => before.ne)
      (rising.imp fun before => before.ne)]
    intro address
    rw [present, found]
  have same : addresses = others :=
    perm.eq_of_pairwise (fun _ _ _ _ before after => absurd after before.asymm) increasing rising
  rw [same, seen] at looked
  exact (List.map_injective_iff.2 (fun _ _ => Option.some.inj) looked).symm

theorem filter (ordered : Ordered find? wanted listed) (kept : Node → Bool) :
    Ordered find? (fun node => wanted node && kept node) (listed.filter kept) := by
  obtain ⟨addresses, increasing, present, looked⟩ := ordered
  refine ⟨addresses.filter fun address => (find? address).any kept,
    increasing.filter _, ?_, ?_⟩
  · intro address
    rw [List.mem_filter, present]
    constructor
    · rintro ⟨⟨node, found, wants⟩, keeps⟩
      rw [found] at keeps
      exact ⟨node, found, Bool.and_eq_true_iff.2 ⟨wants, keeps⟩⟩
    · rintro ⟨node, found, both⟩
      rw [Bool.and_eq_true] at both
      exact ⟨⟨node, found, both.1⟩, by simpa [found] using both.2⟩
  · have both := congrArg (List.filter (Option.any kept)) looked
    rw [List.filter_map, List.filter_map] at both
    exact both

theorem wanted_of_nil (ordered : Ordered find? wanted []) {address : Address} {node : Node}
    (found : find? address = some node) : wanted node = false := by
  obtain ⟨addresses, _, present, looked⟩ := ordered
  rw [List.map_nil, List.map_eq_nil_iff] at looked
  subst looked
  by_contra holds
  have member := (present address).2 ⟨node, found, by simpa using holds⟩
  cases member

/-- Nothing that is wanted stands before the first. -/
theorem first {node : Node} (ordered : Ordered find? wanted (node :: listed)) :
    ∃ address, find? address = some node ∧ wanted node ∧
      ∀ earlier < address, ∀ other, find? earlier = some other → wanted other = false := by
  obtain ⟨addresses, increasing, present, looked⟩ := ordered
  cases addresses with
  | nil => cases looked
  | cons address addresses =>
    rw [List.map_cons, List.map_cons, List.cons.injEq] at looked
    obtain ⟨found, _⟩ := looked
    obtain ⟨same, seen, holds⟩ := (present address).1 List.mem_cons_self
    rw [found, Option.some.injEq] at seen
    subst seen
    refine ⟨address, found, holds, ?_⟩
    intro earlier before other seen
    by_contra wants
    have member := (present earlier).2 ⟨other, seen, by simpa using wants⟩
    obtain rfl | behind := List.mem_cons.1 member
    · exact absurd before (lt_irrefl _)
    · exact absurd before ((List.pairwise_cons.1 increasing).1 earlier behind).asymm

end Ordered

namespace Node

def isElement : Node → Bool
  | element .. => true
  | _ => false

theorem isElement_of_isNamed {node : Node} {name : String} (named : node.isNamed name) :
    node.isElement := by
  cases node with
  | element => rfl
  | text => cases named
  | comment => cases named
  | instruction => cases named

/-- What stands at an address. -/
def at? : Node → Address → Option Node
  | node, [] => some node
  | node, position :: address => node.children[position]?.bind (at? · address)

/-- What stands at an address whose first position is one in a list. -/
def among? (nodes : List Node) : Address → Option Node
  | [] => none
  | position :: address => nodes[position]?.bind (at? · address)

/-- What stands at an address below a node. -/
def below? (node : Node) : Address → Option Node := among? node.children

end Node

namespace Ordered
variable {wanted : Node → Bool}

/-- Nothing stands at the empty address among some nodes. -/
theorem exists_cons {nodes : List Node} {addresses : List Address}
    (present : ∀ address, address ∈ addresses ↔
      ∃ node, Node.among? nodes address = some node ∧ wanted node) :
    ∀ address ∈ addresses, ∃ position rest, address = position :: rest := by
  intro address member
  cases address with
  | nil =>
    obtain ⟨_, nothing, _⟩ := (present []).1 member
    cases nothing
  | cons position rest => exact ⟨position, rest, rfl⟩

/-- The addresses by way of the first child are smaller than those by way of the others. -/
theorem pairwise_near_far {near far : List Address} (rising : near.Pairwise (· < ·))
    (increasing : far.Pairwise (· < ·))
    (inhabited : ∀ address ∈ far, ∃ position rest, address = position :: rest) :
    (near.map (0 :: ·) ++ far.map Address.next).Pairwise (· < ·) := by
  rw [List.pairwise_append, List.pairwise_map, List.pairwise_map]
  refine ⟨rising.imp fun before => List.cons_lt_cons_iff.2 (.inr ⟨rfl, before⟩), ?_, ?_⟩
  · refine increasing.imp_of_mem ?_
    intro lower upper isLower isUpper before
    obtain ⟨first, firsts, rfl⟩ := inhabited lower isLower
    obtain ⟨second, seconds, rfl⟩ := inhabited upper isUpper
    simpa [Address.next, List.cons_lt_cons_iff] using before
  · intro lower isLower upper isUpper
    obtain ⟨_, _, rfl⟩ := List.mem_map.1 isLower
    obtain ⟨address, member, rfl⟩ := List.mem_map.1 isUpper
    obtain ⟨position, rest, rfl⟩ := inhabited address member
    simp [Address.next, List.cons_lt_cons_iff]

/-- A node stands before what is below it. -/
theorem cons {node : Node} {listed : List Node} (wants : wanted node)
    (below : Ordered node.below? wanted listed) : Ordered node.at? wanted (node :: listed) := by
  obtain ⟨addresses, increasing, present, looked⟩ := below
  have inhabited := exists_cons present
  have same : ∀ address ∈ addresses, node.at? address = node.below? address := by
    intro address member
    obtain ⟨position, rest, rfl⟩ := inhabited address member
    rfl
  refine ⟨[] :: addresses, List.pairwise_cons.2 ⟨?_, increasing⟩, ?_, ?_⟩
  · intro address member
    obtain ⟨position, rest, rfl⟩ := inhabited address member
    exact List.nil_lt_cons position rest
  · intro address
    cases address with
    | nil => simpa [Node.at?] using wants
    | cons position address =>
      rw [List.mem_cons, or_iff_right (List.cons_ne_nil _ _)]
      exact present (position :: address)
  · rw [List.map_cons, List.map_congr_left same, looked]
    rfl

/-- What is below the first of some nodes stands before what is below the others. -/
theorem append {node : Node} {nodes one other : List Node} (first : Ordered node.at? wanted one)
    (others : Ordered (Node.among? nodes) wanted other) :
    Ordered (Node.among? (node :: nodes)) wanted (one ++ other) := by
  obtain ⟨near, rising, present, looked⟩ := first
  obtain ⟨far, increasing, found, seen⟩ := others
  have inhabited := exists_cons found
  refine ⟨near.map (0 :: ·) ++ far.map Address.next,
    pairwise_near_far rising increasing inhabited, ?_, ?_⟩
  · intro address
    rw [List.mem_append, List.mem_map, List.mem_map]
    constructor
    · rintro (⟨rest, member, rfl⟩ | ⟨address, member, rfl⟩)
      · exact (present rest).1 member
      · obtain ⟨position, rest, rfl⟩ := inhabited address member
        exact (found (position :: rest)).1 member
    · rintro ⟨node, standing, wants⟩
      match address with
      | [] => cases standing
      | 0 :: rest => exact .inl ⟨rest, (present rest).2 ⟨node, standing, wants⟩, rfl⟩
      | (position + 1) :: rest =>
        exact .inr ⟨position :: rest, (found (position :: rest)).2 ⟨node, standing, wants⟩, rfl⟩
  · rw [List.map_append, List.map_append, ← looked, ← seen, List.map_map, List.map_map]
    congr 1
    apply List.map_congr_left
    intro address member
    obtain ⟨position, rest, rfl⟩ := inhabited address member
    rfl

theorem nil {find? : Address → Option Node} (nothing : ∀ address node, find? address = some node →
    wanted node = false) : Ordered find? wanted [] := by
  refine ⟨[], List.Pairwise.nil, ?_, rfl⟩
  intro address
  refine iff_of_false List.not_mem_nil ?_
  rintro ⟨node, found, wants⟩
  rw [nothing address node found] at wants
  cases wants

end Ordered

namespace Node

theorem at?_of_childless {node found : Node} (childless : node.children = []) {address : Address}
    (standing : node.at? address = some found) : found = node := by
  cases address with
  | nil => exact (Option.some.inj standing).symm
  | cons position address => simp [at?, childless] at standing

mutual
/-- The elements of a node are listed in document order, none left out. -/
theorem ordered_elements : ∀ node : Node, Ordered node.at? isElement node.elements
  | .element _ _ children => .cons rfl (ordered_elementsOf children)
  | .text content => .nil fun _ _ standing => by rw [at?_of_childless rfl standing]; rfl
  | .comment content => .nil fun _ _ standing => by rw [at?_of_childless rfl standing]; rfl
  | .instruction target content => .nil fun _ _ standing => by
    rw [at?_of_childless rfl standing]; rfl

theorem ordered_elementsOf : ∀ nodes : List Node,
    Ordered (among? nodes) isElement (elementsOf nodes)
  | [] => .nil fun address _ standing => by cases address <;> cases standing
  | node :: nodes => .append (ordered_elements node) (ordered_elementsOf nodes)
end

theorem isElement_and_isNamed (name : String) :
    (fun node : Node => node.isElement && node.isNamed name) = isNamed name := by
  funext node
  cases named : node.isNamed name with
  | false => rw [Bool.and_false]
  | true => rw [isElement_of_isNamed named, Bool.and_true]

theorem ordered_named (node : Node) (name : String) :
    Ordered node.at? (isNamed name) (node.elements.filter (isNamed name)) := by
  have ordered := (ordered_elements node).filter (isNamed name)
  rwa [isElement_and_isNamed] at ordered

theorem ordered_named_below (node : Node) (name : String) :
    Ordered node.below? (isNamed name) ((elementsOf node.children).filter (isNamed name)) := by
  have ordered := (ordered_elementsOf node.children).filter (isNamed name)
  rwa [isElement_and_isNamed] at ordered

end Node
end PetriCode.Xml
