import Mathlib.Data.Finset.Card
import PetriCode.Proofs.Naming.Tables
import PetriCode.Proofs.Net.Edits

/-! Values that stay. Modules may be generated from a net again and again while places, transitions and arcs
are declared and declared anew. As ids keep their positions, and names have the positions of their
nodes in a table, a node keeps its value, whatever its label was and is. -/
namespace PetriCode

/-- A later table keeps the values of an earlier one, each for the nodes of a net. A node that is still there
has the value that it had, the others have values beyond the earlier table, and there are as many more
values as there are more ids. -/
structure NameTable.Keeps (later earlier : NameTable) (nodes known : List Node) : Prop where
  present : ∀ old ∈ known, ∃ node ∈ nodes, node.id = old.id
  values : ∀ old ∈ known, ∀ node ∈ nodes, node.id = old.id →
    later.indexOf (some node.name) = earlier.indexOf (some old.name) ∧
      earlier.indexOf (some old.name) < earlier.size
  fresh : ∀ node ∈ nodes, (∀ old ∈ known, old.id ≠ node.id) →
    earlier.size ≤ later.indexOf (some node.name) ∧
      later.indexOf (some node.name) < later.size
  size : later.size = earlier.size +
    ((nodes.map Node.id).toFinset \ (known.map Node.id).toFinset).card

section Tables
variable {table : NameTable} {nodes : List Node} {index : Nat} {node : Node}

/-- In a table of the names of some nodes a name is found at the position of its node. -/
theorem indexOf_name (sound : table.Sound) (named : table.names = nodes.map Node.name)
    (listed : nodes[index]? = some node) : table.indexOf (some node.name) = index := by
  apply NameTable.indexOf_nameOf sound
  rw [NameTable.nameOf, named, List.getElem?_map, listed, Option.map_some]

theorem index_lt_size (named : table.names = nodes.map Node.name)
    (listed : nodes[index]? = some node) : index < table.size := by
  obtain ⟨bound, _⟩ := List.getElem?_eq_some_iff.1 listed
  rwa [NameTable.size, named, List.length_map]

variable {known : List Node} (grown : known.map Node.id <+: nodes.map Node.id)
include grown

theorem id_of_isPrefix {old : Node} (listed : known[index]? = some old) :
    (nodes.map Node.id)[index]? = some old.id := by
  obtain ⟨added, whole⟩ := grown
  obtain ⟨bound, _⟩ := List.getElem?_eq_some_iff.1 listed
  rw [← whole, List.getElem?_append_left (by simpa using bound), List.getElem?_map, listed,
    Option.map_some]

variable (distinct : (nodes.map Node.id).Nodup)
include distinct

/-- There are as many more nodes as there are new ids. -/
theorem length_of_isPrefix : nodes.length =
    known.length + ((nodes.map Node.id).toFinset \ (known.map Node.id).toFinset).card := by
  obtain ⟨added, whole⟩ := grown
  have lengths := congrArg List.length whole
  rw [List.length_append, List.length_map, List.length_map] at lengths
  rw [← whole] at distinct ⊢
  obtain ⟨_, addedDistinct, apart⟩ := List.nodup_append.1 distinct
  have disjoint : Disjoint (known.map Node.id).toFinset added.toFinset := by
    rw [List.disjoint_toFinset_iff_disjoint]
    intro id first second
    exact apart id first id second rfl
  rw [List.toFinset_append, Finset.union_sdiff_cancel_left disjoint,
    List.toFinset_card_of_nodup addedDistinct, lengths]

variable {later earlier : NameTable}

theorem keeps_of_isPrefix (sound : later.Sound) (earlierSound : earlier.Sound)
    (named : later.names = nodes.map Node.name)
    (earlierNamed : earlier.names = known.map Node.name) : later.Keeps earlier nodes known := by
  refine ⟨?_, ?_, ?_, ?_⟩
  · intro old member
    obtain ⟨position, listed⟩ := List.mem_iff_getElem?.1 member
    obtain ⟨node, isNode, same⟩ :=
      List.mem_map.1 (List.mem_of_getElem? (id_of_isPrefix grown listed))
    exact ⟨node, isNode, same⟩
  · intro old member node isNode same
    obtain ⟨position, listed⟩ := List.mem_iff_getElem?.1 member
    obtain ⟨index, found⟩ := List.mem_iff_getElem?.1 isNode
    have id : (nodes.map Node.id)[index]? = some old.id := by
      rw [List.getElem?_map, found, Option.map_some, same]
    obtain ⟨bound, _⟩ := List.getElem?_eq_some_iff.1 id
    have still : index = position :=
      (List.getElem?_inj bound distinct).1 (id.trans (id_of_isPrefix grown listed).symm)
    rw [indexOf_name sound named found, indexOf_name earlierSound earlierNamed listed]
    exact ⟨still, index_lt_size earlierNamed listed⟩
  · intro node isNode unknown
    obtain ⟨index, found⟩ := List.mem_iff_getElem?.1 isNode
    rw [indexOf_name sound named found]
    refine ⟨?_, index_lt_size named found⟩
    -- A node inside the earlier table would have the id of the node that was there.
    by_contra inside
    rw [NameTable.size, earlierNamed, List.length_map, Nat.not_le] at inside
    have listed := List.getElem?_eq_getElem inside
    have again := id_of_isPrefix grown listed
    rw [List.getElem?_map, found, Option.map_some, Option.some.injEq] at again
    exact unknown _ (List.mem_of_getElem? listed) again.symm
  · rw [NameTable.size, NameTable.size, named, earlierNamed, List.length_map, List.length_map]
    exact length_of_isPrefix grown distinct

end Tables

/-- However places, transitions and arcs are declared between two generations, each place and each
transition has the same value in both. The new ones have values beyond the earlier ones, one for each
new id. The modules may have different names. -/
theorem values_stay (net : Net) (edits : List Edit) (module other : String)
    (earlier later : Artifacts) (generated : generate net module = .ok earlier)
    (regenerated : generate (net.edited edits) other = .ok later) (kind : NodeKind) :
    (later.table kind).Keeps (earlier.table kind) ((net.edited edits).nodesOf kind)
      (net.nodesOf kind) := by
  obtain ⟨first, _, _, nameable, _, rfl⟩ := generate_eq_ok_iff.1 generated
  obtain ⟨second, _, _, renameable, _, rfl⟩ := generate_eq_ok_iff.1 regenerated
  rw [Artifacts.table_assemble, Artifacts.table_assemble]
  exact keeps_of_isPrefix (net.idsOf_isPrefix_edited edits kind)
    ((net.edited edits).nodup_idsOf kind) (renameable.sound kind) (nameable.sound kind)
    ((net.edited edits).names_named_nodesOf second kind) (net.names_named_nodesOf first kind)

/-- Declarations that exchange the labels of two places and add a place, a transition and an arc. -/
def exchange : List Edit :=
  [.place ⟨"p2", "wait", 4⟩, .place ⟨"p0", "straße", 1⟩, .arc ⟨"p2", "t1", "1"⟩,
    .transition ⟨"t1", "stop"⟩, .place ⟨"p1", "idle", 0⟩]

theorem values_stay_exchanged : ∃ earlier later, generate handover "Demo" = .ok earlier ∧
    generate (handover.edited exchange) "Other" = .ok later ∧
      later.places.indexOf (some "STRASSE") = earlier.places.indexOf (some "IDLE") ∧
      later.places.indexOf (some "IDLE") = earlier.places.indexOf (some "STRASSE") ∧
      later.places.size = earlier.places.size + 1 := by
  obtain ⟨earlier, generated⟩ := handover_generates
  obtain ⟨later, regenerated⟩ : ∃ later, generate (handover.edited exchange) "Other" = .ok later :=
    exists_ok_of_isOk (by decide +kernel)
  have keeps := values_stay handover exchange "Demo" "Other" earlier later generated regenerated .place
  have known : handover.nodesOf .place = [⟨.place, "p0", "idle"⟩, ⟨.place, "p1", "straße"⟩] := rfl
  have nodes : (handover.edited exchange).nodesOf .place =
      [⟨.place, "p0", "straße"⟩, ⟨.place, "p1", "idle"⟩, ⟨.place, "p2", "wait"⟩] := by decide
  have idle : Text.uppercase "idle" = "IDLE" := by decide +kernel
  have street : Text.uppercase "straße" = "STRASSE" := by decide +kernel
  rw [known, nodes] at keeps
  have first := (keeps.values ⟨.place, "p0", "idle"⟩ (by simp) ⟨.place, "p0", "straße"⟩
    (by simp) rfl).1
  have second := (keeps.values ⟨.place, "p1", "straße"⟩ (by simp) ⟨.place, "p1", "idle"⟩
    (by simp) rfl).1
  have size := keeps.size
  simp only [Node.name, idle, street] at first second
  exact ⟨earlier, later, generated, regenerated, first, second, size⟩

end PetriCode
