import PetriCode.Proofs.Generation

/-! The two tables of names of a module. That looking a position up and looking a name up undo each
other needs every name to be there once and none to be empty, which the register has seen to; that
it has seen to it across the two kinds and the count constants keeps the tables apart. -/
namespace PetriCode
namespace NameTable

structure Sound (table : NameTable) : Prop where
  distinct : table.names.Nodup
  inhabited : ∀ name ∈ table.names, name ≠ ""

variable {table : NameTable}

theorem nameOf_eq_none_iff {index : Nat} : table.nameOf index = none ↔ table.size ≤ index := by
  simp [nameOf, size]

theorem indexOf_of_not_mem {name : String} (absent : name ∉ table.names) :
    table.indexOf (some name) = table.size := by
  change (if name = "" then table.size else table.names.idxOf name) = table.size
  split
  · rfl
  · exact List.idxOf_eq_length absent

theorem indexOf_le (table : NameTable) (name : Option String) : table.indexOf name ≤ table.size := by
  cases name with
  | none => exact Nat.le_refl _
  | some name =>
    change (if name = "" then table.size else table.names.idxOf name) ≤ table.size
    split
    · exact Nat.le_refl _
    · exact List.idxOf_le_length

theorem indexOf_of_mem (sound : table.Sound) {name : String} (member : name ∈ table.names) :
    table.indexOf (some name) = table.names.idxOf name := by
  simp [indexOf, sound.inhabited name member]

theorem indexOf_lt_iff (sound : table.Sound) {name : String} :
    table.indexOf (some name) < table.size ↔ name ∈ table.names := by
  by_cases member : name ∈ table.names
  · rw [indexOf_of_mem sound member]
    exact iff_of_true (List.idxOf_lt_length_of_mem member) member
  · rw [indexOf_of_not_mem member]
    exact iff_of_false (Nat.lt_irrefl _) member

theorem nameOf_indexOf (sound : table.Sound) {name : String} (member : name ∈ table.names) :
    table.nameOf (table.indexOf (some name)) = some name := by
  have bound := List.idxOf_lt_length_of_mem member
  rw [indexOf_of_mem sound member, nameOf, List.getElem?_eq_getElem bound, List.getElem_idxOf]

theorem indexOf_nameOf (sound : table.Sound) {index : Nat} {name : String}
    (named : table.nameOf index = some name) : table.indexOf (some name) = index := by
  obtain ⟨bound, rfl⟩ := List.getElem?_eq_some_iff.1 named
  rw [indexOf_of_mem sound (List.getElem_mem bound)]
  exact sound.distinct.idxOf_getElem index bound

/-- A table lists labels in upper case, and its two lookups undo each other: a position has a name
exactly if it is below the length, and everything else than a name is found at the length. -/
structure Inverts (table : NameTable) (labels : List String) : Prop where
  size : table.size = labels.length
  names : ∀ index : Nat, table.names[index]? = labels[index]?.map Text.uppercase
  beyond : ∀ index, table.nameOf index = none ↔ table.size ≤ index
  back : ∀ index name, table.nameOf index = some name → table.indexOf (some name) = index
  found : ∀ text, table.indexOf (some text) < table.size ↔ text ∈ table.names
  forth : ∀ text ∈ table.names, table.nameOf (table.indexOf (some text)) = some text
  missing : ∀ text, text ∉ table.names → table.indexOf (some text) = table.size
  absent : table.indexOf none = table.size

theorem inverts_of_sound (sound : table.Sound) {labels : List String}
    (listed : table.names = labels.map Text.uppercase) : table.Inverts labels where
  size := by simp [size, listed]
  names := by simp [listed]
  beyond := fun _ => nameOf_eq_none_iff
  back := fun _ _ => indexOf_nameOf sound
  found := fun _ => indexOf_lt_iff sound
  forth := fun _ => nameOf_indexOf sound
  missing := fun _ => indexOf_of_not_mem
  absent := rfl

end NameTable

namespace Net

def labels (net : Net) : NodeKind → List String
  | .place => net.places.entries.map Place.label
  | .transition => net.transitions.entries.map Transition.label

def HasPlainLabels (net : Net) : Prop := ∀ kind, ∀ label ∈ net.labels kind, '\x00' ∉ label.toList

theorem names_named_kind (net : Net) (module : ModuleName) (kind : NodeKind) :
    (net.named module).names kind = (net.labels kind).map Text.uppercase := by
  cases kind <;> simp [Naming.names, named, labels, Node.name, Place.node, Transition.node]

/-- The name at the position of a node is its label in upper case. -/
theorem nameAt_named {net : Net} {kind : NodeKind} {position : Nat} {label : String} (module : ModuleName)
    (labelled : (net.labels kind)[position]? = some label) :
    (net.named module).nameAt kind position = Text.uppercase label := by
  rw [Naming.nameAt, names_named_kind, List.getElem?_map, labelled, Option.map_some, Option.getD_some]

theorem mem_claimedNames {net : Net} {module : ModuleName} {kind : NodeKind} {name : String}
    (member : name ∈ (net.named module).names kind) : name ∈ net.nodes.map Node.name := by
  rw [← names_named net module]
  cases kind with
  | place => exact List.mem_append_left _ member
  | transition => exact List.mem_append_right _ member

namespace Nameable
variable {net : Net} {module : ModuleName} (nameable : net.Nameable module)
include nameable

theorem nodup_nodes : (net.nodes.map Node.name).Nodup :=
  (List.nodup_append.1 nameable.distinct).2.1

theorem sound (kind : NodeKind) : ((net.named module).table kind).Sound where
  distinct := by
    have all := nameable.nodup_nodes
    rw [← names_named net module, List.nodup_append] at all
    cases kind with
    | place => exact all.1
    | transition => exact all.2.1
  inhabited := by
    intro name member
    obtain ⟨node, present, rfl⟩ := List.mem_map.1 (mem_claimedNames member)
    exact nameable.inhabited node present

theorem apart {name : String} (place : name ∈ (net.named module).places) :
    name ∉ (net.named module).transitions := by
  have all := nameable.nodup_nodes
  rw [← names_named net module, List.nodup_append] at all
  intro transition
  exact all.2.2 name place name transition rfl

theorem count_not_mem (kind other : NodeKind) :
    (net.named module).count other ∉ (net.named module).names kind := by
  intro member
  have distinct := (List.nodup_append.1 nameable.distinct).2.2
  have reserved : (net.named module).count other ∈
      [module.count .place, module.count .transition] := by
    cases other <;> simp [Naming.count, named]
  exact distinct _ reserved _ (mem_claimedNames member) rfl

end Nameable
end Net

/-- The count constants of a module as it is written: its upper case and one of two endings. -/
def countName (module : String) : NodeKind → String
  | .place => String.ofList (Text.uppercaseAscii module.toList) ++ "_PLACES_ALL"
  | .transition => String.ofList (Text.uppercaseAscii module.toList) ++ "_TRANS_ALL"

theorem count_eq_countName {module : String} {name : ModuleName}
    (named : ModuleName.ofString? module = some name) (kind : NodeKind) :
    name.count kind = countName module kind := by
  cases kind <;> simp [ModuleName.count, countName, ModuleName.upper_ofString named]

/-- Both tables of a generated module list the labels of their kind in upper case and are inverted by
their lookups. No text is found in both of them, and no count constant in either. -/
theorem tables_invert (net : Net) (module : String) (artifacts : Artifacts)
    (generated : generate net module = .ok artifacts) :
    (∀ kind, (artifacts.table kind).Inverts (net.labels kind)) ∧
      (∀ text, ¬ (artifacts.places.indexOf (some text) < artifacts.places.size ∧
        artifacts.transitions.indexOf (some text) < artifacts.transitions.size)) ∧
      ∀ kind, (artifacts.table kind).count = countName module kind ∧
        ∀ other, (artifacts.table other).indexOf (some (countName module kind)) =
          (artifacts.table other).size := by
  obtain ⟨name, incidences, named, nameable, _, rfl⟩ := generate_eq_ok_iff.1 generated
  refine ⟨?_, ?_, ?_⟩
  · intro kind
    rw [Artifacts.table_assemble]
    exact NameTable.inverts_of_sound (nameable.sound kind) (net.names_named_kind name kind)
  · intro text both
    have place := (NameTable.indexOf_lt_iff (nameable.sound .place)).1 both.1
    have transition := (NameTable.indexOf_lt_iff (nameable.sound .transition)).1 both.2
    exact nameable.apart place transition
  · intro kind
    refine ⟨?_, ?_⟩
    · rw [Artifacts.table_assemble, ← count_eq_countName named]
      rfl
    · intro other
      rw [Artifacts.table_assemble, ← count_eq_countName named]
      exact NameTable.indexOf_of_not_mem (nameable.count_not_mem other kind)

theorem tables_invert_handover : ∃ artifacts, generate handover "Demo" = .ok artifacts ∧
    (artifacts.table .place).Inverts ["idle", "straße"] := by
  obtain ⟨artifacts, generated⟩ := handover_generates
  have tables := tables_invert handover "Demo" artifacts generated
  exact ⟨artifacts, generated, tables.1 .place⟩

end PetriCode
