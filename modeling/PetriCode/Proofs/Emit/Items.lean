import PetriCode.Proofs.C.Reading
import PetriCode.Proofs.Emit.Readable

/-! What the files of a module are read as. Each is read as the items of its declarations if all names of
nodes are names in C. Without the function that makes the net an implementation is read whatever the
names are, since apart from that function they stand in literals only. -/
namespace PetriCode.Emit
open C
variable (naming : Naming) (marking : List Weight) (incidences : List Incidence)

def directives : List Item :=
  [.directive "include <stddef.h>", .directive "include <string.h>",
    .directive ("include \"" ++ runtimeHeader ++ "\""),
    .directive ("include \"" ++ naming.module.interfaceFile ++ "\"")]

def arrays : List Item :=
  (tables naming).map fun table => .nameArray table.array table.count (table.names.map bytes)

def functions : List Item :=
  NodeKind.all.map (fun kind =>
      .function (textHead naming.module kind) (textBody (naming.table kind) (positionName kind))) ++
    NodeKind.all.map fun kind =>
      .function (positionHead naming.module kind) (positionBody (naming.table kind))

theorem items_preamble :
    (preamble naming).flatten.filterMap Declaration.item? = directives naming ++ arrays naming := by
  have items (tables : List NameTable) :
      (tables.map fun table => [table.declaration]).flatten.filterMap Declaration.item? =
        tables.map fun table => .nameArray table.array table.count (table.names.map bytes) := by
    induction tables with
    | nil => rfl
    | cons table tables ih => simpa [NameTable.declaration, Declaration.item?] using ih
  rw [preamble, List.flatten_append, List.filterMap_append, items]
  rfl

theorem items_lookups : (lookups naming).flatten.filterMap Declaration.item? = functions naming := by
  simp [lookups, functions, NodeKind.all, Declaration.item?, textLookup, positionLookup]

theorem constructor_body :
    (constructor naming marking incidences).body.flatten =
      allocation naming ++ (if marking = [] then [] else markingStatements naming marking) ++
        incidences.map (arcStatement naming) ++ [.returns (.name "net")] := by
  unfold constructor
  split_ifs <;> simp_all

variable {naming marking incidences} in
theorem mem_constructor {statement : Statement} :
    statement ∈ (constructor naming marking incidences).body.flatten ↔
      statement ∈ allocation naming ∨
        (marking ≠ [] ∧ statement ∈ markingStatements naming marking) ∨
          (∃ incidence ∈ incidences, arcStatement naming incidence = statement) ∨
            statement = .returns (.name "net") := by
  have marked : statement ∈ (if marking = [] then [] else markingStatements naming marking) ↔
      marking ≠ [] ∧ statement ∈ markingStatements naming marking := by
    split_ifs <;> simp_all
  rw [constructor_body, List.mem_append, List.mem_append, List.mem_append, List.mem_singleton,
    List.mem_map, marked, or_assoc, or_assoc]

theorem interface_parts : interface naming =
    ([[banner naming.module, .pragmaOnce], [.includeQuoted runtimeHeader]] ++
      NodeKind.all.map fun kind => [enumeration naming kind]) ++
      [[.prototype (constructorHead naming.module), .prototype (textHead naming.module .place),
        .prototype (textHead naming.module .transition),
        .prototype (positionHead naming.module .place)] ++
        [.prototype (positionHead naming.module .transition)]] := rfl

theorem lookups_parts : lookups naming =
    [[.function (textLookup naming .place)], [.function (textLookup naming .transition)],
      [.function (positionLookup naming .place)]] ++
      [[] ++ [.function (positionLookup naming .transition)]] := rfl

theorem implementation_parts : implementation naming marking incidences =
    (preamble naming ++ [[.function (constructor naming marking incidences)]] ++
      [[.function (textLookup naming .place)], [.function (textLookup naming .transition)],
        [.function (positionLookup naming .place)]]) ++
      [[] ++ [.function (positionLookup naming .transition)]] := by
  rw [implementation_eq, lookups_parts, ← List.append_assoc]

/-- Neither file ends in a line that a trim would remove, so each is the text of its lines. -/
theorem interface_laid : (unitText (interface naming)).toList = laid (unitLines (interface naming)) := by
  rw [interface_parts]
  exact unitText_eq_laid _

theorem implementation_laid : (unitText (implementation naming marking incidences)).toList =
    laid (unitLines (implementation naming marking incidences)) := by
  rw [implementation_parts]
  exact unitText_eq_laid _

theorem read_interface (identified : naming.Identified) :
    read (unitText (interface naming)) =
      some ((interface naming).flatten.filterMap Declaration.item?) :=
  read_unitText _ (interface_parts naming) (readable_interface identified)

theorem items_implementation :
    (implementation naming marking incidences).flatten.filterMap Declaration.item? =
      directives naming ++ arrays naming ++
        [.function (constructorHead naming.module)
          (constructor naming marking incidences).body.flatten] ++ functions naming := by
  rw [implementation_eq, List.flatten_append, List.flatten_append, List.filterMap_append,
    List.filterMap_append, items_preamble, items_lookups]
  rfl

theorem read_implementation (identified : naming.Identified) :
    read (unitText (implementation naming marking incidences)) =
      some (directives naming ++ arrays naming ++
        [.function (constructorHead naming.module)
          (constructor naming marking incidences).body.flatten] ++ functions naming) := by
  rw [read_unitText _ (implementation_parts naming marking incidences)
    (readable_implementation identified marking incidences), items_implementation]

theorem read_around_constructor : ∃ before after,
    unitText (implementation naming marking incidences) =
      before ++ joined (constructor naming marking incidences).lines ++ "\n\n" ++ after ∧
    read (before ++ after) = some (directives naming ++ arrays naming ++ functions naming) := by
  have parts : preamble naming ++ lookups naming = (preamble naming ++
      [[.function (textLookup naming .place)], [.function (textLookup naming .transition)],
        [.function (positionLookup naming .place)]]) ++
        [[] ++ [.function (positionLookup naming .transition)]] := by
    rw [lookups_parts, List.append_assoc]
  have readable : ∀ paragraph ∈ preamble naming ++ lookups naming,
      ∀ declaration ∈ paragraph, declaration.Readable := by
    intro paragraph member
    obtain front | back := List.mem_append.1 member
    · exact readable_preamble naming paragraph front
    · exact readable_lookups naming paragraph back
  have begins : preamble naming ≠ [] := by simp [preamble]
  obtain ⟨before, after, whole, without⟩ := unitText_around (lookups_parts naming) begins
    (.function (constructor naming marking incidences))
  refine ⟨before, after, ?_, ?_⟩
  · rw [implementation_eq, whole]
    rfl
  · rw [← without, read_unitText _ parts readable, List.flatten_append, List.filterMap_append,
      items_preamble, items_lookups]

end PetriCode.Emit
