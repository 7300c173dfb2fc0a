import PetriCode.Proofs.Emit.Vocabulary
import PetriCode.Proofs.Rebuild

/-! Names of a module and names from elsewhere. Constants have no lower case letter, functions and arrays
end in letters that no other name ends in, and what is taken from elsewhere has a lower case letter
with one exception. The register does not know of that one: a label that is `NULL` in upper case
is accepted, and its constant has the name of the null pointer. -/
namespace PetriCode
open C Emit

def hasLower (text : String) : Bool := text.toList.any Char.isLower

/-- What the names of functions and arrays add to the name of their module. -/
def endings : List String :=
  ["_petri_new", "_petri_place_str", "_petri_trans_str", "_petri_str_place", "_petri_str_trans",
    "_place_names", "_trans_names"]

namespace ModuleName
variable (name : ModuleName)

def lowered : List String := endings.map (name.lower ++ ·)

theorem lowered_eq : name.lowered =
    (heads name).map Prototype.name ++ NodeKind.all.map name.nameArray := rfl

theorem nodup_lowered : name.lowered.Nodup :=
  List.Nodup.map (fun _ _ => String.append_right_inj name.lower |>.1) (by decide)

theorem hasLower_of_lowered {text : String} (member : text ∈ name.lowered) : hasLower text := by
  have lower : ∀ ending ∈ endings, hasLower ending := by decide +kernel
  obtain ⟨ending, known, rfl⟩ := List.mem_map.1 member
  rw [hasLower, String.toList_append, List.any_append, Bool.or_eq_true]
  exact .inr (lower ending known)

theorem isName_of_lowered {text : String} (member : text ∈ name.lowered) : IsName text := by
  have known : endings ⊆ suffixes := by decide
  obtain ⟨ending, present, rfl⟩ := List.mem_map.1 member
  exact isName_append name.isIdentifier_lower (known present)

theorem lowered_not_foreign {text : String} (member : text ∈ name.lowered) :
    text ∉ foreignNames := by
  have apart : ∀ other ∈ foreignNames, ∀ ending ∈ endings, ¬ ending.toList <:+ other.toList := by
    decide +kernel
  obtain ⟨ending, known, rfl⟩ := List.mem_map.1 member
  intro foreign
  apply apart _ foreign ending known
  rw [String.toList_append]
  exact List.suffix_append _ _

theorem hasLower_count (kind : NodeKind) : hasLower (name.count kind) = false := by
  have upper : name.upper.toList.any Char.isLower = false := by
    rw [List.any_eq_false, ModuleName.upper, String.toList_ofList]
    exact fun c member => by simp [Text.isLower_eq_false_of_mem_uppercaseAscii member]
  cases kind <;> simp [hasLower, ModuleName.count, upper]

theorem count_ne_null (kind : NodeKind) : name.count kind ≠ "NULL" := by
  intro same
  have length := congrArg String.length same
  have four : "NULL".length = 4 := rfl
  have long : "_PLACES_ALL".length = 11 ∧ "_TRANS_ALL".length = 10 := ⟨rfl, rfl⟩
  cases kind <;> rw [ModuleName.count, String.length_append, four] at length <;> omega

end ModuleName

section Declared
variable {net : Net} {module : ModuleName}

theorem mem_constants {name : String} : name ∈ (net.named module).enumerations.flatten ↔
    ∃ kind, (∃ label ∈ net.labels kind, Text.uppercase label = name) ∨ module.count kind = name := by
  have counts (kind : NodeKind) : (net.named module).count kind = module.count kind := rfl
  simp only [Naming.mem_enumerations, Naming.constants, Net.names_named_kind, List.mem_append,
    List.mem_map, List.mem_singleton, counts, eq_comm (a := name)]

theorem hasLower_of_constant {name : String}
    (member : name ∈ (net.named module).enumerations.flatten) : hasLower name = false := by
  obtain ⟨kind, ⟨label, _, rfl⟩ | rfl⟩ := mem_constants.1 member
  · simp only [hasLower, List.any_eq_false, Bool.not_eq_true]
    exact fun _ => Text.isLower_eq_false_of_mem_uppercase
  · exact module.hasLower_count kind

/-- The names of functions and of those arrays that there are. -/
theorem declared_split (net : Net) (module : ModuleName) : ∃ others, declared (net.named module) =
    (net.named module).enumerations.flatten ++ others ∧ others.Sublist module.lowered := by
  refine ⟨_, List.append_assoc _ _ _, ?_⟩
  rw [ModuleName.lowered_eq]
  apply List.Sublist.append_left
  exact List.filter_sublist.map NameTable.array

theorem not_keyword_of_declared {name : String} (member : name ∈ declared (net.named module)) :
    name ∉ keywords := by
  obtain ⟨others, split, lowered⟩ := declared_split net module
  rw [split, List.mem_append] at member
  obtain constant | other := member
  · intro keyword
    have lower : hasLower name := List.all_eq_true.1 lower_of_keyword name keyword
    rw [hasLower_of_constant constant] at lower
    cases lower
  · exact (module.isName_of_lowered (lowered.subset other)).2

/-- No name of a module is one from elsewhere, unless a label makes it the null pointer. -/
theorem eq_null_of_declared {name : String} (member : name ∈ declared (net.named module))
    (foreign : name ∈ foreignNames) : name = "NULL" := by
  have lower : ∀ name ∈ foreignNames, name ≠ "NULL" → hasLower name := by decide +kernel
  obtain ⟨others, split, lowered⟩ := declared_split net module
  rw [split, List.mem_append] at member
  obtain constant | other := member
  · by_contra proper
    have letters := lower name foreign proper
    rw [hasLower_of_constant constant] at letters
    cases letters
  · exact absurd foreign (module.lowered_not_foreign (lowered.subset other))

theorem null_mem_declared_iff : "NULL" ∈ declared (net.named module) ↔
    ∃ kind, ∃ label ∈ net.labels kind, Text.uppercase label = "NULL" := by
  obtain ⟨others, split, lowered⟩ := declared_split net module
  have proper : "NULL" ∉ others := fun member =>
    module.lowered_not_foreign (lowered.subset member) (by decide)
  rw [split, List.mem_append, or_iff_left proper, mem_constants]
  simp only [module.count_ne_null, or_false]

theorem nodup_declared (nameable : net.Nameable module) : (declared (net.named module)).Nodup := by
  obtain ⟨others, split, lowered⟩ := declared_split net module
  rw [split, List.nodup_append]
  refine ⟨nameable.nodup_enumerations, lowered.nodup module.nodup_lowered, ?_⟩
  rintro constant member other present rfl
  have lower := module.hasLower_of_lowered (lowered.subset present)
  rw [hasLower_of_constant member] at lower
  cases lower

end Declared

/-- How the names in the two units of a module are related: every word is known, the names that the
units bring in are different from each other and from what the units take from elsewhere, except
that a label can make one of them the null pointer, which is always in use. -/
structure Net.Separates (net : Net) (naming : Naming) (interface implementation : TranslationUnit) :
    Prop where
  declared : declaredNames (unitItems interface) (unitItems implementation) = declared naming
  defined : (unitItems implementation).flatMap Item.functions =
    (unitItems interface).flatMap Item.functions
  known : ∀ word ∈ unitWords interface ++ unitWords implementation, Known naming word
  distinct : (Emit.declared naming).Nodup
  proper : ∀ name ∈ Emit.declared naming, name ∉ keywords
  apart : ∀ name ∈ Emit.declared naming, name ∈ foreignNames → name = "NULL"
  captured : "NULL" ∈ Emit.declared naming ↔
    ∃ kind, ∃ label ∈ net.labels kind, Text.uppercase label = "NULL"
  used : "NULL" ∈ unitWords implementation

theorem separates_assembled {net : Net} {module : ModuleName} (nameable : net.Nameable module)
    (incidences : List Incidence) :
    net.Separates (net.named module) (Emit.interface (net.named module))
      (Emit.implementation (net.named module) net.marking incidences) where
  declared := declaredNames_eq _ _ _
  defined := (functions_implementation _ _ _).trans (functions_interface _).symm
  known := by
    intro word member
    obtain first | second := List.mem_append.1 member
    · obtain ⟨declaration, present, inside⟩ := List.mem_flatMap.1 first
      exact known_interface _ declaration present word inside
    · obtain ⟨declaration, present, inside⟩ := List.mem_flatMap.1 second
      exact known_implementation _ _ _ declaration present word inside
  distinct := nodup_declared nameable
  proper := fun _ => not_keyword_of_declared
  apart := fun _ => eq_null_of_declared
  captured := null_mem_declared_iff
  used := null_mem_words _ _ _

/-- The two texts of a module are read as two units. -/
structure Artifacts.Reads (artifacts : Artifacts) (interface implementation : TranslationUnit) :
    Prop where
  interfaceItems : read artifacts.interface = some (unitItems interface)
  implementationItems : read artifacts.implementation = some (unitItems implementation)
  interfaceWords : words artifacts.interface = unitWords interface
  implementationWords : words artifacts.implementation = unitWords implementation

theorem reads_assembled {naming : Naming} (identified : naming.Identified) (marking : List Weight)
    (incidences : List Incidence) :
    (Artifacts.assemble naming marking incidences).Reads (Emit.interface naming)
      (Emit.implementation naming marking incidences) where
  interfaceItems := read_interface naming identified
  implementationItems := by
    rw [unitItems, items_implementation]
    exact read_implementation naming marking incidences identified
  interfaceWords := words_unitText (interface_parts naming) (readable_interface identified)
  implementationWords := words_unitText (implementation_parts naming marking incidences)
    (readable_implementation identified marking incidences)

/-- The names of a generated module are different from each other and from all names that its files take
from elsewhere, with one exception: a label that is `NULL` in upper case gives a constant the name
of the null pointer. If all names of nodes are words, this is what reading the two texts shows. -/
theorem names_separate (net : Net) (module : String) (artifacts : Artifacts)
    (generated : generate net module = .ok artifacts) :
    ∃ name incidences, ModuleName.ofString? module = some name ∧
      net.incidences = .ok incidences ∧
      artifacts = .assemble (net.named name) net.marking incidences ∧
      net.Separates (net.named name) (Emit.interface (net.named name))
        (Emit.implementation (net.named name) net.marking incidences) ∧
      (net.HasWords → artifacts.Reads (Emit.interface (net.named name))
        (Emit.implementation (net.named name) net.marking incidences)) := by
  obtain ⟨name, incidences, named, nameable, resolved, rfl⟩ := generate_eq_ok_iff.1 generated
  refine ⟨name, incidences, named, Net.incidences_eq_ok_iff.2 resolved, rfl,
    separates_assembled nameable incidences, ?_⟩
  intro words
  exact reads_assembled (words.identified name) net.marking incidences

theorem names_separate_handover : ∃ artifacts, generate handover "Demo" = .ok artifacts ∧
    ∃ interface implementation, artifacts.Reads interface implementation ∧
      (declaredNames (unitItems interface) (unitItems implementation) ++ foreignNames).Nodup := by
  obtain ⟨artifacts, generated⟩ := handover_generates
  obtain ⟨name, incidences, _, _, _, separates, reads⟩ :=
    names_separate handover "Demo" artifacts generated
  refine ⟨artifacts, generated, _, _, reads handover_hasWords, ?_⟩
  have proper : ∀ kind, ∀ label ∈ handover.labels kind, Text.uppercase label ≠ "NULL" := by
    intro kind
    cases kind <;> decide +kernel
  have free : "NULL" ∉ declared (handover.named name) := by
    rw [separates.captured]
    rintro ⟨kind, label, member, same⟩
    exact proper kind label member same
  rw [separates.declared, List.nodup_append]
  refine ⟨separates.distinct, by decide, ?_⟩
  rintro word member _ foreign rfl
  have null := separates.apart word member foreign
  exact free (null ▸ member)

/-- A net with a place that takes the name of the null pointer. -/
def nulled : Net where
  places := ⟨[⟨"p0", "null", 1⟩], by decide⟩
  transitions := ⟨[], by decide⟩
  arcs := []

/-- The interface makes `NULL` a constant, and the implementation uses it. -/
theorem null_captured : ∃ artifacts interface, generate nulled "demo" = .ok artifacts ∧
    read artifacts.interface = some interface ∧ "NULL" ∈ interface.flatMap Item.constants ∧
      "NULL" ∈ words artifacts.implementation := by
  obtain ⟨artifacts, generated⟩ : ∃ artifacts, generate nulled "demo" = .ok artifacts :=
    exists_ok_of_isOk (by decide +kernel)
  obtain ⟨name, incidences, _, nameable, _, rfl⟩ := generate_eq_ok_iff.1 generated
  have identified : (nulled.named name).Identified := by
    intro kind
    rw [Net.names_named_kind]
    cases kind <;> decide +kernel
  have reads := reads_assembled identified nulled.marking incidences
  refine ⟨_, _, generated, reads.interfaceItems, ?_, ?_⟩
  · exact mem_constants.2 ⟨.place, .inl ⟨"null", by decide, by decide +kernel⟩⟩
  · rw [reads.implementationWords]
    exact null_mem_words _ _ _

end PetriCode
