import PetriCode.Proofs.C.Headers
import PetriCode.Proofs.Emit.Parts

/-! The two files of a module fit together. What a function takes elements of is defined before it, arrays have
as many initial values as their dimensions say, what the interface declares is what the implementation
defines, and whether there are nodes of a kind shows everywhere in the same way. -/
namespace PetriCode
namespace C
namespace Item

def prototype? : Item → Option Prototype
  | prototype head => some head
  | _ => none

def header? : Item → Option String
  | directive line => included? line
  | _ => none

theorem header?_include {header : String} (proper : '"' ∉ header.toList) :
    header? (.directive ("include \"" ++ header ++ "\"")) = some header :=
  included?_quoted proper

end Item

/-- A file is its lines with an end behind each. The last line ends with something else than white space, so
that nothing was taken from the end of the file, and nothing but line ends would have been. -/
structure Trims (text : String) (unit : TranslationUnit) : Prop where
  written : text = unitText unit
  whole : text = joined (unitLines unit) ++ "\n"
  solid : ∃ front last, (joined (unitLines unit)).toList = front ++ [last] ∧
    Text.isBlank last = false
  trimmed : ∀ count,
    finished (joined (unitLines unit) ++ String.ofList (List.replicate count '\n')) = text

theorem trims_unitText {unit whole : TranslationUnit} {paragraph : List Declaration}
    {declaration : Declaration} (parts : whole = unit ++ [paragraph ++ [declaration]]) :
    Trims (unitText whole) whole := by
  subst parts
  obtain ⟨_, front, last, ends, solid⟩ := ends_unit unit paragraph declaration
  refine ⟨rfl, unitText_eq_joined declaration, ⟨front, last, ends, solid⟩, ?_⟩
  intro count
  rw [unitText_eq_joined]
  apply finished_append_blanks _ ends solid
  intro c member
  rw [List.eq_of_mem_replicate member]
  decide

/-- The heads of functions as they are written: each with a semicolon at the end of an interface, and each
above a block at the end of an implementation. -/
structure Shows (heads : List String) (interface implementation : List String) : Prop where
  declared : ∃ opening, interface = opening ++ heads.map (· ++ ";")
  defined : ∃ opening blocks, implementation = spaced (opening ++ blocks) ∧
    List.Forall₂ (fun head block => ∃ body, block = [head, "\x7b"] ++ body ++ ["\x7d"]) heads blocks

end C

open C

/-- How the items of the two files of a module fit together. -/
structure Net.Fits (net : Net) (name : ModuleName) (interface implementation : List Item) : Prop where
  arrays : implementation.flatMap Item.arrays =
    (NodeKind.all.filter (net.labels · ≠ [])).map name.nameArray
  sized : ∀ array size texts, .nameArray array size texts ∈ implementation →
    constant? (Outline.enumerations interface) size = some texts.length ∧ texts ≠ []
  marked : ∀ body, .function (Emit.constructorHead name) body ∈ implementation →
    ((∃ type size values, .defineArray type "m" size values ∈ body) ↔ net.places.entries ≠ []) ∧
      ((∃ arguments, .call "petri_marking_set" arguments ∈ body ∧ .name "m" ∈ arguments) ↔
        net.places.entries ≠ [])
  sizedLocals : ∀ head body, .function head body ∈ implementation →
    ∀ type array size values, .defineArray type array size values ∈ body →
      constant? (Outline.enumerations interface) size = some values.length ∧ values ≠ []
  closed : ∀ (position : Nat) item, implementation[position]? = some item →
    ∀ array ∈ item.uses, array ∈ (implementation.take position).flatMap Item.arrays
  own : ∀ kind, ∀ item ∈ implementation, name.nameArray kind ∈ item.bodyWords ↔ net.labels kind ≠ [] ∧
    ∃ head ∈ [Emit.textHead name kind, Emit.positionHead name kind], item.definition? = some head
  declared : interface.filterMap Item.prototype? = Emit.heads name
  defined : implementation.filterMap Item.definition? = Emit.heads name
  interfaceHeaders : interface.filterMap Item.header? = ["petri.h"]
  implementationHeaders : implementation.filterMap Item.header? = ["petri.h", name.interfaceFile]

namespace Emit

variable {naming : Naming} {marking : List Weight} {incidences : List Incidence}

theorem prototypes_interface :
    (unitItems (interface naming)).filterMap Item.prototype? = heads naming.module := rfl

theorem definitions_implementation :
    (unitItems (implementation naming marking incidences)).filterMap Item.definition? =
      heads naming.module := by
  have inArrays : (arrays naming).filterMap Item.definition? = [] := by
    simp [arrays, Item.definition?]
  rw [unitItems, items_implementation, List.filterMap_append, List.filterMap_append,
    List.filterMap_append, inArrays]
  rfl

theorem item_runtimeHeader :
    Item.header? (.directive ("include \"" ++ runtimeHeader ++ "\"")) = some runtimeHeader :=
  Item.header?_include (by decide)

theorem includes_interface :
    (unitItems (interface naming)).filterMap Item.header? = [runtimeHeader] := by
  have front : unitItems (interface naming) = [.directive "pragma once",
      .directive ("include \"" ++ runtimeHeader ++ "\"")] ++
        (unitItems (interface naming)).drop 2 := rfl
  have back : ((unitItems (interface naming)).drop 2).filterMap Item.header? = [] := rfl
  have pragma : Item.header? (.directive "pragma once") = none := by decide
  rw [front, List.filterMap_append, back, List.filterMap_cons_none pragma,
    List.filterMap_cons_some item_runtimeHeader]
  rfl

theorem includes_implementation :
    (unitItems (implementation naming marking incidences)).filterMap Item.header? =
      [runtimeHeader, naming.module.interfaceFile] := by
  have inArrays : (arrays naming).filterMap Item.header? = [] := by
    simp [arrays, Item.header?]
  have inFunctions : (functions naming).filterMap Item.header? = [] := rfl
  have stddef : Item.header? (.directive "include <stddef.h>") = none := by decide
  have string : Item.header? (.directive "include <string.h>") = none := by decide
  have proper : '"' ∉ naming.module.interfaceFile.toList := by
    have lower : '"' ∉ naming.module.lower.toList := naming.module.not_mem_lower (by decide)
    simp [ModuleName.interfaceFile, lower]
  rw [unitItems, items_implementation, List.filterMap_append, List.filterMap_append,
    List.filterMap_append, inArrays, inFunctions, directives, List.filterMap_cons_none stddef,
    List.filterMap_cons_none string, List.filterMap_cons_some item_runtimeHeader,
    List.filterMap_cons_some (Item.header?_include proper)]
  rfl

theorem heads_eq (naming : Naming) (marking : List Weight) (incidences : List Incidence) :
    heads naming.module = (definitions naming marking incidences).map Definition.head := rfl

theorem shows_heads (naming : Naming) (marking : List Weight) (incidences : List Incidence) :
    Shows ((heads naming.module).map Prototype.text) (unitLines (interface naming))
      (unitLines (implementation naming marking incidences)) where
  declared := by
    have lines : ((heads naming.module).map Declaration.prototype).flatMap Declaration.lines =
        ((heads naming.module).map Prototype.text).map (· ++ ";") := by
      rw [List.flatMap_map, List.map_map, List.map_eq_flatMap]
      rfl
    rw [unitLines, interface, List.map_append, List.map_singleton, lines]
    exact spaced_concat _ _
  defined := by
    have parts : implementation naming marking incidences = preamble naming ++
        (definitions naming marking incidences).map fun definition => [.function definition] := rfl
    have block : (fun paragraph => paragraph.flatMap Declaration.lines) ∘
        (fun definition => [Declaration.function definition]) = Definition.lines := by
      funext definition
      simp [Declaration.lines]
    refine ⟨(preamble naming).map fun paragraph => paragraph.flatMap Declaration.lines,
      (definitions naming marking incidences).map Definition.lines, ?_, ?_⟩
    · rw [unitLines, parts, List.map_append, List.map_map, block]
    · rw [heads_eq naming marking incidences, List.map_map, List.forall₂_map_left_iff,
        List.forall₂_map_right_iff, List.forall₂_same]
      exact fun definition _ => ⟨_, rfl⟩

end Emit

theorem Net.names_eq_nil_iff {net : Net} {module : ModuleName} {kind : NodeKind} :
    (net.named module).names kind = [] ↔ net.labels kind = [] := by
  rw [Net.names_named_kind, List.map_eq_nil_iff]

theorem Net.marking_eq_nil_iff {net : Net} : net.marking = [] ↔ net.places.entries = [] :=
  List.map_eq_nil_iff

theorem fits_assembled {net : Net} {module : ModuleName} (nameable : net.Nameable module)
    (incidences : List Incidence) :
    net.Fits module (unitItems (Emit.interface (net.named module)))
      (unitItems (Emit.implementation (net.named module) net.marking incidences)) where
  arrays := by
    have tables : Emit.tables (net.named module) =
        (NodeKind.all.filter (net.labels · ≠ [])).map (net.named module).table := by
      have inhabited (kind : NodeKind) :
          ((net.named module).table kind).names ≠ [] ↔ net.labels kind ≠ [] :=
        not_congr Net.names_eq_nil_iff
      simp only [Emit.tables, List.filter_map, Function.comp_def, inhabited]
    rw [Emit.arrays_implementation, tables, List.map_map]
    rfl
  sized := by
    intro array size texts member
    cases Emit.part_of_mem member with
    | array kind inhabited =>
      rw [List.length_map]
      exact ⟨nameable.constant?_count kind, by simpa using inhabited⟩
  marked := by
    intro body member
    obtain rfl := (Emit.part_of_mem member).body_eq
    simp only [Emit.defineArray_mem_constructor, Emit.markingSet_mem_constructor, ne_eq,
      Net.marking_eq_nil_iff]
    refine ⟨⟨?_, ?_⟩, ?_, ?_⟩
    · rintro ⟨_, _, _, marked, _⟩
      exact marked
    · exact fun marked => ⟨_, _, _, marked, rfl, trivial, rfl, rfl⟩
    · rintro ⟨_, ⟨marked, _⟩, _⟩
      exact marked
    · exact fun marked => ⟨_, ⟨marked, rfl⟩, by simp⟩
  sizedLocals := by
    intro head body member type array size values defined
    obtain ⟨rfl, rfl, marked⟩ := (Emit.part_of_mem member).defineArray defined
    have places := nameable.constant?_count .place
    have length : ((net.named module).names .place).length = net.marking.length := by
      simp [Naming.names, Net.named, Net.marking]
    rw [length] at places
    exact ⟨places, marked⟩
  closed := fun _ _ listed _ => Emit.arrays_before listed
  own := by
    intro kind item member
    rw [(Emit.part_of_mem member).names_iff kind, ne_eq, Net.names_eq_nil_iff]
  declared := Emit.prototypes_interface
  defined := Emit.definitions_implementation
  interfaceHeaders := Emit.includes_interface
  implementationHeaders := Emit.includes_implementation

/-- The two files of a net whose names are words fit together, have the same five heads of functions, and end
as they were written, with one line end. -/
theorem sources_fit (net : Net) (module : String) (artifacts : Artifacts)
    (generated : generate net module = .ok artifacts) (words : net.HasWords) :
    ∃ name interface implementation, ModuleName.ofString? module = some name ∧
      artifacts.interfaceFile = name.interfaceFile ∧ artifacts.Reads interface implementation ∧
      net.Fits name (unitItems interface) (unitItems implementation) ∧
      Shows ((Emit.heads name).map Prototype.text) (unitLines interface)
        (unitLines implementation) ∧
      Trims artifacts.interface interface ∧ Trims artifacts.implementation implementation := by
  obtain ⟨name, incidences, named, nameable, _, rfl⟩ := generate_eq_ok_iff.1 generated
  exact ⟨name, _, _, named, rfl, reads_assembled (words.identified name) net.marking incidences,
    fits_assembled nameable incidences, Emit.shows_heads (net.named name) net.marking incidences,
    trims_unitText (Emit.interface_parts _), trims_unitText (Emit.implementation_parts _ _ _)⟩

theorem sources_fit_handover : handover.HasWords ∧
    ∃ (artifacts : Artifacts) (name : ModuleName) (implementation : List Item),
      generate handover "Demo" = .ok artifacts ∧ ModuleName.ofString? "Demo" = some name ∧
      read artifacts.implementation = some implementation ∧
      implementation.flatMap Item.arrays = [name.nameArray .place, name.nameArray .transition] := by
  obtain ⟨artifacts, generated⟩ := handover_generates
  obtain ⟨name, _, _, named, _, reads, fits, _⟩ :=
    sources_fit handover "Demo" artifacts generated handover_hasWords
  exact ⟨handover_hasWords, artifacts, name, _, generated, named, reads.implementationItems,
    fits.arrays⟩

end PetriCode
