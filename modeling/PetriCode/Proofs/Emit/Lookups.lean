import PetriCode.Proofs.Emit.Items
import PetriCode.Proofs.Emit.Running
import PetriCode.Proofs.Naming.Constants

/-! Calling the lookups of a file. Its items are the arrays of the tables that are not empty and the four
lookups, each under a name of its own, and so every call runs the body that belongs to it. -/
namespace PetriCode
open C

theorem append_ne {stem suffix text : String} (other : ¬ suffix.toList <:+ text.toList) :
    stem ++ suffix ≠ text := by
  rintro rfl
  apply other
  rw [String.toList_append]
  exact List.suffix_append _ _

namespace Emit
variable (naming : Naming)

theorem nameArray_inj {module : ModuleName} {kind other : NodeKind}
    (same : module.nameArray kind = module.nameArray other) : kind = other := by
  cases kind <;> cases other <;> simp_all [ModuleName.nameArray]

def lookupProgram (width : String → Nat) : Program :=
  ⟨directives naming ++ arrays naming ++ functions naming, constant? naming.enumerations, width⟩

variable {naming} {width : String → Nat}

theorem array?_lookupProgram {kind : NodeKind} (inhabited : naming.names kind ≠ []) :
    (lookupProgram naming width).array? (naming.module.nameArray kind) =
      some (naming.count kind, (naming.names kind).map bytes) := by
  have apart : naming.module.nameArray .place ≠ naming.module.nameArray .transition :=
    fun same => NodeKind.noConfusion (nameArray_inj same)
  have before : (directives naming).findSome? (Item.array? (naming.module.nameArray kind)) = none :=
    rfl
  rw [Program.array?, lookupProgram, List.findSome?_append, List.findSome?_append,
    before, Option.none_or]
  cases kind with
  | place => simp_all [arrays, tables, NodeKind.all, Item.array?, Naming.table, Naming.count]
  | transition =>
    by_cases empty : naming.names .place = []
    · simp_all [arrays, tables, NodeKind.all, Item.array?, Naming.table, Naming.count]
    · simp_all [arrays, tables, NodeKind.all, Item.array?, Naming.table, Naming.count]

theorem array?_lookupProgram_of_nil {kind : NodeKind} (empty : naming.names kind = []) :
    (lookupProgram naming width).array? (naming.module.nameArray kind) = none := by
  rw [Program.array?, List.findSome?_eq_none_iff]
  intro item member
  simp only [lookupProgram, List.mem_append] at member
  obtain (directive | array) | function := member
  · simp only [directives, List.mem_cons, List.not_mem_nil, or_false] at directive
    obtain rfl | rfl | rfl | rfl := directive <;> rfl
  · obtain ⟨table, present, rfl⟩ := List.mem_map.1 array
    obtain ⟨listed, inhabited⟩ := List.mem_filter.1 present
    obtain ⟨other, _, rfl⟩ := List.mem_map.1 listed
    have different : naming.module.nameArray other ≠ naming.module.nameArray kind := by
      intro same
      obtain rfl := nameArray_inj same
      simp [Naming.table, empty] at inhabited
    exact if_neg different
  · obtain text | position := List.mem_append.1 function
    · obtain ⟨_, _, rfl⟩ := List.mem_map.1 text
      rfl
    · obtain ⟨_, _, rfl⟩ := List.mem_map.1 position
      rfl

theorem function?_lookupProgram (head : String) :
    (lookupProgram naming width).function? head =
      (functions naming).findSome? (Item.function? head) := by
  have inArrays : (arrays naming).findSome? (Item.function? head) = none := by
    rw [List.findSome?_eq_none_iff]
    intro item member
    obtain ⟨table, _, rfl⟩ := List.mem_map.1 member
    rfl
  have inDirectives : (directives naming).findSome? (Item.function? head) = none := rfl
  rw [Program.function?, lookupProgram, List.findSome?_append,
    List.findSome?_append, inDirectives, inArrays, Option.none_or, Option.none_or]

theorem function?_textHead (kind : NodeKind) :
    (lookupProgram naming width).function? (textHead naming.module kind).name =
      some (textHead naming.module kind, textBody (naming.table kind) (positionName kind)) := by
  rw [function?_lookupProgram]
  cases kind <;>
    simp [functions, NodeKind.all, Item.function?, textHead]

theorem function?_positionHead (kind : NodeKind) :
    (lookupProgram naming width).function? (positionHead naming.module kind).name =
      some (positionHead naming.module kind, positionBody (naming.table kind)) := by
  rw [function?_lookupProgram]
  cases kind <;>
    simp [functions, NodeKind.all, Item.function?, textHead, positionHead]

theorem knows_table {net : Net} {module : ModuleName} (nameable : net.Nameable module)
    (width : String → Nat) (kind : NodeKind) :
    (lookupProgram (net.named module) width).Knows ((net.named module).table kind) where
  count := nameable.constant?_count kind
  array := array?_lookupProgram
  countFree := by
    have places : ∀ text ∈ "NULL" :: locals, ¬ "_PLACES_ALL".toList <:+ text.toList := by decide
    have transitions : ∀ text ∈ "NULL" :: locals, ¬ "_TRANS_ALL".toList <:+ text.toList := by
      decide
    intro member
    cases kind with
    | place => exact append_ne (places _ member) rfl
    | transition => exact append_ne (transitions _ member) rfl
  arrayFree := by
    have places : ∀ text ∈ locals, ¬ "_place_names".toList <:+ text.toList := by decide
    have transitions : ∀ text ∈ locals, ¬ "_trans_names".toList <:+ text.toList := by decide
    intro member
    cases kind with
    | place => exact append_ne (places _ member) rfl
    | transition => exact append_ne (transitions _ member) rfl

/-- A call for a position gives what the body returns, which is in the range of its type. -/
theorem call?_positionHead {kind : NodeKind}
    (wide : (naming.table kind).size < 2 ^ width (Naming.indexType kind)) {argument : Value}
    {found : Nat} (bound : found ≤ (naming.table kind).size)
    (pointer : (lookupProgram naming width).convert? (.constPointer "char") argument =
      some argument)
    (body : (lookupProgram naming width).runAll? [("name", argument)]
      (positionBody (naming.table kind)) = some (some (.number found))) :
    (lookupProgram naming width).call? (positionHead naming.module kind).name argument =
      some (.number found) := by
  have parameter : (positionHead naming.module kind).parameter =
      some ⟨.constPointer "char", "name"⟩ := by cases kind <;> rfl
  have result : (positionHead naming.module kind).result = .plain (Naming.indexType kind) := by
    cases kind <;> rfl
  rw [Program.call?_eq (function?_positionHead kind) parameter pointer body, result]
  simp [Program.convert?, lookupProgram, Nat.mod_eq_of_lt (Nat.lt_of_le_of_lt bound wide)]

section Calls
variable {kind : NodeKind} (knows : (lookupProgram naming width).Knows (naming.table kind))
include knows

theorem call?_textHead {index : Nat} (inside : index < 2 ^ width (Naming.indexType kind)) :
    (lookupProgram naming width).call? (textHead naming.module kind).name (.number index) =
      some (foundText (naming.table kind) index) := by
  have position : positionName kind ∈ locals := by cases kind <;> decide
  have body := runAll?_textBody knows position index
  have parameter : (textHead naming.module kind).parameter =
      some ⟨.plain (Naming.indexType kind), positionName kind⟩ := by cases kind <;> rfl
  have result : (textHead naming.module kind).result = .constPointer "char" := by
    cases kind <;> rfl
  have converted : (lookupProgram naming width).convert? (.plain (Naming.indexType kind))
      (.number index) = some (.number index) := by
    simp [Program.convert?, lookupProgram, Nat.mod_eq_of_lt inside]
  rw [Program.call?_eq (function?_textHead kind) parameter converted body, result]
  unfold foundText
  cases (naming.table kind).nameOf index <;> rfl

/-- The way from a position to its name and back to a position. -/
theorem call?_bind_call?
    (wide : (naming.table kind).size < 2 ^ width (Naming.indexType kind)) {index : Nat}
    {name : String} (listed : (naming.table kind).nameOf index = some name) :
    ((lookupProgram naming width).call? (textHead naming.module kind).name (.number index)).bind
        ((lookupProgram naming width).call? (positionHead naming.module kind).name) =
      some (.number ((naming.table kind).foundAt (shown name))) := by
  obtain ⟨inside, _⟩ := List.getElem?_eq_some_iff.1 listed
  have forth := call?_textHead knows (Nat.lt_trans inside wide)
  rw [foundText, listed] at forth
  rw [forth, Option.bind_some]
  exact call?_positionHead wide (NameTable.foundAt_le _ _) rfl
    (runAll?_positionBody_content knows (content?_shown name []) wide)

end Calls

end Emit
end PetriCode
