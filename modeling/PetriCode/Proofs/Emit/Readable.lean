import PetriCode.Generate
import PetriCode.Proofs.C.Printing
import PetriCode.Proofs.Text.Uppercase

/-! The generated files are readable. What a module adds to its name makes no keyword, and neither does
upper case, since every keyword has a lower case letter. -/
namespace PetriCode
open C

theorem isIdentifier_append {stem suffix : List Char} (identifier : isIdentifier stem)
    (parts : suffix.all isIdentifierPart) : isIdentifier (stem ++ suffix) := by
  cases stem with
  | nil => simp [isIdentifier] at identifier
  | cons first rest =>
    simp only [isIdentifier, List.cons_append, Bool.and_eq_true, List.all_append] at identifier ⊢
    exact ⟨identifier.1, identifier.2, parts⟩

def suffixes : List String :=
  ["_PLACES_ALL", "_TRANS_ALL", "_place_names", "_trans_names", "Place", "Transition",
    "_petri_new", "_petri_place_str", "_petri_trans_str", "_petri_str_place", "_petri_str_trans"]

theorem suffixes_part : ∀ suffix ∈ suffixes, suffix.toList.all isIdentifierPart := by
  decide +kernel

theorem suffixes_end : ∀ keyword ∈ keywords, ∀ suffix ∈ suffixes,
    ¬ suffix.toList <:+ keyword.toList := by
  decide +kernel

theorem isName_append {stem suffix : String} (identifier : isIdentifier stem.toList)
    (known : suffix ∈ suffixes) : IsName (stem ++ suffix) := by
  refine ⟨?_, ?_⟩
  · rw [String.toList_append]
    exact isIdentifier_append identifier (suffixes_part suffix known)
  · intro keyword
    apply suffixes_end _ keyword suffix known
    rw [String.toList_append]
    exact List.suffix_append _ _

theorem isIdentifierStart_toUpper (c : Char) (start : isIdentifierStart c) :
    isIdentifierStart c.toUpper := by
  obtain ⟨same, _⟩ | upper := Text.toUpper_cases c
  · rw [same]
    exact start
  · simp [isIdentifierStart, Text.isAlpha_eq, upper]

theorem isIdentifierPart_toUpper (c : Char) (part : isIdentifierPart c) :
    isIdentifierPart c.toUpper := by
  obtain ⟨same, _⟩ | upper := Text.toUpper_cases c
  · rw [same]
    exact part
  · simp [isIdentifierPart, Char.isAlphanum, Text.isAlpha_eq, upper]

namespace ModuleName
variable (name : ModuleName)

theorem isIdentifier_lower : isIdentifier name.lower.toList := by
  rw [lower, String.toList_ofList]
  exact name.identifier

theorem plain_lower : Plain name.lower.toList :=
  plain_of_parts (parts_of_identifier name.isIdentifier_lower)

theorem not_mem_lower {c : Char} (outside : isIdentifierPart c = false) :
    c ∉ name.lower.toList := by
  intro member
  have part := parts_of_identifier name.isIdentifier_lower c member
  rw [outside] at part
  cases part

theorem isIdentifier_upper : isIdentifier name.upper.toList := by
  have identifier := name.identifier
  rw [upper, String.toList_ofList]
  cases spelling : name.spelling with
  | nil => simp [spelling, isIdentifier] at identifier
  | cons first rest =>
    simp only [spelling, isIdentifier, Bool.and_eq_true, List.all_eq_true] at identifier
    simp only [Text.uppercaseAscii, List.map_cons, isIdentifier, Bool.and_eq_true,
      List.all_eq_true, List.mem_map]
    refine ⟨isIdentifierStart_toUpper first identifier.1, ?_⟩
    intro _ image
    obtain ⟨c, member, rfl⟩ := image
    exact isIdentifierPart_toUpper c (identifier.2 c member)

theorem isIdentifier_capitalized : isIdentifier name.capitalized.toList := by
  have identifier := name.identifier
  rw [capitalized, String.toList_ofList]
  cases spelling : name.spelling with
  | nil => simp [spelling, isIdentifier] at identifier
  | cons first rest =>
    simp only [spelling, isIdentifier, Bool.and_eq_true] at identifier
    simp only [Text.capitalizeAscii, isIdentifier, Bool.and_eq_true]
    exact ⟨isIdentifierStart_toUpper first identifier.1, identifier.2⟩

theorem isName_count (kind : NodeKind) : IsName (name.count kind) := by
  cases kind <;> exact isName_append name.isIdentifier_upper (by decide)

theorem isName_nameArray (kind : NodeKind) : IsName (name.nameArray kind) := by
  cases kind <;> exact isName_append name.isIdentifier_lower (by decide)

theorem isName_enumeration (kind : NodeKind) : IsName (name.enumeration kind) := by
  cases kind <;> exact isName_append name.isIdentifier_capitalized (by decide)

end ModuleName

theorem lower_of_keyword : keywords.all fun keyword => keyword.toList.any Char.isLower := by
  decide +kernel

theorem isName_uppercase {label : String} (identifier : isIdentifier (Text.uppercase label).toList) :
    IsName (Text.uppercase label) := by
  refine ⟨identifier, ?_⟩
  intro keyword
  have letters := List.all_eq_true.1 lower_of_keyword _ keyword
  obtain ⟨c, member, lower⟩ := List.any_eq_true.1 letters
  have none := Text.isLower_eq_false_of_mem_uppercase member
  simp [none] at lower

namespace Naming

def Identified (naming : Naming) : Prop := ∀ kind, ∀ name ∈ naming.names kind, IsName name

variable {naming : Naming}

theorem Identified.nameAt (identified : naming.Identified) (kind : NodeKind) (position : Nat) :
    IsName (naming.nameAt kind position) := by
  unfold Naming.nameAt
  cases found : (naming.names kind)[position]? with
  | none => exact naming.module.isName_count kind
  | some name => exact identified kind name (List.mem_of_getElem? found)

end Naming

namespace Emit

theorem readable_constructorHead (module : ModuleName) : (constructorHead module).Readable where
  result := IsName.isTypeName (by decide)
  name := isName_append module.isIdentifier_lower (by decide)
  parameter := by simp [constructorHead]

theorem isTypeName_char : IsTypeName "char" := ⟨by decide, .inl rfl⟩

theorem isTypeName_indexType (kind : NodeKind) : IsTypeName (Naming.indexType kind) := by
  apply IsName.isTypeName
  cases kind <;> decide

theorem readable_textHead (module : ModuleName) (kind : NodeKind) :
    (textHead module kind).Readable := by
  have position : (⟨.plain (Naming.indexType kind), positionName kind⟩ : Variable).Readable :=
    ⟨isTypeName_indexType kind, by cases kind <;> decide⟩
  refine ⟨?_, ?_, ?_⟩
  · cases kind <;> exact isTypeName_char
  · cases kind <;> exact isName_append module.isIdentifier_lower (by decide)
  · intro parameter member
    cases kind <;> cases member <;> exact position

theorem readable_positionHead (module : ModuleName) (kind : NodeKind) :
    (positionHead module kind).Readable := by
  have name : (⟨.constPointer "char", "name"⟩ : Variable).Readable :=
    ⟨isTypeName_char, by decide⟩
  have type := isTypeName_indexType kind
  refine ⟨?_, ?_, ?_⟩
  · cases kind <;> exact type
  · cases kind <;> exact isName_append module.isIdentifier_lower (by decide)
  · intro parameter member
    cases kind <;> cases member <;> exact name

theorem readable_null : Operand.null.Readable := by
  have name : IsName "NULL" := by decide
  exact name

variable {naming : Naming}

theorem readable_arcStatement (identified : naming.Identified) (incidence : Incidence) :
    (arcStatement naming incidence).Readable := by
  have place := identified.nameAt .place incidence.place
  have transition := identified.nameAt .transition incidence.transition
  have net : IsName "net" := by decide
  unfold arcStatement
  cases incidence.direction with
  | input =>
    refine ⟨by decide, ?_⟩
    simp [Operand.Readable, place, transition, net]
  | output =>
    refine ⟨by decide, ?_⟩
    simp [Operand.Readable, place, transition, net]

/-- The constructor is readable if the calls that connect the arcs are. -/
theorem readable_constructor (marking : List Weight) {incidences : List Incidence}
    (calls : ∀ incidence ∈ incidences, (arcStatement naming incidence).Readable) :
    (Declaration.function (constructor naming marking incidences)).Readable := by
  have places := naming.module.isName_count .place
  have transitions := naming.module.isName_count .transition
  have net : IsName "net" := by decide
  refine ⟨readable_constructorHead _, ?_⟩
  intro group member statement present
  simp only [constructor, List.mem_append, List.mem_singleton, or_assoc] at member
  obtain rfl | marked | connected | rfl := member
  · simp only [allocation, List.mem_cons, List.not_mem_nil, or_false] at present
    obtain rfl | rfl := present
    · refine ⟨⟨IsName.isTypeName (by decide), net⟩, by decide, ?_⟩
      simp [Operand.Readable, Naming.count, places, transitions]
    · exact ⟨net, readable_null⟩
  · split_ifs at marked with unmarked
    · simp at marked
    · obtain rfl := List.mem_singleton.1 marked
      simp only [markingStatements, List.mem_cons, List.not_mem_nil, or_false] at present
      obtain rfl | rfl := present
      · exact ⟨IsName.isTypeName (by decide), by decide, places, unmarked⟩
      · refine ⟨by decide, ?_⟩
        have array : IsName "m" := by decide
        simp [Operand.Readable, net, array]
  · split_ifs at connected
    · simp at connected
    · obtain rfl := List.mem_singleton.1 connected
      obtain ⟨incidence, listed, rfl⟩ := List.mem_map.1 present
      exact calls incidence listed
  · obtain rfl := List.mem_singleton.1 present
    exact net

/-- A lookup is readable whatever the names in its table are. -/
theorem readable_textLookup (naming : Naming) (kind : NodeKind) :
    (Declaration.function (textLookup naming kind)).Readable := by
  have count := naming.module.isName_count kind
  have array := naming.module.isName_nameArray kind
  have position : IsName (positionName kind) := by cases kind <;> decide
  refine ⟨readable_textHead _ kind, ?_⟩
  intro group member statement present
  obtain rfl := List.mem_singleton.1 member
  simp only [textBody] at present
  split_ifs at present
  · simp only [List.mem_cons, List.not_mem_nil, or_false] at present
    obtain rfl | rfl := present
    · exact position
    · exact readable_null
  · simp only [List.mem_cons, List.not_mem_nil, or_false] at present
    obtain rfl | rfl := present
    · exact ⟨⟨position, count⟩, readable_null⟩
    · exact ⟨array, position⟩

theorem readable_positionLookup (naming : Naming) (kind : NodeKind) :
    (Declaration.function (positionLookup naming kind)).Readable := by
  have count := naming.module.isName_count kind
  have array := naming.module.isName_nameArray kind
  have name : IsName "name" := by decide
  have index : IsName "i" := by decide
  refine ⟨readable_positionHead _ kind, ?_⟩
  intro group member statement present
  obtain rfl := List.mem_singleton.1 member
  simp only [positionBody] at present
  split_ifs at present
  · simp only [List.mem_cons, List.not_mem_nil, or_false] at present
    obtain rfl | rfl := present
    · exact name
    · exact count
  · simp only [List.mem_cons, List.not_mem_nil, or_false] at present
    obtain rfl | rfl | rfl := present
    · exact ⟨⟨⟨trivial, name⟩, trivial, name⟩, count⟩
    · exact ⟨isTypeName_indexType kind, index, count, ⟨⟨array, index⟩, name⟩, index⟩
    · exact count

theorem readable_banner (module : ModuleName) : (banner module).Readable := by
  have slash : '/' ∉ module.lower.toList := module.not_mem_lower (by decide)
  simp +decide [banner, Declaration.Readable, slash, module.plain_lower]

/-- What is asked of the name of a header, as a test of its characters. -/
theorem readable_include {header : String}
    (test : header.toList.all fun c => c ≠ '\n' ∧ c ≠ '?' ∧ c ≠ '\\') :
    '\n' ∉ header.toList ∧ Plain header.toList := by
  rw [List.all_eq_true] at test
  refine ⟨?_, ?_⟩
  · intro lineEnd
    exact absurd (test _ lineEnd) (by decide)
  · intro c member
    exact (of_decide_eq_true (test c member)).2

theorem readable_includeInterface (module : ModuleName) :
    (Declaration.includeQuoted module.interfaceFile).Readable := by
  have lineEnd : '\n' ∉ module.lower.toList := module.not_mem_lower (by decide)
  simp +decide [ModuleName.interfaceFile, Declaration.Readable, lineEnd, module.plain_lower]

theorem readable_table {table : NameTable} (member : table ∈ tables naming) :
    table.declaration.Readable := by
  obtain ⟨present, inhabited⟩ := List.mem_filter.1 member
  obtain ⟨kind, _, rfl⟩ := List.mem_map.1 present
  exact ⟨naming.module.isName_nameArray kind, naming.module.isName_count kind,
    by simpa using inhabited⟩

theorem readable_enumeration (identified : naming.Identified) (kind : NodeKind) :
    (enumeration naming kind).Readable :=
  ⟨naming.module.isName_enumeration kind, naming.module.isName_count kind, identified kind⟩

theorem readable_heads (module : ModuleName) : ∀ head ∈ heads module, head.Readable := by
  intro head member
  simp only [heads, List.cons_append, List.mem_cons, List.mem_append, List.mem_map] at member
  obtain rfl | ⟨kind, _, rfl⟩ | ⟨kind, _, rfl⟩ := member
  · exact readable_constructorHead module
  · exact readable_textHead module kind
  · exact readable_positionHead module kind

theorem readable_interface (identified : naming.Identified) :
    ∀ paragraph ∈ interface naming, ∀ declaration ∈ paragraph, declaration.Readable := by
  have petri : (Declaration.includeQuoted runtimeHeader).Readable :=
    readable_include (by decide)
  intro paragraph member declaration present
  simp only [interface, List.mem_append, List.mem_cons, List.not_mem_nil, or_false, List.mem_map,
    or_assoc] at member
  obtain rfl | rfl | ⟨kind, _, rfl⟩ | rfl := member
  · simp only [List.mem_cons, List.not_mem_nil, or_false] at present
    obtain rfl | rfl := present
    · exact readable_banner _
    · exact trivial
  · obtain rfl := List.mem_singleton.1 present
    exact petri
  · obtain rfl := List.mem_singleton.1 present
    exact readable_enumeration identified kind
  · obtain ⟨head, inside, rfl⟩ := List.mem_map.1 present
    exact readable_heads _ head inside

def preamble (naming : Naming) : TranslationUnit :=
  [[banner naming.module, .includeSystem "stddef.h", .includeSystem "string.h"],
    [.includeQuoted runtimeHeader, .includeQuoted naming.module.interfaceFile]] ++
    (tables naming).map fun table => [table.declaration]

def lookups (naming : Naming) : TranslationUnit :=
  (NodeKind.all.map (textLookup naming) ++ NodeKind.all.map (positionLookup naming)).map
    fun definition => [.function definition]

theorem implementation_eq (naming : Naming) (marking : List Weight)
    (incidences : List Incidence) : implementation naming marking incidences =
      preamble naming ++ [[.function (constructor naming marking incidences)]] ++
        lookups naming := by
  simp [implementation, preamble, definitions, lookups]

theorem readable_preamble (naming : Naming) :
    ∀ paragraph ∈ preamble naming, ∀ declaration ∈ paragraph, declaration.Readable := by
  have petri : (Declaration.includeQuoted runtimeHeader).Readable :=
    readable_include (by decide)
  have stddef : (Declaration.includeSystem "stddef.h").Readable := readable_include (by decide)
  have string : (Declaration.includeSystem "string.h").Readable := readable_include (by decide)
  intro paragraph member declaration present
  simp only [preamble, List.mem_append, List.mem_cons, List.not_mem_nil, or_false, List.mem_map,
    or_assoc] at member
  obtain rfl | rfl | ⟨table, inside, rfl⟩ := member
  · simp only [List.mem_cons, List.not_mem_nil, or_false] at present
    obtain rfl | rfl | rfl := present
    · exact readable_banner _
    · exact stddef
    · exact string
  · simp only [List.mem_cons, List.not_mem_nil, or_false] at present
    obtain rfl | rfl := present
    · exact petri
    · exact readable_includeInterface _
  · obtain rfl := List.mem_singleton.1 present
    exact readable_table inside

theorem readable_lookups (naming : Naming) :
    ∀ paragraph ∈ lookups naming, ∀ declaration ∈ paragraph, declaration.Readable := by
  intro paragraph member declaration present
  obtain ⟨definition, inside, rfl⟩ := List.mem_map.1 member
  obtain rfl := List.mem_singleton.1 present
  obtain text | position := List.mem_append.1 inside
  · obtain ⟨kind, _, rfl⟩ := List.mem_map.1 text
    exact readable_textLookup naming kind
  · obtain ⟨kind, _, rfl⟩ := List.mem_map.1 position
    exact readable_positionLookup naming kind

theorem readable_implementation (identified : naming.Identified) (marking : List Weight)
    (incidences : List Incidence) :
    ∀ paragraph ∈ implementation naming marking incidences, ∀ declaration ∈ paragraph,
      declaration.Readable := by
  intro paragraph member declaration present
  rw [implementation_eq, List.mem_append, List.mem_append] at member
  obtain (front | single) | back := member
  · exact readable_preamble naming paragraph front declaration present
  · obtain rfl := List.mem_singleton.1 single
    obtain rfl := List.mem_singleton.1 present
    exact readable_constructor marking fun incidence _ => readable_arcStatement identified incidence
  · exact readable_lookups naming paragraph back declaration present

end Emit
end PetriCode
