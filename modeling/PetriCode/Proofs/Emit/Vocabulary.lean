import PetriCode.Proofs.C.Words
import PetriCode.Proofs.Emit.Items
import PetriCode.Proofs.Naming.Constants

/-! The vocabulary of the files of a module: what the words in them are. -/
namespace PetriCode.Emit
open C

/-- What the files take from elsewhere: the null pointer, a function to compare texts, the library that
runs nets, and the names of parameters and of variables in functions. -/
def foreignNames : List String :=
  ["NULL", "strcmp", "PetriNet", "pn_place", "pn_trans", "pn_weight", "petri_new",
    "petri_marking_set", "petri_conf_input", "petri_conf_output", "net", "m", "i", "place", "trans",
    "name"]

/-- The names that the files of a module bring in: constants, functions and arrays. -/
def declared (naming : Naming) : List String :=
  naming.enumerations.flatten ++ (heads naming.module).map Prototype.name ++
    (tables naming).map NameTable.array

/-- What a word in the files of a module is. -/
inductive Known (naming : Naming) (word : String) : Prop
  | keyword (member : word ∈ keywords)
  | tag (kind : NodeKind) (same : word = naming.module.enumeration kind)
  | declared (member : word ∈ declared naming)
  | foreign (member : word ∈ foreignNames)

/-- A word that says nothing of functions and arrays of a module: a constant, or a word that every module has. -/
def Common (naming : Naming) (word : String) : Prop :=
  word ∈ keywords ++ foreignNames ∨ ∃ kind, word ∈ naming.constants kind

section Words
variable (naming : Naming)

theorem common_fixed {word : String} (member : word ∈ keywords ++ foreignNames) :
    Common naming word :=
  .inl member

theorem common_count (kind : NodeKind) : Common naming (naming.count kind) :=
  .inr ⟨kind, List.mem_append_right _ List.mem_cons_self⟩

theorem common_name {kind : NodeKind} {name : String} (member : name ∈ naming.names kind) :
    Common naming name :=
  .inr ⟨kind, List.mem_append_left _ member⟩

theorem common_nameAt (kind : NodeKind) (position : Nat) :
    Common naming (naming.nameAt kind position) := by
  unfold Naming.nameAt
  cases found : (naming.names kind)[position]? with
  | none => exact common_count naming kind
  | some name => exact common_name naming (List.mem_of_getElem? found)

theorem Common.known {naming : Naming} {word : String} (common : Common naming word) :
    Known naming word := by
  obtain fixed | constant := common
  · exact (List.mem_append.1 fixed).elim .keyword .foreign
  · have listed := Naming.mem_enumerations.2 constant
    exact .declared (by simp only [declared, List.mem_append, listed, true_or])

theorem common_arcStatement (incidence : Incidence) :
    ∀ word ∈ (arcStatement naming incidence).words, Common naming word := by
  unfold arcStatement
  cases incidence.direction <;> simp (disch := decide) [common_fixed, common_nameAt]

theorem common_constructor {marking : List Weight} {incidences : List Incidence}
    {statement : Statement}
    (present : statement ∈ (constructor naming marking incidences).body.flatten) :
    ∀ word ∈ statement.words, Common naming word := by
  obtain allocated | ⟨_, marked⟩ | ⟨incidence, _, rfl⟩ | rfl := mem_constructor.1 present
  · simp only [allocation, List.mem_cons, List.not_mem_nil, or_false] at allocated
    obtain rfl | rfl := allocated <;>
      simp (disch := decide) [Operand.null, common_fixed, common_count]
  · simp only [markingStatements, List.mem_cons, List.not_mem_nil, or_false] at marked
    obtain rfl | rfl := marked <;> simp (disch := decide) [common_fixed, common_count]
  · exact common_arcStatement naming incidence
  · simp (disch := decide) [common_fixed]

/-- A word in a lookup is a common one, or the name of the array of a table that is not empty. -/
def InLookup (table : NameTable) (word : String) : Prop :=
  Common naming word ∨ table.names ≠ [] ∧ word = table.array

theorem inLookup_textBody {kind : NodeKind} {statement : Statement}
    (present : statement ∈ textBody (naming.table kind) (positionName kind)) :
    ∀ word ∈ statement.words, InLookup naming (naming.table kind) word := by
  have position : Common naming (positionName kind) :=
    common_fixed naming (by cases kind <;> decide)
  have count : Common naming (naming.table kind).count := common_count naming kind
  unfold textBody at present
  split_ifs at present with empty
  · simp only [List.mem_cons, List.not_mem_nil, or_false] at present
    obtain rfl | rfl := present <;>
      simp (disch := decide) [InLookup, Operand.null, common_fixed, position]
  · simp only [List.mem_cons, List.not_mem_nil, or_false] at present
    obtain rfl | rfl := present <;>
      simp (disch := decide) [InLookup, Operand.null, common_fixed, position, count, empty]

theorem inLookup_positionBody {kind : NodeKind} {statement : Statement}
    (present : statement ∈ positionBody (naming.table kind)) :
    ∀ word ∈ statement.words, InLookup naming (naming.table kind) word := by
  have type : Common naming (Naming.indexType kind) :=
    common_fixed naming (by cases kind <;> decide)
  change Common naming (naming.table kind).indexType at type
  have count : Common naming (naming.table kind).count := common_count naming kind
  unfold positionBody at present
  split_ifs at present with empty
  · simp only [List.mem_cons, List.not_mem_nil, or_false] at present
    obtain rfl | rfl := present <;> simp (disch := decide) [InLookup, common_fixed, count]
  · simp only [List.mem_cons, List.not_mem_nil, or_false] at present
    obtain rfl | rfl | rfl := present <;>
      simp (disch := decide) [InLookup, common_fixed, type, count, empty]

theorem known_array {table : NameTable} (member : table ∈ tables naming) :
    Known naming table.array := by
  have listed := List.mem_map_of_mem (f := NameTable.array) member
  exact .declared (by simp [declared, listed])

theorem known_head {head : Prototype} (member : head ∈ heads naming.module) :
    Known naming head.name := by
  have listed := List.mem_map_of_mem (f := Prototype.name) member
  exact .declared (by simp [declared, listed])

theorem known_fixed {word : String} (member : word ∈ keywords ++ foreignNames) :
    Known naming word :=
  (common_fixed naming member).known

theorem known_headWords {head : Prototype} (member : head ∈ heads naming.module) :
    ∀ word ∈ head.words, Known naming word := by
  have name := known_head naming member
  simp only [heads, NodeKind.all, List.map_cons, List.map_nil, List.cons_append, List.nil_append,
    List.mem_cons, List.not_mem_nil, or_false] at member
  obtain rfl | rfl | rfl | rfl | rfl := member <;>
    simp only [constructorHead, textHead, positionHead] at name <;>
    simp (disch := decide) [words_head, constructorHead, textHead, positionHead, known_fixed, name]

theorem known_function {definition : Definition} (head : definition.head ∈ heads naming.module)
    (body : ∀ statement ∈ definition.body.flatten, ∀ word ∈ statement.words, Known naming word) :
    ∀ word ∈ (Declaration.function definition).words, Known naming word := by
  intro word member
  rw [words_function, List.mem_append, List.mem_flatMap] at member
  obtain front | ⟨statement, present, inside⟩ := member
  · exact known_headWords naming head word front
  · exact body statement present word inside

theorem known_constructor (marking : List Weight) (incidences : List Incidence) :
    ∀ word ∈ (Declaration.function (constructor naming marking incidences)).words,
      Known naming word := by
  apply known_function naming (by simp [heads, constructor])
  exact fun statement present word inside =>
    (common_constructor naming present word inside).known

theorem mem_tables {kind : NodeKind} (inhabited : (naming.table kind).names ≠ []) :
    naming.table kind ∈ tables naming :=
  List.mem_filter.2 ⟨List.mem_map_of_mem kind.mem_all, by simpa using inhabited⟩

variable {naming} in
theorem InLookup.known {kind : NodeKind} {word : String}
    (inLookup : InLookup naming (naming.table kind) word) : Known naming word := by
  obtain common | ⟨inhabited, rfl⟩ := inLookup
  · exact common.known
  · exact known_array naming (mem_tables naming inhabited)

theorem known_textLookup (kind : NodeKind) :
    ∀ word ∈ (Declaration.function (textLookup naming kind)).words, Known naming word := by
  apply known_function naming (by cases kind <;> simp [heads, textLookup, NodeKind.all])
  rw [textLookup, List.flatten_singleton]
  exact fun statement present word inside => (inLookup_textBody naming present word inside).known

theorem known_positionLookup (kind : NodeKind) :
    ∀ word ∈ (Declaration.function (positionLookup naming kind)).words, Known naming word := by
  apply known_function naming (by cases kind <;> simp [heads, positionLookup, NodeKind.all])
  rw [positionLookup, List.flatten_singleton]
  exact fun statement present word inside =>
    (inLookup_positionBody naming present word inside).known

end Words

section Files
variable (naming : Naming)

theorem known_enumeration (kind : NodeKind) :
    ∀ word ∈ (enumeration naming kind).words, Known naming word := by
  intro word member
  simp only [enumeration, words_enumeration, List.cons_append, List.mem_cons, List.mem_append,
    List.not_mem_nil, or_false] at member
  obtain rfl | rfl | name | rfl := member
  · exact known_fixed naming (by decide)
  · exact .tag kind rfl
  · exact (common_name naming name).known
  · exact (common_count naming kind).known

theorem known_interface :
    ∀ declaration ∈ (interface naming).flatten, ∀ word ∈ declaration.words, Known naming word := by
  intro declaration member
  simp only [interface, List.flatten_append, List.flatten_cons, List.flatten_nil, List.mem_append,
    List.mem_cons, List.not_mem_nil, or_false, or_assoc, List.mem_flatten, List.mem_map] at member
  obtain rfl | rfl | rfl | ⟨_, ⟨kind, _, rfl⟩, single⟩ | ⟨head, present, rfl⟩ := member
  · simp [banner]
  · simp
  · simp
  · obtain rfl := List.mem_singleton.1 single
    exact known_enumeration naming kind
  · rw [words_prototype]
    exact known_headWords naming present

theorem known_preamble :
    ∀ declaration ∈ (preamble naming).flatten, ∀ word ∈ declaration.words, Known naming word := by
  intro declaration member
  simp only [preamble, List.flatten_append, List.flatten_cons, List.flatten_nil, List.mem_append,
    List.mem_cons, List.not_mem_nil, or_false, or_assoc, List.mem_flatten, List.mem_map] at member
  obtain rfl | rfl | rfl | rfl | rfl | ⟨_, ⟨table, present, rfl⟩, single⟩ := member
  · simp [banner]
  · simp
  · simp
  · simp
  · simp
  · obtain rfl := List.mem_singleton.1 single
    have array := known_array naming present
    obtain ⟨kind, _, rfl⟩ := List.mem_map.1 (List.mem_filter.1 present).1
    have count : Known naming (naming.table kind).count := (common_count naming kind).known
    simp (disch := decide) [NameTable.declaration, known_fixed, array, count]

theorem known_implementation (marking : List Weight) (incidences : List Incidence) :
    ∀ declaration ∈ (implementation naming marking incidences).flatten,
      ∀ word ∈ declaration.words, Known naming word := by
  intro declaration member
  rw [implementation_eq, List.flatten_append, List.flatten_append, List.mem_append,
    List.mem_append] at member
  obtain (front | single) | back := member
  · exact known_preamble naming declaration front
  · obtain rfl := List.mem_singleton.1 single
    exact known_constructor naming marking incidences
  · simp only [lookups, List.mem_flatten, List.mem_map, List.mem_append] at back
    obtain ⟨_, ⟨_, ⟨kind, _, rfl⟩ | ⟨kind, _, rfl⟩, rfl⟩, single⟩ := back
    · obtain rfl := List.mem_singleton.1 single
      exact known_textLookup naming kind
    · obtain rfl := List.mem_singleton.1 single
      exact known_positionLookup naming kind

end Files

section Items
variable (naming : Naming) (marking : List Weight) (incidences : List Incidence)

theorem functions_interface : (unitItems (interface naming)).flatMap Item.functions =
    (heads naming.module).map Prototype.name := rfl

theorem functions_implementation :
    (unitItems (implementation naming marking incidences)).flatMap Item.functions =
      (heads naming.module).map Prototype.name := by
  have inArrays : (arrays naming).flatMap Item.functions = [] := by
    simp [arrays, List.flatMap_map, Item.functions]
  rw [unitItems, items_implementation, List.flatMap_append, List.flatMap_append,
    List.flatMap_append, inArrays]
  rfl

theorem arrays_front : (directives naming ++ arrays naming).flatMap Item.arrays =
    (tables naming).map NameTable.array := by
  have inArrays : (arrays naming).flatMap Item.arrays = (tables naming).map NameTable.array := by
    rw [arrays, List.flatMap_map, List.map_eq_flatMap]
    rfl
  have inDirectives : (directives naming).flatMap Item.arrays = [] := rfl
  rw [List.flatMap_append, inDirectives, inArrays, List.nil_append]

theorem arrays_implementation :
    (unitItems (implementation naming marking incidences)).flatMap Item.arrays =
      (tables naming).map NameTable.array := by
  have inFunctions : (functions naming).flatMap Item.arrays = [] := rfl
  rw [unitItems, items_implementation, List.flatMap_append, List.flatMap_append, arrays_front,
    inFunctions]
  simp [Item.arrays]

theorem declaredNames_eq :
    declaredNames (unitItems (interface naming))
      (unitItems (implementation naming marking incidences)) = declared naming := by
  rw [declaredNames, functions_interface, arrays_implementation]
  rfl

theorem null_mem_words : "NULL" ∈ unitWords (implementation naming marking incidences) := by
  have statement : Statement.returnsIf (.isNull "net") .null ∈
      (constructor naming marking incidences).body.flatten := by
    simp [constructor_body, allocation]
  have function : "NULL" ∈
      (Declaration.function (constructor naming marking incidences)).words := by
    rw [words_function]
    exact List.mem_append_right _ (List.mem_flatMap.2 ⟨_, statement, by simp⟩)
  refine List.mem_flatMap.2 ⟨_, ?_, function⟩
  simp [implementation_eq]

end Items
end PetriCode.Emit
