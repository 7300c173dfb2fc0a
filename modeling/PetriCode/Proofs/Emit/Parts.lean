import PetriCode.Proofs.Capture
import PetriCode.Proofs.Emit.Lookups

/-! What an item of an implementation is, and which arrays it is about. A function takes elements of arrays that
are defined before it, the array of a kind of nodes is named in the two lookups of that kind alone, and
the one array inside a function is the marking. -/
namespace PetriCode
namespace C

def Operand.array? : Operand → Option String
  | element array _ => some array
  | _ => none

/-- What a condition takes elements of. -/
def Condition.uses : Condition → List String
  | isNull _ | atLeast _ _ => []
  | isEmptyText pointer => [pointer]
  | sameText left right => left.array?.toList ++ right.array?.toList
  | either left right => left.uses ++ right.uses

def Statement.uses : Statement → List String
  | define _ _ arguments | call _ arguments => arguments.filterMap Operand.array?
  | defineArray _ _ _ _ | discard _ => []
  | returns value => value.array?.toList
  | returnsIf condition value => condition.uses ++ value.array?.toList
  | countUp _ _ _ body => body.uses

namespace Item

/-- What a function takes elements of, its own parameter apart. -/
def uses : Item → List String
  | function head body =>
    (body.flatMap Statement.uses).filter (some · ≠ head.parameter.map Variable.name)
  | _ => []

/-- The words in the body of a function. -/
def bodyWords : Item → List String
  | function _ body => body.flatMap Statement.words
  | _ => []

def definition? : Item → Option Prototype
  | function head _ => some head
  | _ => none

end Item
end C

open C

namespace Emit
variable (naming : Naming) (marking : List Weight) (incidences : List Incidence)

theorem uses_constructor : (Item.function (constructorHead naming.module)
    (constructor naming marking incidences).body.flatten).uses = [] := by
  have connecting (incidence : Incidence) : (arcStatement naming incidence).uses = [] := by
    unfold arcStatement
    cases incidence.direction <;> rfl
  have marked : (if marking = [] then [] else markingStatements naming marking).flatMap
      Statement.uses = [] := by
    split_ifs <;> rfl
  have connected : (incidences.map (arcStatement naming)).flatMap Statement.uses = [] := by
    simp [List.flatMap_map, connecting]
  rw [Item.uses, constructor_body, List.flatMap_append, List.flatMap_append, List.flatMap_append,
    marked, connected]
  rfl

variable {naming marking incidences}

/-- The two lookups of a kind of nodes. -/
inductive Lookup (naming : Naming) (kind : NodeKind) : Prototype → List Statement → Prop
  | text : Lookup naming kind (textHead naming.module kind)
    (textBody (naming.table kind) (positionName kind))
  | position : Lookup naming kind (positionHead naming.module kind)
    (positionBody (naming.table kind))

/-- What an item of an implementation is. -/
inductive Part (naming : Naming) (marking : List Weight) (incidences : List Incidence) : Item → Prop
  | directive (line : String) : Part naming marking incidences (.directive line)
  | array (kind : NodeKind) (inhabited : naming.names kind ≠ []) :
    Part naming marking incidences
      (.nameArray (naming.module.nameArray kind) (naming.count kind)
        ((naming.names kind).map bytes))
  | making : Part naming marking incidences
      (.function (constructorHead naming.module)
        (constructor naming marking incidences).body.flatten)
  | lookup {kind : NodeKind} {head : Prototype} {body : List Statement}
    (own : Lookup naming kind head body) : Part naming marking incidences (.function head body)

theorem part_front {item : Item} (front : item ∈ directives naming ++ arrays naming) :
    Part naming marking incidences item := by
  obtain directive | array := List.mem_append.1 front
  · simp only [directives, List.mem_cons, List.not_mem_nil, or_false] at directive
    obtain rfl | rfl | rfl | rfl := directive <;> exact .directive _
  · obtain ⟨table, present, rfl⟩ := List.mem_map.1 array
    obtain ⟨listed, inhabited⟩ := List.mem_filter.1 present
    obtain ⟨kind, _, rfl⟩ := List.mem_map.1 listed
    exact .array kind (of_decide_eq_true inhabited)

theorem part_of_mem {item : Item}
    (member : item ∈ unitItems (implementation naming marking incidences)) :
    Part naming marking incidences item := by
  rw [unitItems, items_implementation, List.mem_append, List.mem_append, List.mem_singleton,
    or_assoc] at member
  obtain front | rfl | lookup := member
  · exact part_front front
  · exact .making
  · obtain text | position := List.mem_append.1 lookup
    · obtain ⟨kind, _, rfl⟩ := List.mem_map.1 text
      exact .lookup .text
    · obtain ⟨kind, _, rfl⟩ := List.mem_map.1 position
      exact .lookup .position

section Lookups
variable {kind : NodeKind} {head : Prototype} {body : List Statement}

/-- The head of a lookup is the head of no other one. -/
theorem Lookup.head_iff (lookup : Lookup naming kind head body) {other : NodeKind} :
    head ∈ [textHead naming.module other, positionHead naming.module other] ↔ kind = other := by
  cases lookup <;> cases kind <;> cases other <;> simp [textHead, positionHead]

theorem Lookup.uses (lookup : Lookup naming kind head body) : (Item.function head body).uses =
    if (naming.table kind).names = [] then [] else [naming.module.nameArray kind] := by
  have parameter_ne (other : String) (short : other ∈ ["place", "trans", "name"]) :
      naming.module.nameArray kind ≠ other := by
    have places : ∀ text ∈ ["place", "trans", "name"], ¬ "_place_names".toList <:+ text.toList := by
      decide
    have transitions : ∀ text ∈ ["place", "trans", "name"],
        ¬ "_trans_names".toList <:+ text.toList := by
      decide
    cases kind with
    | place => exact append_ne (places other short)
    | transition => exact append_ne (transitions other short)
  cases lookup with
  | text =>
    have parameter : (textHead naming.module kind).parameter.map Variable.name =
        some (positionName kind) := by cases kind <;> rfl
    have other := parameter_ne (positionName kind) (by cases kind <;> decide)
    rw [Item.uses, textBody, parameter]
    split_ifs
    · rfl
    · change List.filter _ [naming.module.nameArray kind] = _
      simp [other]
  | position =>
    have parameter : (positionHead naming.module kind).parameter.map Variable.name =
        some "name" := by cases kind <;> rfl
    have other := parameter_ne "name" (by decide)
    rw [Item.uses, positionBody, parameter]
    split_ifs
    · rfl
    · change List.filter _ ["name", naming.module.nameArray kind] = _
      simp [other]

theorem Lookup.mem_words (lookup : Lookup naming kind head body)
    (inhabited : (naming.table kind).names ≠ []) :
    naming.module.nameArray kind ∈ body.flatMap Statement.words := by
  cases lookup with
  | text =>
    rw [textBody, if_neg inhabited]
    simp [Naming.table]
  | position =>
    rw [positionBody, if_neg inhabited]
    simp [Naming.table]

theorem Lookup.inLookup (lookup : Lookup naming kind head body) {word : String}
    (member : word ∈ body.flatMap Statement.words) : InLookup naming (naming.table kind) word := by
  obtain ⟨statement, present, inside⟩ := List.mem_flatMap.1 member
  cases lookup with
  | text => exact inLookup_textBody naming present word inside
  | position => exact inLookup_positionBody naming present word inside

theorem Lookup.not_defineArray (lookup : Lookup naming kind head body) {type array size : String}
    {values : List Weight} : .defineArray type array size values ∉ body := by
  cases lookup with
  | text =>
    unfold textBody
    split_ifs <;> simp
  | position =>
    unfold positionBody
    split_ifs <;> simp

end Lookups

theorem uses_front {item : Item} (front : item ∈ directives naming ++ arrays naming) :
    item.uses = [] := by
  have none : (directives naming ++ arrays naming).flatMap Item.uses = [] := by
    simp [directives, arrays, List.flatMap_map, Item.uses]
  exact List.flatMap_eq_nil_iff.1 none item front

theorem Part.uses_defined {item : Item} (part : Part naming marking incidences item) :
    ∀ array ∈ item.uses, array ∈ (tables naming).map NameTable.array := by
  cases part with
  | directive line => simp [Item.uses]
  | array kind inhabited => simp [Item.uses]
  | making => simp [uses_constructor]
  | lookup own =>
    intro array member
    rw [own.uses] at member
    split_ifs at member with empty
    · cases member
    · obtain rfl := List.mem_singleton.1 member
      exact List.mem_map_of_mem (mem_tables naming empty)

/-- An array is defined before the functions that take elements of it. -/
theorem arrays_before {position : Nat} {item : Item}
    (listed : (unitItems (implementation naming marking incidences))[position]? = some item)
    {array : String} (used : array ∈ item.uses) :
    array ∈ ((unitItems (implementation naming marking incidences)).take position).flatMap
      Item.arrays := by
  have defined := (part_of_mem (List.mem_of_getElem? listed)).uses_defined array used
  rw [← arrays_front] at defined
  rw [unitItems, items_implementation, List.append_assoc] at listed ⊢
  have behind : (directives naming ++ arrays naming).length ≤ position := by
    by_contra inside
    rw [List.getElem?_append_left (not_le.1 inside)] at listed
    rw [uses_front (List.mem_of_getElem? listed)] at used
    cases used
  rw [List.take_append, List.take_of_length_le behind, List.flatMap_append]
  exact List.mem_append_left _ defined

theorem nameArray_not_common (net : Net) (module : ModuleName) (kind : NodeKind) :
    ¬ Common (net.named module) (module.nameArray kind) := by
  have lowered : module.nameArray kind ∈ module.lowered := by
    rw [module.lowered_eq]
    exact List.mem_append_right _ (List.mem_map_of_mem kind.mem_all)
  rintro (fixed | constant)
  · obtain keyword | foreign := List.mem_append.1 fixed
    · exact (module.isName_of_lowered lowered).2 keyword
    · exact module.lowered_not_foreign lowered foreign
  · have upper := hasLower_of_constant (Naming.mem_enumerations.2 constant)
    rw [module.hasLower_of_lowered lowered] at upper
    cases upper

/-- The array of a kind that has nodes is named in its two lookups, and in no other function. -/
theorem Part.names_iff {net : Net} {module : ModuleName} {item : Item}
    (part : Part (net.named module) marking incidences item) (kind : NodeKind) :
    module.nameArray kind ∈ item.bodyWords ↔ (net.named module).names kind ≠ [] ∧
      ∃ head ∈ [textHead module kind, positionHead module kind], item.definition? = some head := by
  have foreign := nameArray_not_common net module kind
  cases part with
  | directive line => simp [Item.bodyWords, Item.definition?]
  | array other _ => simp [Item.bodyWords, Item.definition?]
  | making =>
    have absent : module.nameArray kind ∉ (constructor (net.named module) marking
        incidences).body.flatten.flatMap Statement.words := by
      intro member
      obtain ⟨statement, present, inside⟩ := List.mem_flatMap.1 member
      exact foreign (common_constructor _ present _ inside)
    rw [Item.bodyWords]
    cases kind <;> simp [absent, Item.definition?, constructorHead, textHead, positionHead]
  | @lookup other head body own =>
    have found : (∃ known ∈ [textHead module kind, positionHead module kind],
        (Item.function head body).definition? = some known) ↔ other = kind := by
      rw [← own.head_iff]
      simp only [Item.definition?, Option.some.injEq, exists_eq_right']
      rfl
    rw [found]
    constructor
    · intro member
      obtain common | ⟨inhabited, same⟩ := own.inLookup member
      · exact absurd common foreign
      · obtain rfl := nameArray_inj same
        exact ⟨inhabited, rfl⟩
    · rintro ⟨inhabited, rfl⟩
      exact own.mem_words inhabited

theorem arcStatement_call (naming : Naming) (incidence : Incidence) : ∃ function arguments,
    arcStatement naming incidence = .call function arguments ∧ function ≠ "petri_marking_set" := by
  unfold arcStatement
  cases incidence.direction
  · exact ⟨_, _, rfl, by decide⟩
  · exact ⟨_, _, rfl, by decide⟩

theorem defineArray_mem_constructor {type array size : String} {values : List Weight} :
    .defineArray type array size values ∈ (constructor naming marking incidences).body.flatten ↔
      marking ≠ [] ∧ type = "pn_weight" ∧ array = "m" ∧ size = naming.count .place ∧
        values = marking := by
  have connecting (incidence : Incidence) :
      arcStatement naming incidence ≠ .defineArray type array size values := by
    obtain ⟨_, _, call, _⟩ := arcStatement_call naming incidence
    simp [call]
  rw [mem_constructor]
  simp [connecting, allocation, markingStatements]

theorem markingSet_mem_constructor {arguments : List Operand} :
    .call "petri_marking_set" arguments ∈ (constructor naming marking incidences).body.flatten ↔
      marking ≠ [] ∧ arguments = [.name "net", .name "m"] := by
  have connecting (incidence : Incidence) :
      arcStatement naming incidence ≠ .call "petri_marking_set" arguments := by
    obtain ⟨function, _, call, other⟩ := arcStatement_call naming incidence
    simp [call, other]
  rw [mem_constructor]
  simp [connecting, allocation, markingStatements]

/-- The only array that a function has of its own is the marking. -/
theorem Part.defineArray {head : Prototype} {body : List Statement} {type array size : String}
    {values : List Weight} (part : Part naming marking incidences (.function head body))
    (member : .defineArray type array size values ∈ body) :
    size = naming.count .place ∧ values = marking ∧ marking ≠ [] := by
  cases part with
  | making =>
    obtain ⟨inhabited, _, _, size, values⟩ := defineArray_mem_constructor.1 member
    exact ⟨size, values, inhabited⟩
  | lookup own => exact absurd member own.not_defineArray

theorem Part.body_eq {body : List Statement}
    (part : Part naming marking incidences (.function (constructorHead naming.module) body)) :
    body = (constructor naming marking incidences).body.flatten := by
  generalize same : constructorHead naming.module = head at part
  cases part with
  | making => rfl
  | @lookup kind _ _ own =>
    have listed := own.head_iff.2 rfl
    subst same
    cases kind <;> simp [constructorHead, textHead, positionHead] at listed

end Emit
end PetriCode
