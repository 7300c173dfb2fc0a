import PetriCode.Proofs.Generation

/-! Which nets and texts a module is generated from. Acceptability is a condition on the net and the
text as a whole and asks for no order: the text is a C identifier, no label is empty, all names are
different, and every arc is well formed. Generating succeeds exactly then. -/
namespace PetriCode

def BeginsWord (c : Char) : Prop := ('A' ≤ c ∧ c ≤ 'Z') ∨ ('a' ≤ c ∧ c ≤ 'z') ∨ c = '_'

def ContinuesWord (c : Char) : Prop := BeginsWord c ∨ ('0' ≤ c ∧ c ≤ '9')

/-- A text that is one word of letters, digits and underscores and begins with no digit. -/
def IsWord (text : String) : Prop :=
  ∃ first rest, text.toList = first :: rest ∧ BeginsWord first ∧ ∀ c ∈ rest, ContinuesWord c

theorem beginsWord_iff {c : Char} : BeginsWord c ↔ C.isIdentifierStart c := by
  have upper : c.isUpper ↔ 'A' ≤ c ∧ c ≤ 'Z' := by
    rw [Text.isUpper_iff, Char.le_def, Char.le_def, UInt32.le_iff_toNat_le, UInt32.le_iff_toNat_le]
    rfl
  have lower : c.isLower ↔ 'a' ≤ c ∧ c ≤ 'z' := by
    rw [C.isLower_iff, Char.le_def, Char.le_def, UInt32.le_iff_toNat_le, UInt32.le_iff_toNat_le]
    rfl
  simp only [BeginsWord, C.isIdentifierStart, Text.isAlpha_eq, Bool.or_eq_true, upper, lower,
    beq_iff_eq, or_assoc]

theorem continuesWord_iff {c : Char} : ContinuesWord c ↔ C.isIdentifierPart c := by
  have digit : c.isDigit ↔ '0' ≤ c ∧ c ≤ '9' := by simp [Char.isDigit, Char.le_def]
  unfold ContinuesWord
  rw [beginsWord_iff]
  simp only [C.isIdentifierStart, C.isIdentifierPart, Char.isAlphanum, Bool.or_eq_true, digit]
  tauto

theorem isWord_iff {text : String} : IsWord text ↔ C.isIdentifier text.toList := by
  unfold IsWord
  cases text.toList with
  | nil => simp [C.isIdentifier]
  | cons first rest =>
    simp only [List.cons.injEq, C.isIdentifier, Bool.and_eq_true, List.all_eq_true,
      ← beginsWord_iff, ← continuesWord_iff]
    constructor
    · intro word
      obtain ⟨_, _, ⟨rfl, rfl⟩, begins, continues⟩ := word
      exact ⟨begins, continues⟩
    · intro word
      exact ⟨first, rest, ⟨rfl, rfl⟩, word.1, word.2⟩

/-- The names that a module takes in C: the constants that count places and transitions, in the upper
case of ASCII, and the labels of the places and of the transitions in full upper case. -/
def takenNames (net : Net) (module : String) : List String :=
  let upper := String.ofList (Text.uppercaseAscii module.toList)
  [upper ++ "_PLACES_ALL", upper ++ "_TRANS_ALL"] ++
    net.places.entries.map (fun place => Text.uppercase place.label) ++
    net.transitions.entries.map (fun transition => Text.uppercase transition.label)

/-- What is asked of a net and of a text that is to name its module. -/
structure Acceptable (net : Net) (module : String) : Prop where
  word : IsWord module
  placeLabels : ∀ place ∈ net.places.entries, place.label ≠ ""
  transitionLabels : ∀ transition ∈ net.transitions.entries, transition.label ≠ ""
  distinct : (takenNames net module).Nodup
  arcs : ∀ arc ∈ net.arcs, net.WellFormedArc arc

theorem claimedNames_eq {net : Net} {module : String} {name : ModuleName}
    (named : ModuleName.ofString? module = some name) :
    net.claimedNames name = takenNames net module := by
  simp only [Net.claimedNames, takenNames, Net.nodes, ModuleName.count,
    ModuleName.upper_ofString named, List.map_append, List.map_map, List.append_assoc]
  rfl

theorem nodes_named_iff {net : Net} :
    (∀ node ∈ net.nodes, node.name ≠ "") ↔
      (∀ place ∈ net.places.entries, place.label ≠ "") ∧
        ∀ transition ∈ net.transitions.entries, transition.label ≠ "" := by
  simp [Net.nodes, Node.name, Text.uppercase_eq_empty_iff, or_imp, forall_and, Place.node,
    Transition.node]

/-- A module is generated from exactly the acceptable nets and texts. -/
theorem generate_succeeds_iff (net : Net) (module : String) :
    (∃ artifacts, generate net module = .ok artifacts) ↔ Acceptable net module := by
  constructor
  · intro generated
    obtain ⟨artifacts, generated⟩ := generated
    obtain ⟨name, incidences, named, nameable, resolved, _⟩ := generate_eq_ok_iff.1 generated
    have labels := nodes_named_iff.1 nameable.inhabited
    exact {
      word := isWord_iff.2 (ModuleName.ofString?_isSome_iff.1 ⟨name, named⟩)
      placeLabels := labels.1
      transitionLabels := labels.2
      distinct := claimedNames_eq named ▸ nameable.distinct
      arcs := Net.exists_connections_iff.1 ⟨incidences, resolved⟩ }
  · intro acceptable
    obtain ⟨name, named⟩ := ModuleName.ofString?_isSome_iff.2 (isWord_iff.1 acceptable.word)
    obtain ⟨incidences, resolved⟩ := Net.exists_connections_iff.2 acceptable.arcs
    have nameable : net.Nameable name := {
      inhabited := nodes_named_iff.2 ⟨acceptable.placeLabels, acceptable.transitionLabels⟩
      distinct := (claimedNames_eq named).symm ▸ acceptable.distinct }
    exact ⟨_, generate_eq_ok_iff.2 ⟨name, incidences, named, nameable, resolved, rfl⟩⟩

end PetriCode
