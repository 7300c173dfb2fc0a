import PetriCode.Proofs.Generation
import PetriCode.Proofs.Text.Capital

/-! Normal forms of nets. In its normal form a net is labelled with the names that its nodes have in the
generated module, and its arcs are inscribed with their weights in decimal. Names are upper case, which
is its own upper case; a weight is read back from its digits; and of a module's name only the lower
case counts. So the normal form generates the very same module. -/
namespace PetriCode

namespace C

theorem isIdentifierStart_of_toLower {c : Char} (start : isIdentifierStart c.toLower) :
    isIdentifierStart c := by
  obtain same | upper := Text.toLower_eq_or_isUpper c
  · rwa [same] at start
  · simp [isIdentifierStart, Text.isAlpha_eq, upper]

theorem isIdentifierPart_of_toLower {c : Char} (part : isIdentifierPart c.toLower) :
    isIdentifierPart c := by
  obtain same | upper := Text.toLower_eq_or_isUpper c
  · rwa [same] at part
  · simp [isIdentifierPart, Char.isAlphanum, Text.isAlpha_eq, upper]

theorem isIdentifier_of_map_toLower {text : List Char}
    (identifier : isIdentifier (text.map Char.toLower)) : isIdentifier text := by
  cases text with
  | nil => exact identifier
  | cons first rest =>
    simp only [isIdentifier, List.map_cons, Bool.and_eq_true, List.all_eq_true] at identifier ⊢
    refine ⟨isIdentifierStart_of_toLower identifier.1, ?_⟩
    intro c member
    exact isIdentifierPart_of_toLower (identifier.2 c.toLower (List.mem_map_of_mem member))

end C

/-- A text names the module that its lower case names. -/
theorem ModuleName.ofString?_of_lowercase {text other : String} {name : ModuleName}
    (named : ofString? text = some name)
    (same : Text.lowercaseAscii other.toList = Text.lowercaseAscii text.toList) :
    ofString? other = some name := by
  simp only [ofString?, Option.dite_none_right_eq_some, Option.some.injEq] at named ⊢
  obtain ⟨identifier, rfl⟩ := named
  have lower := C.isIdentifier_map_toLower _ identifier
  rw [← Text.lowercaseAscii, ← same] at lower
  exact ⟨C.isIdentifier_of_map_toLower lower, by simp only [same]⟩

/-- The entries of a roster changed under their keys, each with a view to its position. -/
def Roster.revised {α : Type} {key : α → String} (roster : Roster key) (change : Nat → α → α)
    (kept : ∀ position entry, key (change position entry) = key entry) : Roster key where
  entries := roster.entries.mapIdx change
  distinct := by
    rw [map_mapIdx fun position entry _ => kept position entry]
    exact roster.distinct

/-- An arc inscribed with its weight in decimal. -/
def Arc.normalForm (arc : Arc) : Arc :=
  match weightOf arc.inscription with
  | .ok weight => { arc with inscription := Text.Numeral.write weight }
  | .error _ => arc

namespace Net

/-- A net labelled with the names that a module has for its nodes, and its arcs inscribed with their
weights. -/
def normalForm (net : Net) (artifacts : Artifacts) : Net where
  places := net.places.revised (fun position place =>
    { place with label := (artifacts.places.nameOf position).getD place.label }) fun _ _ => rfl
  transitions := net.transitions.revised (fun position transition =>
    { transition with label := (artifacts.transitions.nameOf position).getD transition.label })
    fun _ _ => rfl
  arcs := net.arcs.map Arc.normalForm

variable {net : Net} {artifacts : Artifacts}

theorem keys_places_normalForm : (net.normalForm artifacts).places.keys = net.places.keys :=
  map_mapIdx fun _ _ _ => rfl

theorem keys_transitions_normalForm :
    (net.normalForm artifacts).transitions.keys = net.transitions.keys :=
  map_mapIdx fun _ _ _ => rfl

theorem marking_normalForm : (net.normalForm artifacts).marking = net.marking :=
  map_mapIdx fun _ _ _ => rfl

/-- A label that is a name already has itself for its name. -/
theorem named_normalForm {module : ModuleName}
    (places : artifacts.places.names = (net.named module).places)
    (transitions : artifacts.transitions.names = (net.named module).transitions) :
    (net.normalForm artifacts).named module = net.named module := by
  have placeNames : (net.normalForm artifacts).places.entries.map (·.node.name) =
      net.places.entries.map (·.node.name) := by
    apply map_mapIdx
    intro position place listed
    have name : artifacts.places.nameOf position = some place.node.name := by
      rw [NameTable.nameOf, places, named, List.getElem?_map, listed, Option.map_some]
    simp only [name, Option.getD_some]
    exact Text.uppercase_uppercase place.label
  have transitionNames : (net.normalForm artifacts).transitions.entries.map (·.node.name) =
      net.transitions.entries.map (·.node.name) := by
    apply map_mapIdx
    intro position transition listed
    have name : artifacts.transitions.nameOf position = some transition.node.name := by
      rw [NameTable.nameOf, transitions, named, List.getElem?_map, listed, Option.map_some]
    simp only [name, Option.getD_some]
    exact Text.uppercase_uppercase transition.label
  rw [named, named, placeNames, transitionNames]

theorem Nameable.of_named {other : Net} {module : ModuleName} (nameable : net.Nameable module)
    (same : other.named module = net.named module) : other.Nameable module := by
  have names : other.nodes.map Node.name = net.nodes.map Node.name := by
    rw [← names_named other module, ← names_named net module, same]
  refine ⟨?_, ?_⟩
  · intro node member
    have name : node.name ∈ net.nodes.map Node.name := names ▸ List.mem_map_of_mem member
    obtain ⟨first, present, equal⟩ := List.mem_map.1 name
    exact equal ▸ nameable.inhabited first present
  · rw [claimedNames, names]
    exact nameable.distinct

/-- What an arc amounts to depends on the ids that a net declares and on the number that the inscription
denotes. -/
theorem Connects.reinscribed {other : Net} (places : other.places.keys = net.places.keys)
    (transitions : other.transitions.keys = net.transitions.keys) {arc : Arc}
    {incidence : Incidence} (connects : net.Connects arc incidence) {inscription : String}
    (denotes : Text.Inscribes inscription incidence.weight.toNat) :
    other.Connects { arc with inscription } incidence := by
  cases connects with
  | input source target sourceOnly targetOnly _ positive =>
    rw [← places] at source targetOnly
    rw [← transitions] at target sourceOnly
    exact .input source target sourceOnly targetOnly denotes positive
  | output source target sourceOnly targetOnly _ positive =>
    rw [← places] at target sourceOnly
    rw [← transitions] at source targetOnly
    exact .output source target sourceOnly targetOnly denotes positive

theorem Connects.weightOf {arc : Arc} {incidence : Incidence} (connects : net.Connects arc incidence) :
    weightOf arc.inscription = .ok incidence.weight := by
  cases connects with
  | input _ _ _ _ inscribed positive => exact weightOf_eq_ok_iff.2 ⟨inscribed, positive⟩
  | output _ _ _ _ inscribed positive => exact weightOf_eq_ok_iff.2 ⟨inscribed, positive⟩

theorem Connects.normalForm {arc : Arc} {incidence : Incidence} (connects : net.Connects arc incidence) :
    (net.normalForm artifacts).Connects arc.normalForm incidence := by
  rw [Arc.normalForm, connects.weightOf]
  apply connects.reinscribed keys_places_normalForm keys_transitions_normalForm
  exact ⟨[], _, [], by simp, by simp, by simp, Text.Numeral.denotes_write incidence.weight⟩

end Net

/-- From the normal form of a net, under any spelling of its module's name, the same module is generated
as from the net. -/
theorem generate_normalForm (net : Net) (module other : String) (artifacts : Artifacts)
    (generated : generate net module = .ok artifacts)
    (spelling : Text.lowercaseAscii other.toList = Text.lowercaseAscii module.toList) :
    generate (net.normalForm artifacts) other = .ok artifacts := by
  obtain ⟨name, incidences, named, nameable, resolved, rfl⟩ := generate_eq_ok_iff.1 generated
  have renamed := ModuleName.ofString?_of_lowercase named spelling
  have same : (net.normalForm (.assemble (net.named name) net.marking incidences)).named name =
      net.named name := Net.named_normalForm rfl rfl
  refine generate_eq_ok_iff.2 ⟨name, incidences, renamed, nameable.of_named same, ?_, ?_⟩
  · exact List.forall₂_map_left_iff.2 (resolved.imp fun _ _ => Net.Connects.normalForm)
  · rw [same, Net.marking_normalForm]

theorem generate_normalForm_handover : ∃ artifacts, generate handover "Demo" = .ok artifacts ∧
    (handover.normalForm artifacts).arcs = [⟨"p0", "t0", "2"⟩, ⟨"t0", "p1", "3"⟩] ∧
    generate (handover.normalForm artifacts) "dEMO" = .ok artifacts := by
  obtain ⟨artifacts, generated⟩ := handover_generates
  have arcs : handover.arcs.map Arc.normalForm = [⟨"p0", "t0", "2"⟩, ⟨"t0", "p1", "3"⟩] := by
    decide +kernel
  exact ⟨artifacts, generated, arcs,
    generate_normalForm handover "Demo" "dEMO" artifacts generated (by decide)⟩

end PetriCode
