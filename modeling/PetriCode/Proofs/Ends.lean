import PetriCode.Proofs.Naming.Tables

/-! The names of an arc's ends. An arc is connected by the positions of its ends, and at these positions the
names are gathered that belong to the nodes themselves: no name is skipped and none is filed in the place of
another, so positions and names never come apart. -/
namespace PetriCode

namespace Net
variable {net : Net} {module : ModuleName} {naming : Naming} {gathering : Gathering}

/-- The position of a node is within the names, and what stands there is its label and no constant. -/
theorem Nameable.nameAt_eq (nameable : net.Nameable module) {kind : NodeKind} {position : Nat}
    {label : String} (labelled : (net.labels kind)[position]? = some label) :
    position < ((net.named module).names kind).length ∧
      (net.named module).nameAt kind position = Text.uppercase label ∧
      ∀ other, (net.named module).nameAt kind position ≠ (net.named module).count other := by
  have listed : ((net.named module).names kind)[position]? = some (Text.uppercase label) := by
    rw [names_named_kind, List.getElem?_map, labelled, Option.map_some]
  have same := nameAt_named module labelled
  refine ⟨(List.getElem?_eq_some_iff.1 listed).1, same, ?_⟩
  intro other count
  rw [same] at count
  exact nameable.count_not_mem kind other (count ▸ List.mem_of_getElem? listed)

/-- A place and a transition are those whose ids an arc mentions, and stand where its incidence says. The names
gathered there are theirs, and no count constant has a part in the call that connects the arc. -/
structure Meets (net : Net) (module : String) (gathering : Gathering) (arc : Arc)
    (incidence : Incidence) (place : Place) (transition : Transition) : Prop where
  ends : (arc.source, arc.target) = match incidence.direction with
    | .input => (place.id, transition.id)
    | .output => (transition.id, place.id)
  placed : net.places.entries[incidence.place]? = some place
  listed : net.transitions.entries[incidence.transition]? = some transition
  placeWithin : incidence.place < gathering.places.size
  transitionWithin : incidence.transition < gathering.transitions.size
  placeName : gathering.naming.nameAt .place incidence.place = Text.uppercase place.label
  transitionName :
    gathering.naming.nameAt .transition incidence.transition = Text.uppercase transition.label
  marked : gathering.places.entries[incidence.place]? =
    some (Text.uppercase place.label, place.marking)
  proper : ∀ kind, gathering.naming.nameAt .place incidence.place ≠ countName module kind ∧
    gathering.naming.nameAt .transition incidence.transition ≠ countName module kind
  unaffected : ∀ other : Naming, (∀ kind, other.names kind = gathering.naming.names kind) →
    Emit.arcStatement other incidence = Emit.arcStatement gathering.naming incidence

theorem nameAt_congr {other : Naming} {kind : NodeKind} {position : Nat}
    (bound : position < (naming.names kind).length)
    (same : other.names kind = naming.names kind) :
    other.nameAt kind position = naming.nameAt kind position := by
  rw [Naming.nameAt, Naming.nameAt, same, List.getElem?_eq_getElem bound, Option.getD_some,
    Option.getD_some]

theorem exists_meets {text : String} {arc : Arc} {incidence : Incidence}
    (named : ModuleName.ofString? text = some module)
    (gathered : net.gathering module = .ok gathering) (connects : net.Connects arc incidence) :
    ∃ place transition, net.Meets text gathering arc incidence place transition := by
  obtain ⟨place, transition, placed, listed, ends⟩ := connects.exists_ends
  have holds := Gathering.holds_of_gathering gathered
  obtain ⟨nameable, naming⟩ : net.Nameable module ∧ gathering.naming = net.named module := by
    rw [← naming_eq_ok_iff, Net.naming, gathered]
    rfl
  have placeLabel : (net.labels .place)[incidence.place]? = some place.label := by
    rw [labels, List.getElem?_map, placed, Option.map_some]
  have transitionLabel : (net.labels .transition)[incidence.transition]? = some transition.label := by
    rw [labels, List.getElem?_map, listed, Option.map_some]
  obtain ⟨placeBound, placeName, placeProper⟩ := nameable.nameAt_eq placeLabel
  obtain ⟨transitionBound, transitionName, transitionProper⟩ := nameable.nameAt_eq transitionLabel
  rw [← naming] at placeBound placeName placeProper transitionBound transitionName transitionProper
  have counts (kind : NodeKind) : gathering.naming.count kind = countName text kind := by
    rw [naming, ← count_eq_countName named]
    rfl
  refine ⟨place, transition, ends, placed, listed, ?_, ?_, placeName, transitionName, ?_, ?_, ?_⟩
  · simpa [Gathering.naming, Naming.names, Roster.keys, Roster.size] using placeBound
  · simpa [Gathering.naming, Naming.names, Roster.keys, Roster.size] using transitionBound
  · rw [holds.places.entries, List.getElem?_map, placed]
    rfl
  · intro kind
    rw [← counts]
    exact ⟨placeProper kind, transitionProper kind⟩
  · intro other same
    unfold Emit.arcStatement
    rw [nameAt_congr placeBound (same .place), nameAt_congr transitionBound (same .transition)]

end Net

/-- Every arc of a net has one incidence, in the order of the arcs, and at its positions the names are gathered
that belong to the nodes which the arc mentions. So no position is ever beyond the last name. -/
theorem incidences_named (net : Net) (module : String) (name : ModuleName) (naming : Naming)
    (incidences : List Incidence) (spelled : ModuleName.ofString? module = some name)
    (named : net.naming name = .ok naming) (resolved : net.incidences = .ok incidences) :
    ∃ gathering, net.gathering name = .ok gathering ∧ gathering.naming = naming ∧
      List.Forall₂ (fun arc incidence => ∃ place transition,
        net.Meets module gathering arc incidence place transition) net.arcs incidences := by
  obtain ⟨gathering, gathered, same⟩ := bind_eq_ok_iff.1 named
  refine ⟨gathering, gathered, Except.ok.inj same, ?_⟩
  exact (Net.incidences_eq_ok_iff.1 resolved).imp fun _ _ => Net.exists_meets spelled gathered

theorem incidences_named_handover : ∃ (name : ModuleName) (naming : Naming) (gathering : Gathering),
    ModuleName.ofString? "Demo" = some name ∧ handover.naming name = .ok naming ∧
      handover.incidences = .ok [⟨.input, 0, 0, 2⟩, ⟨.output, 1, 0, 3⟩] ∧
      handover.gathering name = .ok gathering ∧
      gathering.places.entries[1]? = some ("STRASSE", 0) ∧ naming.nameAt .place 1 = "STRASSE" := by
  obtain ⟨artifacts, generated⟩ := handover_generates
  obtain ⟨name, _, spelled, nameable, _, _⟩ := generate_eq_ok_iff.1 generated
  have named : handover.naming name = .ok (handover.named name) := Net.naming_eq_ok_iff.2 ⟨nameable, rfl⟩
  have resolved : handover.incidences = .ok [⟨.input, 0, 0, 2⟩, ⟨.output, 1, 0, 3⟩] := by
    decide +kernel
  obtain ⟨gathering, gathered, same, all⟩ :=
    incidences_named handover "Demo" name _ _ spelled named resolved
  obtain _ | ⟨_, rest⟩ := all
  obtain _ | ⟨⟨place, _, second⟩, _⟩ := rest
  obtain rfl : (⟨"p1", "straße", 0⟩ : Place) = place := Option.some.inj second.placed
  have upper : Text.uppercase "straße" = "STRASSE" := by decide +kernel
  refine ⟨name, _, gathering, spelled, named, resolved, gathered, ?_, ?_⟩
  · rw [← upper]
    exact second.marked
  · rw [← upper, ← same]
    exact second.placeName

end PetriCode
