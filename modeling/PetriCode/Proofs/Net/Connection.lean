import PetriCode.Proofs.Net.Roster
import PetriCode.Proofs.Text.Integer

/-! What the arcs of a net amount to, said by the ids alone: an arc connects the place and the
transition that its two ends name, in the direction of its source, with the number that its
inscription denotes. The arcs are resolved exactly when each of them is well formed, and then each
becomes the one connection that it amounts to, in their order. -/
namespace PetriCode

namespace Net

/-- An arc of a net amounts to a connection between a place and a transition. Neither of its ids is
used for a node of the other kind. -/
inductive Connects (net : Net) (arc : Arc) : Incidence → Prop
  | input {place transition : Nat} {weight : Weight}
    (source : net.places.keys[place]? = some arc.source)
    (target : net.transitions.keys[transition]? = some arc.target)
    (sourceOnly : arc.source ∉ net.transitions.keys) (targetOnly : arc.target ∉ net.places.keys)
    (inscribed : Text.Inscribes arc.inscription weight.toNat) (positive : 0 < weight.toNat) :
    Connects net arc ⟨.input, place, transition, weight⟩
  | output {place transition : Nat} {weight : Weight}
    (source : net.transitions.keys[transition]? = some arc.source)
    (target : net.places.keys[place]? = some arc.target)
    (sourceOnly : arc.source ∉ net.places.keys) (targetOnly : arc.target ∉ net.transitions.keys)
    (inscribed : Text.Inscribes arc.inscription weight.toNat) (positive : 0 < weight.toNat) :
    Connects net arc ⟨.output, place, transition, weight⟩

/-- An id is resolved to the position that it has among the nodes of one kind if it is none of the other. -/
theorem endpoint_eq_ok_iff {net : Net} {id : String} {endpoint : Endpoint} :
    net.endpoint id = .ok endpoint ↔ match endpoint with
      | .place position => net.places.keys[position]? = some id ∧ id ∉ net.transitions.keys
      | .transition position => net.transitions.keys[position]? = some id ∧ id ∉ net.places.keys := by
  simp only [← Roster.position?_eq_some_iff, ← Roster.position?_eq_none_iff]
  unfold Net.endpoint
  cases endpoint <;> cases net.places.position? id <;> cases net.transitions.position? id <;> simp

/-- An arc is resolved to a connection exactly when it amounts to it. -/
theorem incidence_eq_ok_iff {net : Net} {arc : Arc} {incidence : Incidence} :
    net.incidence arc = .ok incidence ↔ net.Connects arc incidence := by
  unfold Net.incidence
  simp only [bind_eq_ok_iff, weightOf_eq_ok_iff]
  constructor
  · rintro ⟨weight, ⟨inscribed, positive⟩, source, sourceFound, target, targetFound, joined⟩
    cases source with
    | place place =>
      obtain ⟨sourceKey, sourceOnly⟩ := endpoint_eq_ok_iff.1 sourceFound
      cases target with
      | place other => cases joined
      | transition transition =>
        obtain ⟨targetKey, targetOnly⟩ := endpoint_eq_ok_iff.1 targetFound
        cases joined
        exact .input sourceKey targetKey sourceOnly targetOnly inscribed positive
    | transition transition =>
      obtain ⟨sourceKey, sourceOnly⟩ := endpoint_eq_ok_iff.1 sourceFound
      cases target with
      | transition other => cases joined
      | place place =>
        obtain ⟨targetKey, targetOnly⟩ := endpoint_eq_ok_iff.1 targetFound
        cases joined
        exact .output sourceKey targetKey sourceOnly targetOnly inscribed positive
  · rintro (⟨source, target, sourceOnly, targetOnly, inscribed, positive⟩ |
      ⟨source, target, sourceOnly, targetOnly, inscribed, positive⟩)
    · exact ⟨_, ⟨inscribed, positive⟩, .place _, endpoint_eq_ok_iff.2 ⟨source, sourceOnly⟩,
        .transition _, endpoint_eq_ok_iff.2 ⟨target, targetOnly⟩, rfl⟩
    · exact ⟨_, ⟨inscribed, positive⟩, .transition _, endpoint_eq_ok_iff.2 ⟨source, sourceOnly⟩,
        .place _, endpoint_eq_ok_iff.2 ⟨target, targetOnly⟩, rfl⟩

/-- The nodes that a connection is between are those whose ids the arc mentions. -/
theorem Connects.exists_ends {net : Net} {arc : Arc} {incidence : Incidence}
    (connects : net.Connects arc incidence) :
    ∃ place transition, net.places.entries[incidence.place]? = some place ∧
      net.transitions.entries[incidence.transition]? = some transition ∧
      (arc.source, arc.target) = match incidence.direction with
        | .input => (place.id, transition.id)
        | .output => (transition.id, place.id) := by
  cases connects with
  | input source target =>
    obtain ⟨place, placed, placeId⟩ := Roster.exists_entry source
    obtain ⟨transition, listed, transitionId⟩ := Roster.exists_entry target
    exact ⟨place, transition, placed, listed, by rw [placeId, transitionId]⟩
  | output source target =>
    obtain ⟨place, placed, placeId⟩ := Roster.exists_entry target
    obtain ⟨transition, listed, transitionId⟩ := Roster.exists_entry source
    exact ⟨place, transition, placed, listed, by rw [placeId, transitionId]⟩

theorem incidences_eq_ok_iff {net : Net} {incidences : List Incidence} :
    net.incidences = .ok incidences ↔ List.Forall₂ net.Connects net.arcs incidences := by
  unfold Net.incidences
  simp only [mapM_eq_ok_iff, mapError_eq_ok_iff, incidence_eq_ok_iff]
  conv_rhs => rw [← List.zipIdx_map_fst 0 net.arcs, List.forall₂_map_left_iff]

def HasPlace (net : Net) (id : String) : Prop := id ∈ net.places.keys

def HasTransition (net : Net) (id : String) : Prop := id ∈ net.transitions.keys

/-- An arc that amounts to something: its inscription denotes a positive number of 32 bits, each of
its ends is a node of one kind only, and one of them is a place and the other is none. -/
structure WellFormedArc (net : Net) (arc : Arc) : Prop where
  inscription : ∃ value, Text.Inscribes arc.inscription value ∧ 1 ≤ value ∧ value ≤ 4294967295
  source : Xor (net.HasPlace arc.source) (net.HasTransition arc.source)
  target : Xor (net.HasPlace arc.target) (net.HasTransition arc.target)
  ends : Xor (net.HasPlace arc.source) (net.HasPlace arc.target)

theorem exists_connects_iff {net : Net} {arc : Arc} :
    (∃ incidence, net.Connects arc incidence) ↔ net.WellFormedArc arc := by
  constructor
  · rintro ⟨_, ⟨source, target, sourceOnly, targetOnly, inscribed, positive⟩ |
      ⟨source, target, sourceOnly, targetOnly, inscribed, positive⟩⟩
    · have sourcePlace : net.HasPlace arc.source := List.mem_of_getElem? source
      have targetTransition : net.HasTransition arc.target := List.mem_of_getElem? target
      exact ⟨Text.exists_inscribed_iff.1 ⟨_, inscribed, positive⟩, .inl ⟨sourcePlace, sourceOnly⟩,
        .inr ⟨targetTransition, targetOnly⟩, .inl ⟨sourcePlace, targetOnly⟩⟩
    · have sourceTransition : net.HasTransition arc.source := List.mem_of_getElem? source
      have targetPlace : net.HasPlace arc.target := List.mem_of_getElem? target
      exact ⟨Text.exists_inscribed_iff.1 ⟨_, inscribed, positive⟩, .inr ⟨sourceTransition, sourceOnly⟩,
        .inl ⟨targetPlace, targetOnly⟩, .inr ⟨targetPlace, sourceOnly⟩⟩
  · rintro ⟨inscription, source, target, ends⟩
    obtain ⟨weight, inscribed, positive⟩ := Text.exists_inscribed_iff.2 inscription
    obtain ⟨sourcePlace, targetOther⟩ | ⟨targetPlace, sourceOther⟩ := ends
    · have targetTransition : net.HasTransition arc.target :=
        (target.resolve_left fun both => targetOther both.1).1
      have sourceOnly := (source.resolve_right fun both => both.2 sourcePlace).2
      obtain ⟨place, sourceKey⟩ := List.mem_iff_getElem?.1 sourcePlace
      obtain ⟨transition, targetKey⟩ := List.mem_iff_getElem?.1 targetTransition
      exact ⟨_, .input sourceKey targetKey sourceOnly targetOther inscribed positive⟩
    · have sourceTransition : net.HasTransition arc.source :=
        (source.resolve_left fun both => sourceOther both.1).1
      have targetOnly := (target.resolve_right fun both => both.2 targetPlace).2
      obtain ⟨transition, sourceKey⟩ := List.mem_iff_getElem?.1 sourceTransition
      obtain ⟨place, targetKey⟩ := List.mem_iff_getElem?.1 targetPlace
      exact ⟨_, .output sourceKey targetKey sourceOther targetOnly inscribed positive⟩

theorem exists_connections_iff {net : Net} :
    (∃ incidences, List.Forall₂ net.Connects net.arcs incidences) ↔
      ∀ arc ∈ net.arcs, net.WellFormedArc arc := by
  rw [exists_forall₂_iff]
  simp only [exists_connects_iff]

end Net
end PetriCode
