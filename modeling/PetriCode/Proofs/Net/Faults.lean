import PetriCode.Proofs.Net.Connection

/-! What is wrong with an arc. An arc that amounts to nothing has one fault, the first one in the order in which
an arc is looked at, and of the arcs of a net the first one with a fault is the one that is told. -/
namespace PetriCode

/-- The inscription of an arc denotes a positive number of 32 bits. -/
def Arc.Weighted (arc : Arc) : Prop :=
  ∃ value, Text.Inscribes arc.inscription value ∧ 1 ≤ value ∧ value ≤ 4294967295

namespace Net
variable {net : Net} {arc : Arc}

/-- Why an id is no end of an arc. -/
inductive Misses (net : Net) (id : String) : ArcFault → Prop
  | unknown (place : ¬ net.HasPlace id) (transition : ¬ net.HasTransition id) :
    Misses net id (.unknownEndpoint id)
  | ambiguous (place : net.HasPlace id) (transition : net.HasTransition id) :
    Misses net id (.ambiguousEndpoint id)

theorem misses_iff {id : String} {fault : ArcFault} : net.Misses id fault ↔
    (fault = .unknownEndpoint id ∧ ¬ net.HasPlace id ∧ ¬ net.HasTransition id) ∨
      fault = .ambiguousEndpoint id ∧ net.HasPlace id ∧ net.HasTransition id := by
  constructor
  · rintro (⟨place, transition⟩ | ⟨place, transition⟩)
    · exact .inl ⟨rfl, place, transition⟩
    · exact .inr ⟨rfl, place, transition⟩
  · rintro (⟨rfl, place, transition⟩ | ⟨rfl, place, transition⟩)
    · exact .unknown place transition
    · exact .ambiguous place transition

/-- What is wrong with an arc, in the order in which it is looked at: whatever stands before has to be
right. -/
inductive Faults (net : Net) (arc : Arc) : ArcFault → Prop
  | inscription (numberless : ∀ value ≤ 4294967295, ¬ Text.Inscribes arc.inscription value) :
    Faults net arc (.inscription arc.inscription)
  | zeroWeight (zero : Text.Inscribes arc.inscription 0) : Faults net arc .zeroWeight
  | source {fault : ArcFault} (weighted : arc.Weighted) (misses : net.Misses arc.source fault) :
    Faults net arc fault
  | target {fault : ArcFault} (weighted : arc.Weighted)
    (source : Xor (net.HasPlace arc.source) (net.HasTransition arc.source))
    (misses : net.Misses arc.target fault) : Faults net arc fault
  | placeToPlace (weighted : arc.Weighted)
    (source : net.HasPlace arc.source ∧ ¬ net.HasTransition arc.source)
    (target : net.HasPlace arc.target ∧ ¬ net.HasTransition arc.target) :
    Faults net arc .placeToPlace
  | transitionToTransition (weighted : arc.Weighted)
    (source : net.HasTransition arc.source ∧ ¬ net.HasPlace arc.source)
    (target : net.HasTransition arc.target ∧ ¬ net.HasPlace arc.target) :
    Faults net arc .transitionToTransition

theorem exists_weight_iff : (∃ weight, weightOf arc.inscription = .ok weight) ↔ arc.Weighted := by
  simp only [weightOf_eq_ok_iff, Text.exists_inscribed_iff, Arc.Weighted]

section Endpoints
variable {id : String} {fault : ArcFault}

theorem exists_endpoint_place_iff : (∃ position, net.endpoint id = .ok (.place position)) ↔
    net.HasPlace id ∧ ¬ net.HasTransition id := by
  simp only [endpoint_eq_ok_iff, exists_and_right, ← List.mem_iff_getElem?]
  rfl

theorem exists_endpoint_transition_iff :
    (∃ position, net.endpoint id = .ok (.transition position)) ↔
      net.HasTransition id ∧ ¬ net.HasPlace id := by
  simp only [endpoint_eq_ok_iff, exists_and_right, ← List.mem_iff_getElem?]
  rfl

theorem exists_endpoint_iff : (∃ endpoint, net.endpoint id = .ok endpoint) ↔
    Xor (net.HasPlace id) (net.HasTransition id) := by
  rw [Xor, ← exists_endpoint_place_iff, ← exists_endpoint_transition_iff]
  constructor
  · rintro ⟨position | position, found⟩
    · exact .inl ⟨position, found⟩
    · exact .inr ⟨position, found⟩
  · rintro (⟨position, found⟩ | ⟨position, found⟩)
    · exact ⟨_, found⟩
    · exact ⟨_, found⟩

theorem endpoint_eq_error_iff : net.endpoint id = .error fault ↔ net.Misses id fault := by
  have place : net.places.position? id = none ↔ ¬ net.HasPlace id :=
    net.places.position?_eq_none_iff
  have transition : net.transitions.position? id = none ↔ ¬ net.HasTransition id :=
    net.transitions.position?_eq_none_iff
  rw [misses_iff, ← not_not (a := net.HasPlace id), ← not_not (a := net.HasTransition id), ← place,
    ← transition]
  unfold endpoint
  cases net.places.position? id <;> cases net.transitions.position? id <;> simp [eq_comm]

end Endpoints

/-- Resolving an arc fails exactly with its fault. -/
theorem incidence_eq_error_iff {fault : ArcFault} :
    net.incidence arc = .error fault ↔ net.Faults arc fault := by
  unfold Net.incidence
  simp only [bind_eq_error_iff, weightOf_eq_error_iff, endpoint_eq_error_iff]
  constructor
  · rintro ((⟨rfl, zero⟩ | ⟨rfl, numberless⟩) | ⟨weight, weighed, outcome⟩)
    · exact .zeroWeight zero
    · exact .inscription numberless
    · have weighted := exists_weight_iff.1 ⟨weight, weighed⟩
      obtain misses | ⟨source, sourceFound, misses | ⟨target, targetFound, same⟩⟩ := outcome
      · exact .source weighted misses
      · exact .target weighted (exists_endpoint_iff.1 ⟨source, sourceFound⟩) misses
      · cases source with
        | place place =>
          cases target with
          | transition transition => cases same
          | place other =>
            cases same
            exact .placeToPlace weighted (exists_endpoint_place_iff.1 ⟨place, sourceFound⟩)
              (exists_endpoint_place_iff.1 ⟨other, targetFound⟩)
        | transition transition =>
          cases target with
          | place place => cases same
          | transition other =>
            cases same
            exact .transitionToTransition weighted
              (exists_endpoint_transition_iff.1 ⟨transition, sourceFound⟩)
              (exists_endpoint_transition_iff.1 ⟨other, targetFound⟩)
  · intro faults
    cases faults with
    | inscription numberless => exact .inl (.inr ⟨rfl, numberless⟩)
    | zeroWeight zero => exact .inl (.inl ⟨rfl, zero⟩)
    | source weighted misses =>
      obtain ⟨weight, weighed⟩ := exists_weight_iff.2 weighted
      exact .inr ⟨weight, weighed, .inl misses⟩
    | target weighted source misses =>
      obtain ⟨weight, weighed⟩ := exists_weight_iff.2 weighted
      obtain ⟨endpoint, found⟩ := exists_endpoint_iff.2 source
      exact .inr ⟨weight, weighed, .inr ⟨endpoint, found, .inl misses⟩⟩
    | placeToPlace weighted source target =>
      obtain ⟨weight, weighed⟩ := exists_weight_iff.2 weighted
      obtain ⟨place, sourceFound⟩ := exists_endpoint_place_iff.2 source
      obtain ⟨other, targetFound⟩ := exists_endpoint_place_iff.2 target
      exact .inr ⟨weight, weighed, .inr ⟨_, sourceFound, .inr ⟨_, targetFound, rfl⟩⟩⟩
    | transitionToTransition weighted source target =>
      obtain ⟨weight, weighed⟩ := exists_weight_iff.2 weighted
      obtain ⟨transition, sourceFound⟩ := exists_endpoint_transition_iff.2 source
      obtain ⟨other, targetFound⟩ := exists_endpoint_transition_iff.2 target
      exact .inr ⟨weight, weighed, .inr ⟨_, sourceFound, .inr ⟨_, targetFound, rfl⟩⟩⟩

/-- A faulty arc is none that amounts to something. -/
theorem Faults.not_wellFormedArc {fault : ArcFault} (faults : net.Faults arc fault) :
    ¬ net.WellFormedArc arc := by
  intro wellFormed
  obtain ⟨incidence, connects⟩ := exists_connects_iff.2 wellFormed
  have resolved := incidence_eq_ok_iff.2 connects
  rw [incidence_eq_error_iff.2 faults] at resolved
  cases resolved

/-- Resolving the arcs fails with the fault of the first arc that is not well formed. -/
theorem incidences_eq_error_iff {malformed : MalformedArc} :
    net.incidences = .error malformed ↔ ∃ (index : Nat) (arc : Arc) (fault : ArcFault),
      net.arcs[index]? = some arc ∧ net.Faults arc fault ∧
        (∀ earlier < index, ∀ before, net.arcs[earlier]? = some before → net.WellFormedArc before) ∧
        malformed = ⟨index, arc.source, arc.target, fault⟩ := by
  have numbered {index : Nat} {item : Arc × Nat} : net.arcs.zipIdx[index]? = some item ↔
      ∃ arc, net.arcs[index]? = some arc ∧ item = (arc, index) := by
    rw [List.getElem?_zipIdx, Option.map_eq_some_iff, Nat.zero_add]
    simp only [eq_comm]
  unfold Net.incidences
  simp only [mapM_eq_error_iff, numbered, mapError_eq_error_iff, mapError_eq_ok_iff,
    incidence_eq_error_iff, incidence_eq_ok_iff, exists_connects_iff]
  constructor
  · rintro ⟨index, _, ⟨arc, listed, rfl⟩, ⟨fault, faults, rfl⟩, earlier⟩
    refine ⟨index, arc, fault, listed, faults, ?_, rfl⟩
    intro position inside before stood
    exact earlier position inside _ ⟨before, stood, rfl⟩
  · rintro ⟨index, arc, fault, listed, faults, earlier, rfl⟩
    refine ⟨index, _, ⟨arc, listed, rfl⟩, ⟨fault, faults, rfl⟩, ?_⟩
    rintro position inside _ ⟨before, stood, rfl⟩
    exact earlier position inside before stood

end Net
end PetriCode
