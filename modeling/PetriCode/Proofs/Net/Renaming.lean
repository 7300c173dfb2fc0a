import Mathlib.Data.Set.Function
import PetriCode.Proofs.Generation

/-! Nets under other ids. Ids only say which node an arc means, so a net whose ids are replaced by
others, different ones by different ones, generates the same module or fails for the same reason. That
must be said of all ids that occur: an arc with an unknown id must not come to mean a node. -/
namespace PetriCode

section Renamed
variable (f : String → String)

def Place.renamed (place : Place) : Place := { place with id := f place.id }

def Transition.renamed (transition : Transition) : Transition :=
  { transition with id := f transition.id }

def Arc.renamed (arc : Arc) : Arc := { arc with source := f arc.source, target := f arc.target }

def Node.renamed (node : Node) : Node := { node with id := f node.id }

def NamingError.renamed : NamingError → NamingError
  | emptyLabel kind id => emptyLabel kind (f id)
  | duplicate name first second => duplicate name first second

def ArcFault.renamed : ArcFault → ArcFault
  | unknownEndpoint id => unknownEndpoint (f id)
  | ambiguousEndpoint id => ambiguousEndpoint (f id)
  | inscription text => inscription text
  | zeroWeight => zeroWeight
  | placeToPlace => placeToPlace
  | transitionToTransition => transitionToTransition

def MalformedArc.renamed (arc : MalformedArc) : MalformedArc :=
  ⟨arc.index, f arc.source, f arc.target, arc.fault.renamed f⟩

/-- The same error with its ids replaced. Labels, names, numbers and texts stay as they are. -/
def GenerateError.renamed : GenerateError → GenerateError
  | invalidModuleName text => invalidModuleName text
  | naming error => naming (error.renamed f)
  | malformedArc arc => malformedArc (arc.renamed f)

end Renamed

namespace Roster
variable {α : Type} {key : α → String}

/-- The entries of a roster under other keys, in the same order. -/
def rekeyed (roster : Roster key) (change : α → α) (f : String → String)
    (keyed : ∀ entry, key (change entry) = f (key entry))
    (apart : Set.InjOn f {k | k ∈ roster.keys}) : Roster key where
  entries := roster.entries.map change
  distinct := by
    have moved : (roster.entries.map change).map key = roster.keys.map f := by
      simp [keys, keyed, Function.comp_def]
    have distinct : roster.keys.Nodup := roster.distinct
    rw [moved, List.nodup_map_iff_inj_on distinct]
    intro first used second again same
    exact apart used again same

/-- In a roster under other keys a key has the position of the key that it replaces, or none as that key
has none. -/
theorem position?_of_keys {roster other : Roster key} {f : String → String}
    (replaced : other.keys = roster.keys.map f) {k : String}
    (told : ∀ used ∈ roster.keys, f used = f k → used = k) :
    other.position? (f k) = roster.position? k := by
  apply Option.ext
  intro position
  rw [position?_eq_some_iff, position?_eq_some_iff, replaced, List.getElem?_map,
    Option.map_eq_some_iff]
  constructor
  · rintro ⟨used, listed, same⟩
    rw [listed, told used (List.mem_of_getElem? listed) same]
  · intro listed
    exact ⟨k, listed, rfl⟩

end Roster

namespace Net

/-- The ids that occur in a net, whether they are declared or not. -/
def ids (net : Net) : Set String :=
  {id | net.HasPlace id ∨ net.HasTransition id ∨
    ∃ arc ∈ net.arcs, id = arc.source ∨ id = arc.target}

/-- A net with its ids replaced and everything else, the orders among it, as it was. -/
def renamed (net : Net) (f : String → String) (apart : Set.InjOn f net.ids) : Net where
  places := net.places.rekeyed (Place.renamed f) f (fun _ => rfl) fun _ first _ second same =>
    apart (.inl first) (.inl second) same
  transitions := net.transitions.rekeyed (Transition.renamed f) f (fun _ => rfl)
    fun _ first _ second same => apart (.inr (.inl first)) (.inr (.inl second)) same
  arcs := net.arcs.map (Arc.renamed f)

variable {net : Net} {f : String → String} (apart : Set.InjOn f net.ids)

theorem keys_places_renamed : (net.renamed f apart).places.keys = net.places.keys.map f := by
  simp only [renamed, Roster.rekeyed, Roster.keys, List.map_map]
  rfl

theorem keys_transitions_renamed :
    (net.renamed f apart).transitions.keys = net.transitions.keys.map f := by
  simp only [renamed, Roster.rekeyed, Roster.keys, List.map_map]
  rfl

theorem endpoint_renamed {id : String} (occurs : id ∈ net.ids) :
    (net.renamed f apart).endpoint (f id) = (net.endpoint id).mapError (ArcFault.renamed f) := by
  have place := Roster.position?_of_keys (keys_places_renamed apart) fun used member same =>
    apart (.inl member) occurs same
  have transition := Roster.position?_of_keys (keys_transitions_renamed apart)
    fun used member same => apart (.inr (.inl member)) occurs same
  unfold endpoint
  rw [place, transition]
  cases net.places.position? id <;> cases net.transitions.position? id <;> rfl

theorem weightOf_mapError (inscription : String) :
    (weightOf inscription).mapError (ArcFault.renamed f) = weightOf inscription := by
  unfold weightOf
  split
  · rfl
  · split <;> rfl

theorem between_mapError (weight : Weight) (source target : Endpoint) :
    (Incidence.between weight source target).mapError (ArcFault.renamed f) =
      Incidence.between weight source target := by
  cases source <;> cases target <;> rfl

theorem incidence_renamed {arc : Arc} (member : arc ∈ net.arcs) :
    (net.renamed f apart).incidence (arc.renamed f) =
      (net.incidence arc).mapError (ArcFault.renamed f) := by
  have source : arc.source ∈ net.ids := .inr (.inr ⟨arc, member, .inl rfl⟩)
  have target : arc.target ∈ net.ids := .inr (.inr ⟨arc, member, .inr rfl⟩)
  unfold incidence
  simp only [mapError_bind, weightOf_mapError, between_mapError, ← endpoint_renamed apart source,
    ← endpoint_renamed apart target]
  rfl

theorem incidences_renamed :
    (net.renamed f apart).incidences = net.incidences.mapError (MalformedArc.renamed f) := by
  unfold incidences
  have arcs : (net.renamed f apart).arcs.zipIdx =
      net.arcs.zipIdx.map (Prod.map (Arc.renamed f) id) := List.zipIdx_map
  rw [arcs]
  apply mapM_map_mapError
  rintro ⟨arc, index⟩ member
  have declared : arc ∈ net.arcs := List.fst_mem_of_mem_zipIdx member
  simp only [Prod.map_apply, id_eq, incidence_renamed apart declared, mapError_mapError]
  rfl

theorem claim_renamed (register : Register) (node : Node) :
    register.claim (node.renamed f) = (register.claim node).mapError (NamingError.renamed f) := by
  have name : (node.renamed f).name = node.name := rfl
  unfold Register.claim
  rw [name]
  by_cases unnamed : node.name = ""
  · simp only [if_pos unnamed]
    rfl
  · simp only [if_neg unnamed]
    cases register.find? (·.name = node.name) <;> rfl

theorem nodes_renamed : (net.renamed f apart).nodes = net.nodes.map (Node.renamed f) := by
  simp only [nodes, renamed, Roster.rekeyed, List.map_append, List.map_map]
  rfl

theorem naming_renamed (module : ModuleName) :
    (net.renamed f apart).naming module = (net.naming module).mapError (NamingError.renamed f) := by
  rw [naming_eq, naming_eq]
  unfold register
  rw [nodes_renamed, foldlM_map_mapError claim_renamed, mapError_bind]
  simp only [named, renamed, Roster.rekeyed, List.map_map]
  rfl

theorem marking_renamed : (net.renamed f apart).marking = net.marking := by
  simp only [marking, renamed, Roster.rekeyed, List.map_map]
  rfl

end Net

/-- Replacing the ids of a net changes nothing of the module that is generated from it, and of the error
if there is none only the ids in it. -/
theorem generate_renamed (net : Net) (module : String) (f : String → String)
    (apart : Set.InjOn f net.ids) :
    generate (net.renamed f apart) module =
      (generate net module).mapError (GenerateError.renamed f) := by
  unfold generate
  cases ModuleName.ofString? module with
  | none => rfl
  | some name =>
    simp only [mapError_bind, mapError_mapError, Net.naming_renamed, Net.incidences_renamed,
      Net.marking_renamed]
    rfl

/-- A net in which a place and a transition have the same id, and an arc leads to it. -/
def crossing : Net where
  places := ⟨[⟨"p", "idle", 1⟩, ⟨"x", "busy", 0⟩], by decide⟩
  transitions := ⟨[⟨"t", "start"⟩, ⟨"x", "stop"⟩], by decide⟩
  arcs := [⟨"p", "t", "1"⟩, ⟨"t", "x", "1"⟩, ⟨"t", "nowhere", "1"⟩]

theorem generate_renamed_crossing :
    ∃ apart : Set.InjOn ("node " ++ ·) crossing.ids,
      generate (crossing.renamed ("node " ++ ·) apart) "Demo" =
        .error (.malformedArc ⟨1, "node t", "node x", .ambiguousEndpoint "node x"⟩) := by
  have apart : Set.InjOn ("node " ++ ·) crossing.ids := by
    intro first _ second _ same
    exact (String.append_right_inj _).1 same
  have failed : generate crossing "Demo" =
      .error (.malformedArc ⟨1, "t", "x", .ambiguousEndpoint "x"⟩) := by decide +kernel
  refine ⟨apart, ?_⟩
  rw [generate_renamed crossing "Demo" _ apart, failed]
  rfl

end PetriCode
