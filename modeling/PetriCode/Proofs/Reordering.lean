import Mathlib.Data.List.Perm.Basic
import Mathlib.Data.List.OfFn
import Mathlib.Logic.Equiv.Basic
import PetriCode.Proofs.Emit.Layout
import PetriCode.Proofs.Naming.Tables

/-! Nets declared in another order. The order in which places and transitions are declared numbers them and
does nothing else: an arc is connected by the names that its ends have, and a place is marked with
what it holds, wherever they stand. The order of the arcs is the order of the calls that connect
them. -/
namespace PetriCode
open C

namespace Net

/-- The call that connects an arc, told by the entries that its ends name. -/
inductive Calls (net : Net) (arc : Arc) : String → Prop
  | input {place : Place} {transition : Transition} {weight : Weight}
    (source : place ∈ net.places.entries) (named : place.id = arc.source)
    (target : transition ∈ net.transitions.entries) (targetNamed : transition.id = arc.target)
    (inscribed : Text.Inscribes arc.inscription weight.toNat) :
    Calls net arc ("petri_conf_input(net, " ++ Text.uppercase place.label ++ ", " ++
      Text.uppercase transition.label ++ ", " ++ Text.Numeral.write weight ++ ");")
  | output {place : Place} {transition : Transition} {weight : Weight}
    (source : transition ∈ net.transitions.entries) (named : transition.id = arc.source)
    (target : place ∈ net.places.entries) (targetNamed : place.id = arc.target)
    (inscribed : Text.Inscribes arc.inscription weight.toNat) :
    Calls net arc ("petri_conf_output(net, " ++ Text.uppercase transition.label ++ ", " ++
      Text.uppercase place.label ++ ", " ++ Text.Numeral.write weight ++ ");")

section Calls
variable {net : Net} {arc : Arc} {module : ModuleName}

theorem Connects.calls {incidence : Incidence} (connects : net.Connects arc incidence) :
    net.Calls arc (Emit.arcCall (net.named module) incidence) := by
  obtain ⟨place, transition, placed, listed, ends⟩ := connects.exists_ends
  have placeName : (net.named module).nameAt .place incidence.place = Text.uppercase place.label :=
    nameAt_named module (by rw [labels, List.getElem?_map, placed, Option.map_some])
  have transitionName : (net.named module).nameAt .transition incidence.transition =
      Text.uppercase transition.label :=
    nameAt_named module (by rw [labels, List.getElem?_map, listed, Option.map_some])
  cases connects with
  | input _ _ _ _ inscribed _ =>
    obtain ⟨source, target⟩ := Prod.mk.inj ends
    simp only [Emit.arcCall, placeName, transitionName]
    exact .input (List.mem_of_getElem? placed) source.symm (List.mem_of_getElem? listed) target.symm
      inscribed
  | output _ _ _ _ inscribed _ =>
    obtain ⟨source, target⟩ := Prod.mk.inj ends
    simp only [Emit.arcCall, placeName, transitionName]
    exact .output (List.mem_of_getElem? listed) source.symm (List.mem_of_getElem? placed) target.symm
      inscribed

theorem calls_of_connections (module : ModuleName) {incidences : List Incidence}
    (resolved : List.Forall₂ net.Connects net.arcs incidences) :
    List.Forall₂ net.Calls net.arcs (incidences.map (Emit.arcCall (net.named module))) :=
  List.forall₂_map_right_iff.2 (resolved.imp fun _ _ => Connects.calls)

theorem hasPlace_iff {id : String} :
    net.HasPlace id ↔ ∃ place ∈ net.places.entries, place.id = id := List.mem_map

theorem hasTransition_iff {id : String} :
    net.HasTransition id ↔ ∃ transition ∈ net.transitions.entries, transition.id = id :=
  List.mem_map

/-- An arc that is well formed is connected by one call only. -/
theorem Calls.unique {first second : String} (wellFormed : net.WellFormedArc arc)
    (one : net.Calls arc first) (other : net.Calls arc second) : first = second := by
  have apart : ¬ (net.HasPlace arc.source ∧ net.HasTransition arc.source) := by
    rintro ⟨place, transition⟩
    obtain ⟨_, neither⟩ | ⟨_, neither⟩ := wellFormed.source
    · exact neither transition
    · exact neither place
  cases one with
  | @input place transition weight source named target targetNamed inscribed =>
    cases other with
    | @input p t w source' named' target' targetNamed' inscribed' =>
      obtain rfl := net.places.eq_of_key source source' (named.trans named'.symm)
      obtain rfl := net.transitions.eq_of_key target target' (targetNamed.trans targetNamed'.symm)
      obtain rfl := UInt32.toNat_inj.1 (inscribed.unique inscribed')
      rfl
    | output source' named' =>
      exact absurd ⟨hasPlace_iff.2 ⟨_, source, named⟩, hasTransition_iff.2 ⟨_, source', named'⟩⟩ apart
  | @output place transition weight source named target targetNamed inscribed =>
    cases other with
    | input source' named' =>
      exact absurd ⟨hasPlace_iff.2 ⟨_, source', named'⟩, hasTransition_iff.2 ⟨_, source, named⟩⟩ apart
    | @output p t w source' named' target' targetNamed' inscribed' =>
      obtain rfl := net.transitions.eq_of_key source source' (named.trans named'.symm)
      obtain rfl := net.places.eq_of_key target target' (targetNamed.trans targetNamed'.symm)
      obtain rfl := UInt32.toNat_inj.1 (inscribed.unique inscribed')
      rfl

end Calls

/-- The same places and the same transitions, each declared in any order. -/
structure Reorders (other net : Net) : Prop where
  places : other.places.entries.Perm net.places.entries
  transitions : other.transitions.entries.Perm net.transitions.entries

namespace Reorders
variable {net other : Net} (reorders : other.Reorders net)
include reorders

theorem hasPlace_iff {id : String} : other.HasPlace id ↔ net.HasPlace id :=
  (reorders.places.map Place.id).mem_iff

theorem hasTransition_iff {id : String} : other.HasTransition id ↔ net.HasTransition id :=
  (reorders.transitions.map Transition.id).mem_iff

theorem wellFormedArc_iff {arc : Arc} : other.WellFormedArc arc ↔ net.WellFormedArc arc := by
  constructor
  · rintro ⟨inscription, source, target, ends⟩
    simp only [reorders.hasPlace_iff, reorders.hasTransition_iff] at source target ends
    exact ⟨inscription, source, target, ends⟩
  · rintro ⟨inscription, source, target, ends⟩
    simp only [← reorders.hasPlace_iff, ← reorders.hasTransition_iff] at source target ends
    exact ⟨inscription, source, target, ends⟩

theorem calls {arc : Arc} {call : String} (calls : other.Calls arc call) : net.Calls arc call := by
  cases calls with
  | input source named target targetNamed inscribed =>
    exact .input (reorders.places.mem_iff.1 source) named
      (reorders.transitions.mem_iff.1 target) targetNamed inscribed
  | output source named target targetNamed inscribed =>
    exact .output (reorders.transitions.mem_iff.1 source) named
      (reorders.places.mem_iff.1 target) targetNamed inscribed

theorem nodes : other.nodes.Perm net.nodes :=
  (reorders.places.map Place.node).append (reorders.transitions.map Transition.node)

theorem nameable {module : ModuleName} (nameable : net.Nameable module) : other.Nameable module where
  inhabited := fun node member => nameable.inhabited node (reorders.nodes.mem_iff.1 member)
  distinct := by
    have claimed : (other.claimedNames module).Perm (net.claimedNames module) :=
      (reorders.nodes.map Node.name).append_left _
    exact claimed.nodup_iff.2 nameable.distinct

theorem names (module : ModuleName) (kind : NodeKind) :
    ((other.named module).names kind).Perm ((net.named module).names kind) := by
  cases kind with
  | place => exact reorders.places.map _
  | transition => exact reorders.transitions.map _

end Reorders

/-- The same arc is connected by the same call. -/
theorem Reorders.call_eq {net other : Net} (reorders : other.Reorders net) {calls others : List String}
    (connected : List.Forall₂ net.Calls net.arcs calls)
    (reconnected : List.Forall₂ other.Calls other.arcs others) {arc : Arc}
    (wellFormed : net.WellFormedArc arc) {position index : Nat}
    (there : other.arcs[position]? = some arc) (here : net.arcs[index]? = some arc) :
    others[position]? = calls[index]? := by
  obtain ⟨call, listed, connects⟩ := exists_of_forall₂ connected here
  obtain ⟨again, relisted, reconnects⟩ := exists_of_forall₂ reconnected there
  rw [listed, relisted, connects.unique wellFormed (reorders.calls reconnects)]

/-- The marking has what a place holds where the table has its name. -/
theorem marking_indexOf {net : Net} {module : ModuleName} (nameable : net.Nameable module)
    {place : Place} (declared : place ∈ net.places.entries) :
    net.marking[((net.named module).table .place).indexOf (some place.node.name)]? =
      some place.marking := by
  obtain ⟨position, listed⟩ := List.mem_iff_getElem?.1 declared
  have found : ((net.named module).table .place).nameOf position = some place.node.name := by
    simp [NameTable.nameOf, Naming.table, Naming.names, named, listed]
  rw [NameTable.indexOf_nameOf (nameable.sound .place) found, marking, List.getElem?_map, listed,
    Option.map_some]

end Net

/-- An implementation, by its lines: the names in it, the marking that it sets, and the calls by which it
connects. -/
def Artifacts.Builds (artifacts : Artifacts) (naming : Naming) (marking : List Weight)
    (calls : List String) : Prop :=
  artifacts.implementation.toList =
    laid (Emit.openingLines naming ++ Emit.markingLines naming marking ++
      Emit.connectingLines calls ++ Emit.closingLines naming)

/-- A module of a net and one of the same net declared in another order, with its arcs in the given order.
The calls are in the order of the arcs, and places and transitions differ in their numbers alone. -/
structure Net.Renumbers (net other : Net) (order : Fin net.arcs.length → Fin net.arcs.length)
    (name : ModuleName) (artifacts again : Artifacts) (calls others : List String) : Prop where
  builds : artifacts.Builds (net.named name) net.marking calls
  rebuilds : again.Builds (other.named name) other.marking others
  connected : List.Forall₂ net.Calls net.arcs calls
  length : others.length = net.arcs.length
  ordered : ∀ position : Fin net.arcs.length, others[position.val]? = calls[(order position).val]?
  same : other.arcs = net.arcs → others = calls
  names : ∀ kind, (again.table kind).names.Perm (artifacts.table kind).names
  marking : ∀ text ∈ artifacts.places.names, ∃ weight,
    net.marking[artifacts.places.indexOf (some text)]? = some weight ∧
      other.marking[again.places.indexOf (some text)]? = some weight

theorem Net.renumbers {net other : Net} {name : ModuleName} {incidences others : List Incidence}
    (reorders : other.Reorders net) {order : Fin net.arcs.length → Fin net.arcs.length}
    (arcs : other.arcs = List.ofFn fun position => net.arcs[order position])
    (nameable : net.Nameable name) (resolved : List.Forall₂ net.Connects net.arcs incidences)
    (reresolved : List.Forall₂ other.Connects other.arcs others) :
    net.Renumbers other order name (.assemble (net.named name) net.marking incidences)
      (.assemble (other.named name) other.marking others)
      (incidences.map (Emit.arcCall (net.named name)))
      (others.map (Emit.arcCall (other.named name))) := by
  have wellFormed := Net.exists_connections_iff.1 ⟨incidences, resolved⟩
  have connected := Net.calls_of_connections name resolved
  have reconnected := Net.calls_of_connections name reresolved
  have length : (others.map (Emit.arcCall (other.named name))).length = net.arcs.length := by
    rw [← reconnected.length_eq, arcs, List.length_ofFn]
  refine ⟨Emit.toList_implementation _ _ _, Emit.toList_implementation _ _ _, connected, length,
    ?_, ?_, ?_, ?_⟩
  · intro position
    refine reorders.call_eq connected reconnected (wellFormed _ (List.getElem_mem _)) ?_
      (List.getElem?_eq_getElem (order position).isLt)
    simp [arcs]
  · intro same
    apply List.ext_getElem?
    intro position
    cases listed : net.arcs[position]? with
    | some arc =>
      exact reorders.call_eq connected reconnected (wellFormed arc (List.mem_of_getElem? listed))
        (same ▸ listed) listed
    | none =>
      have beyond := List.getElem?_eq_none_iff.1 listed
      rw [List.getElem?_eq_none (length ▸ beyond),
        List.getElem?_eq_none (connected.length_eq ▸ beyond)]
  · intro kind
    rw [Artifacts.table_assemble, Artifacts.table_assemble]
    exact reorders.names name kind
  · intro text member
    obtain ⟨place, declared, rfl⟩ := List.mem_map.1 member
    exact ⟨place.marking, Net.marking_indexOf nameable declared,
      Net.marking_indexOf (reorders.nameable nameable) (reorders.places.mem_iff.2 declared)⟩

/-- From a net whose places, transitions and arcs are declared in another order, a module is generated if one
is generated from the net. -/
theorem generate_reordered (net other : Net) (module : String) (artifacts : Artifacts)
    (generated : generate net module = .ok artifacts) (reorders : other.Reorders net)
    (order : Equiv.Perm (Fin net.arcs.length))
    (arcs : other.arcs = List.ofFn fun position => net.arcs[order position]) :
    ∃ name again calls others, ModuleName.ofString? module = some name ∧
      generate other module = .ok again ∧
      net.Renumbers other order name artifacts again calls others := by
  obtain ⟨name, incidences, named, nameable, resolved, rfl⟩ := generate_eq_ok_iff.1 generated
  have wellFormed := Net.exists_connections_iff.1 ⟨incidences, resolved⟩
  obtain ⟨others, reresolved⟩ : ∃ others, List.Forall₂ other.Connects other.arcs others := by
    rw [Net.exists_connections_iff]
    intro arc member
    rw [arcs, List.mem_ofFn] at member
    obtain ⟨position, rfl⟩ := member
    exact reorders.wellFormedArc_iff.2 (wellFormed _ (List.getElem_mem _))
  have regenerated : generate other module =
      .ok (.assemble (other.named name) other.marking others) :=
    generate_eq_ok_iff.2 ⟨name, others, named, reorders.nameable nameable, reresolved, rfl⟩
  exact ⟨name, _, _, _, named, regenerated, Net.renumbers reorders arcs nameable resolved reresolved⟩

/-- The same net with its places and its arcs declared in the opposite order. -/
def handoverReversed : Net where
  places := ⟨[⟨"p1", "straße", 0⟩, ⟨"p0", "idle", 1⟩], by decide⟩
  transitions := handover.transitions
  arcs := [⟨"t0", "p1", "+3"⟩, ⟨"p0", "t0", " 2 "⟩]

theorem generate_reordered_handover : ∃ artifacts again name calls others,
    generate handover "Demo" = .ok artifacts ∧ generate handoverReversed "Demo" = .ok again ∧
      handoverReversed.Reorders handover ∧
      handover.Renumbers handoverReversed (Equiv.swap 0 1 : Equiv.Perm (Fin 2)) name artifacts again
        calls others ∧
      others[0]? = calls[1]? := by
  obtain ⟨artifacts, generated⟩ := handover_generates
  have reorders : handoverReversed.Reorders handover := ⟨List.Perm.swap _ _ _, List.Perm.refl _⟩
  obtain ⟨name, again, calls, others, _, regenerated, renumbers⟩ :=
    generate_reordered handover handoverReversed "Demo" artifacts generated reorders
      (Equiv.swap 0 1 : Equiv.Perm (Fin 2)) (by decide)
  exact ⟨artifacts, again, name, calls, others, generated, regenerated, reorders, renumbers,
    renumbers.ordered ⟨0, by decide⟩⟩

end PetriCode
