import PetriCode.Proofs.Acceptance
import PetriCode.Proofs.Emit.Items
import PetriCode.Proofs.Naming.Constants

/-! Rebuilding a net from its two files. The enumerations of the interface number the nodes; the
constructor of the implementation says how many there are, what the places hold and how they are
connected. Read together they give an outline of the net, and it is the outline of no other. -/
namespace PetriCode
open C

/-- What is left of a net without ids and labels. -/
structure Outline where
  places : Nat
  transitions : Nat
  marking : List Weight
  connections : List Incidence
deriving DecidableEq, Repr

namespace Outline

def enumerations (items : List Item) : List (List String) :=
  items.filterMap fun
    | .enumeration _ constants => some constants
    | _ => none

def constructorBody? (items : List Item) : Option (List Statement) :=
  items.findSome? fun
    | .function head body => if head.result = .pointer "PetriNet" then some body else none
    | _ => none

def allocation? (body : List Statement) : Option (String × String) :=
  body.findSome? fun
    | .define _ function [.name places, .name transitions] =>
      if function = "petri_new" then some (places, transitions) else none
    | _ => none

/-- The initial values of the marking; a constructor without them is that of a net without places. -/
def initialMarking (body : List Statement) : List Weight :=
  (body.findSome? fun
    | .defineArray _ name _ values => if name = "m" then some values else none
    | _ => none).getD []

def connectingCalls (body : List Statement) : List (String × List Operand) :=
  body.filterMap fun
    | .call function arguments =>
      if function ∈ ["petri_conf_input", "petri_conf_output"] then some (function, arguments)
      else none
    | _ => none

/-- What a call connects. The place is named first in an input and last in an output. -/
def connection? (value? : String → Option Nat) : String × List Operand → Option Incidence
  | (function, [.name _, .name first, .name second, .number weight]) =>
    if function = "petri_conf_input" then
      return ⟨.input, ← value? first, ← value? second, weight⟩
    else return ⟨.output, ← value? second, ← value? first, weight⟩
  | _ => none

end Outline

def outline? (interface implementation : String) : Option Outline := do
  let value? := constant? (Outline.enumerations (← read interface))
  let body ← Outline.constructorBody? (← read implementation)
  let (places, transitions) ← Outline.allocation? body
  let connections ← (Outline.connectingCalls body).mapM (Outline.connection? value?)
  return ⟨← value? places, ← value? transitions, Outline.initialMarking body, connections⟩

/-- An outline of a net: the numbers of its nodes, the marking of each place at its position, and in the
order of the arcs what each of them amounts to. -/
structure Net.Outlines (net : Net) (outline : Outline) : Prop where
  places : outline.places = net.places.size
  transitions : outline.transitions = net.transitions.size
  marking : ∀ index : Nat,
    outline.marking[index]? = net.places.entries[index]?.map Place.marking
  connections : List.Forall₂ net.Connects net.arcs outline.connections

theorem Net.Outlines.unique {net : Net} {first second : Outline} (one : net.Outlines first)
    (other : net.Outlines second) : first = second := by
  have places := one.places.trans other.places.symm
  have transitions := one.transitions.trans other.transitions.symm
  have marking : first.marking = second.marking :=
    List.ext_getElem? fun index => (one.marking index).trans (other.marking index).symm
  have connections : first.connections = second.connections := by
    have same := (Net.incidences_eq_ok_iff.2 one.connections).symm.trans
      (Net.incidences_eq_ok_iff.2 other.connections)
    exact Except.ok.inj same
  cases first
  cases second
  simp_all

section Items
open Emit
variable (naming : Naming) (marking : List Weight) (incidences : List Incidence)

theorem enumerations_interface :
    Outline.enumerations ((Emit.interface naming).flatten.filterMap Declaration.item?) =
      naming.enumerations := rfl

theorem constructorBody?_implementation :
    Outline.constructorBody? (Emit.directives naming ++ Emit.arrays naming ++
      [.function (Emit.constructorHead naming.module)
        (Emit.constructor naming marking incidences).body.flatten] ++ Emit.functions naming) =
      some (Emit.constructor naming marking incidences).body.flatten := by
  have inDirectives : Outline.constructorBody? (Emit.directives naming) = none := rfl
  have inArrays : Outline.constructorBody? (Emit.arrays naming) = none := by
    rw [Outline.constructorBody?, List.findSome?_eq_none_iff]
    intro item member
    obtain ⟨table, _, rfl⟩ := List.mem_map.1 member
    rfl
  unfold Outline.constructorBody? at inDirectives inArrays ⊢
  rw [List.findSome?_append, List.findSome?_append, List.findSome?_append, inDirectives, inArrays]
  rfl

theorem allocation?_constructor :
    Outline.allocation? (Emit.constructor naming marking incidences).body.flatten =
      some (naming.count .place, naming.count .transition) := by
  rw [constructor_body]
  rfl

def connectingCall (incidence : Incidence) : String × List Operand :=
  let place := naming.nameAt .place incidence.place
  let transition := naming.nameAt .transition incidence.transition
  match incidence.direction with
  | .input =>
    ("petri_conf_input", [.name "net", .name place, .name transition, .number incidence.weight])
  | .output =>
    ("petri_conf_output", [.name "net", .name transition, .name place, .number incidence.weight])

theorem arcStatement_eq (incidence : Incidence) : Emit.arcStatement naming incidence =
    .call (connectingCall naming incidence).1 (connectingCall naming incidence).2 := by
  unfold Emit.arcStatement connectingCall
  cases incidence.direction <;> rfl

theorem initialMarking_constructor :
    Outline.initialMarking (Emit.constructor naming marking incidences).body.flatten = marking := by
  have calls : Outline.initialMarking
      (incidences.map (Emit.arcStatement naming) ++ [.returns (.name "net")]) = [] := by
    induction incidences with
    | nil => rfl
    | cons incidence incidences ih =>
      rw [List.map_cons, List.cons_append, arcStatement_eq]
      exact ih
  rw [constructor_body, List.append_assoc]
  split_ifs with unmarked
  · rw [unmarked]
    exact calls
  · rfl

theorem connectingCalls_constructor :
    Outline.connectingCalls (Emit.constructor naming marking incidences).body.flatten =
      incidences.map (connectingCall naming) := by
  have calls : Outline.connectingCalls
      (incidences.map (Emit.arcStatement naming) ++ [.returns (.name "net")]) =
        incidences.map (connectingCall naming) := by
    induction incidences with
    | nil => rfl
    | cons incidence incidences ih =>
      have known : (connectingCall naming incidence).1 ∈
          ["petri_conf_input", "petri_conf_output"] := by
        unfold connectingCall
        cases incidence.direction <;> simp
      rw [List.map_cons, List.map_cons, List.cons_append, arcStatement_eq, ← ih]
      unfold Outline.connectingCalls
      exact List.filterMap_cons_some (if_pos known)
  rw [constructor_body, List.append_assoc, ← calls]
  split_ifs <;> rfl

end Items

section Values
variable {net : Net} {module : ModuleName} (nameable : net.Nameable module)
include nameable

theorem constant?_nameAt {kind : NodeKind} {position : Nat}
    (bound : position < ((net.named module).names kind).length) :
    constant? (net.named module).enumerations ((net.named module).nameAt kind position) =
      some position := by
  have listed : ((net.named module).names kind)[position]? =
      some ((net.named module).nameAt kind position) := by
    rw [Naming.nameAt, List.getElem?_eq_getElem bound]
    rfl
  exact nameable.constant?_name listed

theorem connection?_connectingCall {arc : Arc} {incidence : Incidence}
    (connects : net.Connects arc incidence) :
    Outline.connection? (constant? (net.named module).enumerations)
      (connectingCall (net.named module) incidence) = some incidence := by
  obtain ⟨_, _, placed, listed, _⟩ := connects.exists_ends
  have placeBound : incidence.place < ((net.named module).names .place).length := by
    simpa [Naming.names, Net.named] using (List.getElem?_eq_some_iff.1 placed).1
  have transitionBound : incidence.transition < ((net.named module).names .transition).length := by
    simpa [Naming.names, Net.named] using (List.getElem?_eq_some_iff.1 listed).1
  have place := constant?_nameAt nameable placeBound
  have transition := constant?_nameAt nameable transitionBound
  cases connects <;> simp [Outline.connection?, connectingCall, place, transition]

end Values

theorem outline?_assemble {net : Net} {module : ModuleName} (nameable : net.Nameable module)
    (identified : (net.named module).Identified) {incidences : List Incidence}
    (resolved : List.Forall₂ net.Connects net.arcs incidences) {artifacts : Artifacts}
    (assembled : artifacts = .assemble (net.named module) net.marking incidences) :
    outline? artifacts.interface artifacts.implementation =
      some ⟨net.places.size, net.transitions.size, net.marking, incidences⟩ := by
  have interface := Emit.read_interface (net.named module) identified
  have implementation :=
    Emit.read_implementation (net.named module) net.marking incidences identified
  have connections := mapM_some_of_forall₂ (fun _ _ => connection?_connectingCall nameable) resolved
  have places := nameable.constant?_count .place
  have transitions := nameable.constant?_count .transition
  subst assembled
  simp only [outline?, Artifacts.assemble, interface, implementation, Option.bind_eq_bind,
    Option.bind_some, enumerations_interface, constructorBody?_implementation,
    allocation?_constructor, connectingCalls_constructor, connections, places, transitions,
    initialMarking_constructor]
  simp [Naming.names, Net.named, Roster.size]

theorem outlines_assembled {net : Net} {incidences : List Incidence}
    (resolved : List.Forall₂ net.Connects net.arcs incidences) :
    net.Outlines ⟨net.places.size, net.transitions.size, net.marking, incidences⟩ where
  places := rfl
  transitions := rfl
  marking := by simp [Net.marking]
  connections := resolved

def Net.HasWords (net : Net) : Prop := ∀ kind, ∀ label ∈ net.labels kind, IsWord (Text.uppercase label)

theorem Net.HasWords.identified {net : Net} (words : net.HasWords) (module : ModuleName) :
    (net.named module).Identified := by
  intro kind name member
  rw [Net.names_named_kind] at member
  obtain ⟨label, labelled, rfl⟩ := List.mem_map.1 member
  exact isName_uppercase (isWord_iff.1 (words kind label labelled))

theorem exists_outline {net : Net} {module : String} {artifacts : Artifacts}
    (generated : generate net module = .ok artifacts) (words : net.HasWords) :
    ∃ outline, outline? artifacts.interface artifacts.implementation = some outline ∧
      ∀ described, net.Outlines described ↔ described = outline := by
  obtain ⟨name, incidences, _, nameable, resolved, assembled⟩ := generate_eq_ok_iff.1 generated
  have outlines := outlines_assembled resolved
  refine ⟨_, outline?_assemble nameable (words.identified name) resolved assembled, ?_⟩
  intro described
  constructor
  · intro also
    exact also.unique outlines
  · intro same
    rw [same]
    exact outlines

/-- Reading the two files of a net whose names are words gives the outline of the net, which has no other
outline. Another net with the same two texts has the same outline. -/
theorem net_rebuilt (net : Net) (module : String) (artifacts : Artifacts)
    (generated : generate net module = .ok artifacts) (words : net.HasWords) :
    ∃ outline, outline? artifacts.interface artifacts.implementation = some outline ∧
      (∀ described, net.Outlines described ↔ described = outline) ∧
      ∀ (other : Net) (otherModule : String) (otherArtifacts : Artifacts),
        generate other otherModule = .ok otherArtifacts → other.HasWords →
        otherArtifacts.interface = artifacts.interface →
        otherArtifacts.implementation = artifacts.implementation →
        ∀ described, other.Outlines described ↔ described = outline := by
  obtain ⟨outline, read, only⟩ := exists_outline generated words
  refine ⟨outline, read, only, ?_⟩
  intro other otherModule otherArtifacts otherGenerated otherWords interface implementation
  obtain ⟨second, again, otherOnly⟩ := exists_outline otherGenerated otherWords
  rw [interface, implementation, read] at again
  cases again
  exact otherOnly

theorem handover_hasWords : handover.HasWords := by
  intro kind label member
  rw [isWord_iff]
  cases kind with
  | place =>
    have all : ∀ label ∈ handover.labels .place, isIdentifier (Text.uppercase label).toList := by
      decide +kernel
    exact all label member
  | transition =>
    have all : ∀ label ∈ handover.labels .transition,
        isIdentifier (Text.uppercase label).toList := by
      decide +kernel
    exact all label member

theorem net_rebuilt_handover : handover.HasWords ∧ ∃ artifacts,
    generate handover "Demo" = .ok artifacts ∧
      outline? artifacts.interface artifacts.implementation =
        some ⟨2, 1, [1, 0], [⟨.input, 0, 0, 2⟩, ⟨.output, 1, 0, 3⟩]⟩ := by
  obtain ⟨artifacts, generated⟩ := handover_generates
  refine ⟨handover_hasWords, artifacts, generated, ?_⟩
  obtain ⟨outline, read, only, _⟩ :=
    net_rebuilt handover "Demo" artifacts generated handover_hasWords
  have incidences : handover.incidences = .ok [⟨.input, 0, 0, 2⟩, ⟨.output, 1, 0, 3⟩] := by
    decide +kernel
  have outlines := outlines_assembled (Net.incidences_eq_ok_iff.1 incidences)
  rw [read, ← (only _).1 outlines]
  rfl

end PetriCode
