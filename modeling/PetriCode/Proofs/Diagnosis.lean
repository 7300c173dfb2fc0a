import Mathlib.Order.Bounds.Defs
import PetriCode.Proofs.Acceptance
import PetriCode.Proofs.Naming.Tables
import PetriCode.Proofs.Net.Faults

/-! Which error is told. Names are asked for one after the other, and the first that asks in vain is told of;
of the arcs the first faulty one is. In both cases nothing before it is at fault, and a name that is
asked for in vain has just one holder. -/
namespace PetriCode

/-- Whoever asks for a name. -/
inductive Claimant
  | count (kind : NodeKind)
  | node (node : Node)

namespace Claimant

def name (module : String) : Claimant → String
  | count kind => countName module kind
  | node entry => entry.name

def label? : Claimant → Option String
  | count _ => none
  | node entry => some entry.label

def owner : Claimant → Owner
  | count _ => .countConstant
  | node entry => .node entry.kind entry.label

def claim (module : String) (claimant : Claimant) : Claim := ⟨claimant.name module, claimant.owner⟩

end Claimant

namespace Net

/-- Those who ask for a name, in the order in which they do. -/
def claimants (net : Net) : List Claimant :=
  NodeKind.all.map .count ++ net.nodes.map .node

/-- The names that are asked for before a position. -/
def namesBefore (net : Net) (module : String) (position : Nat) : List String :=
  (net.claimants.take position).map (Claimant.name module)

/-- The claimant at a position has an empty label or asks for a name that an earlier one asks for. -/
def Refused (net : Net) (module : String) (position : Nat) : Prop :=
  ∃ claimant, net.claimants[position]? = some claimant ∧
    (claimant.label? = some "" ∨ claimant.name module ∈ net.namesBefore module position)

/-- What is told of the node at a position: that its label is empty, or else that its name is the name of an
earlier claimant, which is the only one. -/
inductive Refuses (net : Net) (module : String) (position : Nat) : NamingError → Prop
  | emptyLabel {node : Node} (listed : net.claimants[position]? = some (.node node))
    (empty : node.label = "") : Refuses net module position (.emptyLabel node.kind node.id)
  | duplicate {node : Node} {holder : Claimant} {earlier : Nat}
    (listed : net.claimants[position]? = some (.node node)) (labelled : node.label ≠ "")
    (before : earlier < position) (held : net.claimants[earlier]? = some holder)
    (same : holder.name module = node.name)
    (only : ∀ other < position, ∀ claimant, net.claimants[other]? = some claimant →
      claimant.name module = node.name → other = earlier) :
    Refuses net module position (.duplicate node.name holder.owner (.node node.kind node.label))

/-- What is told of a net and a text that no module is generated from. -/
inductive Reports (net : Net) (module : String) : GenerateError → Prop
  | invalidModuleName (unfit : ¬ IsWord module) : Reports net module (.invalidModuleName module)
  | naming {position : Nat} {error : NamingError} (word : IsWord module)
    (first : IsLeast {position | net.Refused module position} position)
    (refuses : net.Refuses module position error) : Reports net module (.naming error)
  | malformedArc {index : Nat} {arc : Arc} {fault : ArcFault} (word : IsWord module)
    (named : ∀ position, ¬ net.Refused module position)
    (first : IsLeast {index | ∃ arc, net.arcs[index]? = some arc ∧ ¬ net.WellFormedArc arc} index)
    (listed : net.arcs[index]? = some arc) (faults : net.Faults arc fault) :
    Reports net module (.malformedArc ⟨index, arc.source, arc.target, fault⟩)

end Net

theorem isLeast_iff {p : Nat → Prop} {least : Nat} :
    IsLeast {position | p position} least ↔ p least ∧ ∀ earlier < least, ¬ p earlier := by
  refine and_congr_right fun _ => ⟨?_, ?_⟩
  · exact fun bound earlier inside holds => absurd (bound holds) (not_le.2 inside)
  · exact fun before position holds => not_lt.1 fun inside => before position inside holds

theorem Register.claim_eq_error_iff {register : Register} {node : Node} {error : NamingError} :
    register.claim node = .error error ↔
      (node.name = "" ∧ error = .emptyLabel node.kind node.id) ∨
        node.name ≠ "" ∧ ∃ first, register.find? (·.name = node.name) = some first ∧
          error = .duplicate node.name first.owner (.node node.kind node.label) := by
  unfold claim
  by_cases unnamed : node.name = ""
  · simp [unnamed, eq_comm (a := error)]
  · simp only [if_neg unnamed]
    cases register.find? (·.name = node.name) <;> simp [unnamed, eq_comm (a := error)]

namespace Net
variable {net : Net} {module : String} {position : Nat}

theorem claimants_eq (net : Net) :
    net.claimants = .count .place :: .count .transition :: net.nodes.map .node := rfl

theorem take_claimants (net : Net) (index : Nat) : net.claimants.take (index + 2) =
    NodeKind.all.map .count ++ (net.nodes.take index).map .node := by
  rw [claimants_eq, List.take_succ_cons, List.take_succ_cons, ← List.map_take]
  rfl

theorem claimants_eq_node_iff {node : Node} : net.claimants[position]? = some (.node node) ↔
    ∃ index, position = index + 2 ∧ net.nodes[index]? = some node := by
  match position with
  | 0 => simp [claimants_eq]
  | 1 => simp [claimants_eq]
  | index + 2 => simp [claimants_eq]

theorem mem_take_claimants {claimant : Claimant} : claimant ∈ net.claimants.take position ↔
    ∃ earlier < position, net.claimants[earlier]? = some claimant := by
  rw [List.mem_iff_getElem?]
  constructor
  · rintro ⟨earlier, listed⟩
    obtain ⟨bound, _⟩ := List.getElem?_eq_some_iff.1 listed
    have inside : earlier < position := by
      rw [List.length_take] at bound
      omega
    exact ⟨earlier, inside, by rwa [List.getElem?_take_of_lt inside] at listed⟩
  · rintro ⟨earlier, inside, listed⟩
    exact ⟨earlier, by rwa [List.getElem?_take_of_lt inside]⟩

theorem namesBefore_getElem? (module : String) {earlier : Nat} {claimant : Claimant} (before : earlier < position)
    (listed : net.claimants[earlier]? = some claimant) :
    (net.namesBefore module position)[earlier]? = some (claimant.name module) := by
  rw [namesBefore, List.getElem?_map, List.getElem?_take_of_lt before, listed, Option.map_some]

/-- Where no name is asked for twice, two positions of one name are the same. -/
theorem position_unique (distinct : (net.namesBefore module position).Nodup)
    {first second : Nat} (one : first < position) (two : second < position)
    {claimant other : Claimant} (listed : net.claimants[first]? = some claimant)
    (stands : net.claimants[second]? = some other)
    (same : claimant.name module = other.name module) : first = second := by
  have here := namesBefore_getElem? module one listed
  have there := namesBefore_getElem? module two stands
  obtain ⟨bound, _⟩ := List.getElem?_eq_some_iff.1 here
  exact (List.getElem?_inj bound distinct).1 (by rw [here, there, same])

/-- Up to a position all can be named if no label is empty there and no name is asked for twice. -/
theorem not_refused_iff : (∀ earlier < position, ¬ net.Refused module earlier) ↔
    (∀ claimant ∈ net.claimants.take position, claimant.label? ≠ some "") ∧
      (net.namesBefore module position).Nodup := by
  induction position with
  | zero => simp [namesBefore]
  | succ position ih =>
    rw [Nat.forall_lt_succ_right, ih, namesBefore, namesBefore, List.take_add_one, Refused]
    cases net.claimants[position]? with
    | none => simp
    | some claimant =>
      have fresh := List.nodup_concat (net.namesBefore module position) (claimant.name module)
      rw [List.concat_eq_append, namesBefore] at fresh
      simp only [Option.toList_some, List.map_append, List.map_singleton, fresh, List.mem_append,
        List.mem_singleton, or_imp, forall_and, forall_eq, Option.some.injEq, exists_eq_left',
        not_or, namesBefore]
      tauto

theorem Refuses.refused {error : NamingError} (refuses : net.Refuses module position error) :
    net.Refused module position := by
  cases refuses with
  | emptyLabel listed empty => exact ⟨_, listed, .inl (by rw [Claimant.label?, empty])⟩
  | @duplicate node _ _ listed _ before held same _ =>
    have present := List.mem_of_getElem? (namesBefore_getElem? module before held)
    rw [same] at present
    exact ⟨.node node, listed, .inr present⟩

/-- The claims that are made before a position. -/
def claimsBefore (net : Net) (module : String) (position : Nat) : Register :=
  (net.claimants.take position).map (Claimant.claim module)

theorem names_claimsBefore (net : Net) (module : String) (position : Nat) :
    (net.claimsBefore module position).names = net.namesBefore module position := by
  rw [claimsBefore, Register.names, List.map_map]
  rfl

theorem find?_claimsBefore_iff {name : String} {claim : Claim}
    (distinct : (net.namesBefore module position).Nodup) :
    (net.claimsBefore module position).find? (·.name = name) = some claim ↔
      ∃ holder ∈ net.claimants.take position, holder.name module = name ∧
        holder.claim module = claim := by
  have asked : (fun claim : Claim => decide (claim.name = name)) ∘ Claimant.claim module =
      fun claimant => decide (claimant.name module = name) := rfl
  rw [claimsBefore, List.find?_map, asked, Option.map_eq_some_iff]
  simp only [find?_key_iff distinct, and_assoc]

/-- What a register tells of a node if it holds the claims of all before it. -/
theorem claim_eq_error_iff {node : Node} {error : NamingError}
    (listed : net.claimants[position]? = some (.node node))
    (distinct : (net.namesBefore module position).Nodup) :
    (net.claimsBefore module position).claim node = .error error ↔
      net.Refuses module position error := by
  rw [Register.claim_eq_error_iff]
  simp only [find?_claimsBefore_iff distinct, mem_take_claimants]
  constructor
  · rintro (⟨unnamed, rfl⟩ | ⟨named, _, ⟨holder, ⟨earlier, before, held⟩, same, rfl⟩, rfl⟩)
    · exact .emptyLabel listed (Text.uppercase_eq_empty_iff.1 unnamed)
    · refine .duplicate listed (mt Text.uppercase_eq_empty_iff.2 named) before held same ?_
      intro other inside claimant stands repeated
      exact position_unique distinct inside before stands held (repeated.trans same.symm)
  · intro refuses
    cases refuses with
    | emptyLabel again empty =>
      obtain rfl : node = _ := by simpa using listed.symm.trans again
      exact .inl ⟨Text.uppercase_eq_empty_iff.2 empty, rfl⟩
    | duplicate again labelled before held same _ =>
      obtain rfl : node = _ := by simpa using listed.symm.trans again
      exact .inr ⟨mt Text.uppercase_eq_empty_iff.1 labelled, _,
        ⟨_, ⟨_, before, held⟩, same, rfl⟩, rfl⟩

section Module
variable {name : ModuleName} (named : ModuleName.ofString? module = some name)
include named

/-- The register after some nodes holds the claims that are made before the next. -/
theorem claimsBefore_eq (index : Nat) : net.claimsBefore module (index + 2) =
    Register.reserved name ++ (net.nodes.take index).map Node.claim := by
  have counts : NodeKind.all.map (Claimant.claim module ∘ .count) = Register.reserved name := by
    simp only [NodeKind.all, List.map_cons, List.map_nil, Function.comp_apply, Claimant.claim,
      Claimant.name, ← count_eq_countName named]
    rfl
  rw [claimsBefore, take_claimants, List.map_append, List.map_map, List.map_map, counts]
  rfl

theorem named_so_far_iff {index : Nat} : (∀ earlier < index + 2, ¬ net.Refused module earlier) ↔
    (∀ node ∈ net.nodes.take index, node.name ≠ "") ∧
      (Register.names (.reserved name) ++ (net.nodes.take index).map Node.name).Nodup := by
  have names : net.namesBefore module (index + 2) =
      Register.names (.reserved name) ++ (net.nodes.take index).map Node.name := by
    rw [← names_claimsBefore, claimsBefore_eq named, Register.names_append, Register.names_claims]
  have labels : (∀ claimant ∈ net.claimants.take (index + 2), claimant.label? ≠ some "") ↔
      ∀ node ∈ net.nodes.take index, node.name ≠ "" := by
    simp only [take_claimants, List.forall_mem_append, List.forall_mem_map, Claimant.label?,
      Node.name, ne_eq, Option.some.injEq, Text.uppercase_eq_empty_iff, reduceCtorEq,
      not_false_eq_true, implies_true, true_and]
  rw [not_refused_iff, names, labels]

theorem run_eq_ok_iff {index : Nat} {register : Register} :
    (net.nodes.take index).foldlM Register.claim (.reserved name) = .ok register ↔
      (∀ earlier < index + 2, ¬ net.Refused module earlier) ∧
        register = net.claimsBefore module (index + 2) := by
  rw [Register.foldlM_claim_eq_ok_iff (Register.nodup_reserved name), named_so_far_iff named,
    claimsBefore_eq named, and_assoc]

/-- The register turns the first node away that cannot be named. -/
theorem register_eq_error_iff {error : NamingError} :
    net.register name = .error error ↔ ∃ position,
      IsLeast {position | net.Refused module position} position ∧
        net.Refuses module position error := by
  unfold register
  simp only [foldlM_eq_error_iff, run_eq_ok_iff named]
  constructor
  · rintro ⟨index, node, _, listed, ⟨before, rfl⟩, failed⟩
    have asked := claimants_eq_node_iff.2 ⟨index, rfl, listed⟩
    have refuses := (claim_eq_error_iff asked (not_refused_iff.1 before).2).1 failed
    exact ⟨index + 2, isLeast_iff.2 ⟨refuses.refused, before⟩, refuses⟩
  · rintro ⟨position, least, refuses⟩
    have before := (isLeast_iff.1 least).2
    obtain ⟨node, asked⟩ : ∃ node, net.claimants[position]? = some (.node node) := by
      cases refuses with
      | emptyLabel listed _ => exact ⟨_, listed⟩
      | duplicate listed _ _ _ _ _ => exact ⟨_, listed⟩
    obtain ⟨index, rfl, listed⟩ := claimants_eq_node_iff.1 asked
    exact ⟨index, node, _, listed, ⟨before, rfl⟩,
      (claim_eq_error_iff asked (not_refused_iff.1 before).2).2 refuses⟩

theorem nameable_iff : net.Nameable name ↔ ∀ position, ¬ net.Refused module position := by
  have size : net.claimants.length = net.nodes.length + 2 := by simp [claimants_eq]
  have inside : (∀ position, ¬ net.Refused module position) ↔
      ∀ position < net.nodes.length + 2, ¬ net.Refused module position := by
    refine ⟨fun none position _ => none position, ?_⟩
    intro none position refused
    -- Nobody asks for a name beyond the last claimant.
    obtain ⟨_, listed, _⟩ := id refused
    obtain ⟨bound, _⟩ := List.getElem?_eq_some_iff.1 listed
    exact none position (size ▸ bound) refused
  rw [inside, named_so_far_iff named, List.take_length]
  exact ⟨fun nameable => ⟨nameable.inhabited, nameable.distinct⟩, fun parts => ⟨parts.1, parts.2⟩⟩

end Module

theorem first_malformed_iff {index : Nat} {arc : Arc} {fault : ArcFault}
    (listed : net.arcs[index]? = some arc) (faults : net.Faults arc fault) :
    IsLeast {index | ∃ arc, net.arcs[index]? = some arc ∧ ¬ net.WellFormedArc arc} index ↔
      ∀ earlier < index, ∀ before, net.arcs[earlier]? = some before → net.WellFormedArc before := by
  have malformed : ∃ arc, net.arcs[index]? = some arc ∧ ¬ net.WellFormedArc arc :=
    ⟨arc, listed, faults.not_wellFormedArc⟩
  rw [isLeast_iff, and_iff_right malformed]
  simp only [not_exists, not_and, not_not]

end Net

theorem Net.naming_eq_error_iff {net : Net} {name : ModuleName} {error : NamingError} :
    net.naming name = .error error ↔ net.register name = .error error := by
  rw [Net.naming_eq, bind_eq_error_iff, or_iff_left]
  rintro ⟨_, _, made⟩
  cases made

theorem generate_eq_error_iff {net : Net} {module : String} {name : ModuleName}
    {error : GenerateError} (named : ModuleName.ofString? module = some name) :
    generate net module = .error error ↔
      (∃ cause, net.register name = .error cause ∧ .naming cause = error) ∨
        net.Nameable name ∧ ∃ malformed, net.incidences = .error malformed ∧
          .malformedArc malformed = error := by
  unfold generate
  rw [named]
  simp only [bind_eq_error_iff, mapError_eq_error_iff, mapError_eq_ok_iff, Net.naming_eq_ok_iff,
    Net.naming_eq_error_iff]
  constructor
  · rintro (turnedAway | ⟨_, ⟨nameable, _⟩, malformed | ⟨_, _, made⟩⟩)
    · exact .inl turnedAway
    · exact .inr ⟨nameable, malformed⟩
    · cases made
  · rintro (turnedAway | ⟨nameable, malformed⟩)
    · exact .inl turnedAway
    · exact .inr ⟨_, ⟨nameable, rfl⟩, .inl malformed⟩

/-- Generating fails with what is to be told and with nothing else: the module name if it is no word, else
what is wrong with the first node that cannot be named, else with the first arc that is faulty. -/
theorem generate_reports (net : Net) (module : String) (error : GenerateError) :
    generate net module = .error error ↔ net.Reports module error := by
  cases named : ModuleName.ofString? module with
  | none =>
    have unfit : ¬ IsWord module := by
      rw [isWord_iff, ← ModuleName.ofString?_isSome_iff, named]
      simp
    constructor
    · intro failed
      unfold generate at failed
      rw [named] at failed
      cases failed
      exact .invalidModuleName unfit
    · intro reports
      cases reports with
      | invalidModuleName _ => unfold generate; rw [named]
      | naming word _ _ => exact absurd word unfit
      | malformedArc word _ _ _ _ => exact absurd word unfit
  | some name =>
    have word : IsWord module := isWord_iff.2 (ModuleName.ofString?_isSome_iff.1 ⟨name, named⟩)
    rw [generate_eq_error_iff named, Net.nameable_iff named]
    simp only [Net.register_eq_error_iff named, Net.incidences_eq_error_iff]
    constructor
    · rintro (⟨cause, ⟨position, first, refuses⟩, rfl⟩ |
        ⟨nameable, _, ⟨index, arc, fault, listed, faults, early, rfl⟩, rfl⟩)
      · exact .naming word first refuses
      · exact .malformedArc word nameable ((Net.first_malformed_iff listed faults).2 early) listed faults
    · intro reports
      cases reports with
      | invalidModuleName unfit => exact absurd word unfit
      | naming _ first refuses => exact .inl ⟨_, ⟨_, first, refuses⟩, rfl⟩
      | malformedArc _ nameable first listed faults =>
        exact .inr ⟨nameable, _, ⟨_, _, _, listed, faults,
          (Net.first_malformed_iff listed faults).1 first, rfl⟩, rfl⟩

end PetriCode
