import PetriCode.Naming.Gathering
import PetriCode.Proofs.Naming.Register
import PetriCode.Proofs.Net.Roster

/-! What is gathered of a net. Every name that is filed has been claimed, so none is filed twice: what is filed
comes last, and the positions of the nodes are the positions of their names. Hence the names of a net
can be had just if the register takes them all, and then they are those of its nodes in their order. -/
namespace PetriCode

/-- A roster holds some entries in their order, and every key that is in use has been claimed. -/
structure Filed {α : Type} {key : α → String} (roster : Roster key) (register : Register)
    (entries : List α) : Prop where
  entries : roster.entries = entries
  claimed : roster.keys ⊆ register.names

namespace Filed
variable {α : Type} {key : α → String} {roster : Roster key} {register next : Register}
  {entries : List α} {node : Node}

theorem claim (filed : Filed roster register entries) (claimed : register.claim node = .ok next) :
    Filed roster next entries := by
  obtain ⟨_, _, rfl⟩ := Register.claim_eq_ok_iff.1 claimed
  refine ⟨filed.entries, ?_⟩
  rw [Register.names_append]
  exact fun name used => List.mem_append_left _ (filed.claimed used)

/-- Only a name that has not been claimed is taken by the register, so none that has been filed. -/
theorem insert (filed : Filed roster register entries) (claimed : register.claim node = .ok next)
    {entry : α} (named : key entry = node.name) :
    Filed (roster.insert entry) next (entries ++ [entry]) := by
  obtain ⟨_, unclaimed, rfl⟩ := Register.claim_eq_ok_iff.1 claimed
  have fresh : key entry ∉ roster.keys := fun used => unclaimed (named ▸ filed.claimed used)
  refine ⟨by rw [Roster.entries_insert_of_fresh fresh, filed.entries], ?_⟩
  rw [Roster.keys_insert, if_neg fresh, Register.names_append, named]
  exact List.append_subset.2 ⟨List.subset_append_of_subset_left _ filed.claimed,
    List.subset_append_right _ _⟩

end Filed

namespace Gathering
variable {gathering next : Gathering} {module : ModuleName} {places : List Place}
  {transitions : List Transition} {node : Node} {file : Gathering → Gathering}

theorem add_eq_ok_iff : gathering.add node file = .ok next ↔
    ∃ register, gathering.register.claim node = .ok register ∧
      file { gathering with register } = next := by
  simp only [add, bind_eq_ok_iff, pure, Except.pure, Except.ok.injEq]

/-- What has been gathered is what some places and some transitions have brought, each at its position. -/
structure Holds (gathering : Gathering) (module : ModuleName) (places : List Place)
    (transitions : List Transition) : Prop where
  module : gathering.module = module
  places : Filed gathering.places gathering.register
    (places.map fun place => (place.node.name, place.marking))
  transitions : Filed gathering.transitions gathering.register
    (transitions.map fun transition => transition.node.name)

theorem holds_begun (module : ModuleName) : (begun module).Holds module [] [] :=
  ⟨rfl, ⟨rfl, List.nil_subset _⟩, ⟨rfl, List.nil_subset _⟩⟩

theorem Holds.addPlace {place : Place} (holds : gathering.Holds module places transitions)
    (added : gathering.addPlace place = .ok next) : next.Holds module (places ++ [place]) transitions := by
  obtain ⟨register, claimed, rfl⟩ := add_eq_ok_iff.1 added
  refine ⟨holds.module, ?_, holds.transitions.claim claimed⟩
  rw [List.map_append]
  exact holds.places.insert claimed rfl

theorem Holds.addTransition {transition : Transition} (holds : gathering.Holds module places transitions)
    (added : gathering.addTransition transition = .ok next) :
    next.Holds module places (transitions ++ [transition]) := by
  obtain ⟨register, claimed, rfl⟩ := add_eq_ok_iff.1 added
  refine ⟨holds.module, holds.places.claim claimed, ?_⟩
  rw [List.map_append]
  exact holds.transitions.insert claimed rfl

theorem holds_of_gathering {net : Net} (gathered : net.gathering module = .ok gathering) :
    gathering.Holds module net.places.entries net.transitions.entries := by
  obtain ⟨placed, first, second⟩ := bind_eq_ok_iff.1 gathered
  have places := holds_of_foldlM (fun state done => Holds state module done [])
    (fun _ _ _ _ holds added => holds.addPlace added) (holds_begun module) first
  exact holds_of_foldlM (fun state done => Holds state module net.places.entries done)
    (fun _ _ _ _ holds added => holds.addTransition added) places second

theorem register_add (gathering : Gathering) (node : Node)
    (keeps : ∀ claimed, (file claimed).register = claimed.register) :
    (gathering.add node file).map register = gathering.register.claim node := by
  unfold add
  cases gathering.register.claim node with
  | error fault => rfl
  | ok taken => exact congrArg Except.ok (keeps _)

/-- The names of a net are claimed as if nothing were filed. -/
theorem register_gathering (net : Net) (module : ModuleName) :
    (net.gathering module).map register = net.register module := by
  have place (gathering : Gathering) (place : Place) :
      (gathering.addPlace place).map register = gathering.register.claim place.node :=
    register_add gathering place.node fun _ => rfl
  have transition (gathering : Gathering) (transition : Transition) :
      (gathering.addTransition transition).map register =
        gathering.register.claim transition.node :=
    register_add gathering transition.node fun _ => rfl
  have placed := map_foldlM place net.places.entries (begun module)
  unfold Net.gathering Net.register Net.nodes
  rw [List.foldlM_append]
  change _ = List.foldlM Register.claim (begun module).register _ >>= _
  rw [← placed]
  cases net.places.entries.foldlM addPlace (begun module) with
  | error fault => rfl
  | ok placed => exact map_foldlM transition net.transitions.entries placed

end Gathering

namespace Net
variable {net : Net} {module : ModuleName}

def named (net : Net) (module : ModuleName) : Naming :=
  ⟨module, net.places.entries.map (·.node.name), net.transitions.entries.map (·.node.name)⟩

theorem naming_of_gathering {gathering : Gathering} (gathered : net.gathering module = .ok gathering) :
    gathering.naming = net.named module := by
  have holds := Gathering.holds_of_gathering gathered
  simp [Gathering.naming, Roster.keys, holds.module, holds.places.entries, holds.transitions.entries,
    named, Function.comp_def]

/-- Gathered one by one or claimed all at once, the names of a net are the same, and so is the fault where they
cannot be had. -/
theorem naming_eq (net : Net) (module : ModuleName) :
    net.naming module = (do let _ ← net.register module; return net.named module) := by
  unfold naming
  rw [← Gathering.register_gathering]
  cases gathered : net.gathering module with
  | error fault => rfl
  | ok gathering => exact congrArg Except.ok (naming_of_gathering gathered)

/-- The names that a net and its module ask for, in the order in which they are claimed. -/
def claimedNames (net : Net) (module : ModuleName) : List String :=
  [module.count .place, module.count .transition] ++ net.nodes.map Node.name

/-- Every node of a net can have the name that it asks for. -/
structure Nameable (net : Net) (module : ModuleName) : Prop where
  inhabited : ∀ node ∈ net.nodes, node.name ≠ ""
  distinct : (net.claimedNames module).Nodup

theorem naming_eq_ok_iff {naming : Naming} :
    net.naming module = .ok naming ↔ net.Nameable module ∧ naming = net.named module := by
  rw [naming_eq, bind_eq_ok_iff]
  unfold Net.register
  simp only [Register.foldlM_claim_eq_ok_iff (Register.nodup_reserved module),
    Register.names_reserved, pure, Except.pure, Except.ok.injEq]
  constructor
  · intro run
    obtain ⟨_, ⟨inhabited, distinct, _⟩, same⟩ := run
    exact ⟨⟨inhabited, distinct⟩, same.symm⟩
  · intro run
    obtain ⟨⟨inhabited, distinct⟩, same⟩ := run
    exact ⟨_, ⟨inhabited, distinct, rfl⟩, same.symm⟩

theorem names_named (net : Net) (module : ModuleName) :
    (net.named module).places ++ (net.named module).transitions = net.nodes.map Node.name := by
  simp [named, nodes, Function.comp_def]

end Net
end PetriCode
