import PetriCode.Generate
import PetriCode.Proofs.Naming.Gathering
import PetriCode.Proofs.Net.Connection

/-! When a module is generated, and from what. The name of the module, the names of the nodes and the connections
of the arcs are all that is asked for, and each of them is what the net says or nothing at all. -/
namespace PetriCode

/-- What a module is generated from: a text that names it, a net whose nodes can be named, and a
connection for every arc. -/
theorem generate_eq_ok_iff {net : Net} {module : String} {artifacts : Artifacts} :
    generate net module = .ok artifacts ↔
      ∃ name incidences, ModuleName.ofString? module = some name ∧ net.Nameable name ∧
        List.Forall₂ net.Connects net.arcs incidences ∧
        artifacts = .assemble (net.named name) net.marking incidences := by
  unfold generate
  cases named : ModuleName.ofString? module with
  | none => simp
  | some name =>
    simp only [bind_eq_ok_iff, mapError_eq_ok_iff, Net.naming_eq_ok_iff, Net.incidences_eq_ok_iff,
      pure, Except.pure, Except.ok.injEq]
    constructor
    · intro generated
      obtain ⟨_, ⟨nameable, rfl⟩, incidences, resolved, same⟩ := generated
      exact ⟨name, incidences, rfl, nameable, resolved, same.symm⟩
    · intro parts
      obtain ⟨_, incidences, same, nameable, resolved, equal⟩ := parts
      cases same
      exact ⟨_, ⟨nameable, rfl⟩, incidences, resolved, equal.symm⟩

theorem Artifacts.table_assemble (naming : Naming) (marking : List Weight)
    (incidences : List Incidence) (kind : NodeKind) :
    (Artifacts.assemble naming marking incidences).table kind = naming.table kind := by
  cases kind <;> rfl

/-- A net in which upper case makes two letters of one. -/
def handover : Net where
  places := ⟨[⟨"p0", "idle", 1⟩, ⟨"p1", "straße", 0⟩], by decide⟩
  transitions := ⟨[⟨"t0", "start"⟩], by decide⟩
  arcs := [⟨"p0", "t0", " 2 "⟩, ⟨"t0", "p1", "+3"⟩]

theorem handover_generates : ∃ artifacts, generate handover "Demo" = .ok artifacts :=
  exists_ok_of_isOk (by decide +kernel)

end PetriCode
