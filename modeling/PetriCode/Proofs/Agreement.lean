import PetriCode.Proofs.Emit.Lookups
import PetriCode.Proofs.Pnml.Labels
import PetriCode.Proofs.Rebuild

/-! The lookups in C agree with the tables. The four lookups and the arrays are taken from the text of the
implementation as it stands there, whatever the labels of the net are: only the function that makes the
net is left out of the text. The constants they use have the values that the enumerations of the interface
give them. -/
namespace PetriCode
open C

def Artifacts.constants (artifacts : Artifacts) : List (List String) :=
  NodeKind.all.map fun kind => (artifacts.table kind).names ++ [(artifacts.table kind).count]

/-- The constants are those of the enumerations from which the interface is written, and if the names are words
they are found again in its text. -/
structure Artifacts.Enumerates (artifacts : Artifacts) (naming : Naming) : Prop where
  written : artifacts.interface = unitText (Emit.interface naming)
  constants : Outline.enumerations ((Emit.interface naming).flatten.filterMap Declaration.item?) =
    artifacts.constants
  found : naming.Identified → ∃ items, read artifacts.interface = some items ∧
    Outline.enumerations items = artifacts.constants

theorem enumerates_assemble (naming : Naming) (marking : List Weight) (incidences : List Incidence) :
    (Artifacts.assemble naming marking incidences).Enumerates naming where
  written := rfl
  constants := enumerations_interface naming
  found identified := ⟨_, Emit.read_interface naming identified, enumerations_interface naming⟩

/-- Two functions of a program answer as a table does. Every position gets an answer, and so does every
text with a null byte behind it. -/
structure C.Program.Answers (program : Program) (table : NameTable) (text position : String) :
    Prop where
  missing : ∀ index < 2 ^ program.width table.indexType,
    (program.call? text (.number index) = some .null ↔ table.nameOf index = none)
  named : ∀ index < 2 ^ program.width table.indexType, ∀ name, table.nameOf index = some name →
    ∃ array, program.call? text (.number index) = some (.text array) ∧
      content? array = some (bytes name)
  null : program.call? position .null = some (.number (table.indexOf none))
  text : ∀ (name : String) beyond, '\x00' ∉ name.toList →
    program.call? position (.text (bytes name ++ 0 :: beyond)) =
      some (.number (table.indexOf (some name)))

theorem Net.nul_not_mem_names {net : Net} {kind : NodeKind}
    (plain : ∀ label ∈ net.labels kind, '\x00' ∉ label.toList) (module : ModuleName) :
    ∀ name ∈ (net.named module).names kind, '\x00' ∉ name.toList := by
  intro name member
  rw [Net.names_named_kind] at member
  obtain ⟨label, labelled, rfl⟩ := List.mem_map.1 member
  intro nul
  exact plain label labelled (Text.nul_mem_of_nul_mem_uppercase nul)

theorem Net.HasPlainLabels.names {net : Net} (plain : net.HasPlainLabels) (module : ModuleName)
    (kind : NodeKind) : ∀ name ∈ (net.named module).names kind, '\x00' ∉ name.toList :=
  Net.nul_not_mem_names (plain kind) module

theorem lookupProgram_answers {naming : Naming} {kind : NodeKind} {width : String → Nat}
    (knows : (Emit.lookupProgram naming width).Knows (naming.table kind))
    (plain : ∀ name ∈ naming.names kind, '\x00' ∉ name.toList)
    (wide : (naming.table kind).size < 2 ^ width (Naming.indexType kind)) :
    (Emit.lookupProgram naming width).Answers (naming.table kind)
      (Emit.textHead naming.module kind).name (Emit.positionHead naming.module kind).name := by
  constructor
  · intro index inside
    rw [Emit.call?_textHead knows inside, foundText]
    cases (naming.table kind).nameOf index <;> simp
  · intro index inside name found
    refine ⟨bytes name ++ [0], ?_, ?_⟩
    · rw [Emit.call?_textHead knows inside, foundText, found]
      rfl
    · exact content?_bytes (plain name (List.mem_of_getElem? found)) []
  · exact Emit.call?_positionHead wide (NameTable.indexOf_le _ _) rfl
      (runAll?_positionBody_null knows)
  · intro name beyond plainText
    exact Emit.call?_positionHead wide (NameTable.indexOf_le _ _) rfl
      (runAll?_positionBody_text knows wide plain plainText beyond)

/-- The lookups in an implementation, with the constants of its interface, answer as the tables do, if no label
has a null character and the types of positions are wide enough to count the nodes. Labels from a document
have no null character. -/
theorem lookups_agree :
    (∀ document net, Pnml.parse document = .ok net → net.HasPlainLabels) ∧
      ∀ (net : Net) (module : String) (artifacts : Artifacts) (width : String → Nat),
        generate net module = .ok artifacts → net.HasPlainLabels →
        (∀ kind, (artifacts.table kind).size < 2 ^ width (artifacts.table kind).indexType) →
        ∃ name incidences before after items, ModuleName.ofString? module = some name ∧
          net.incidences = .ok incidences ∧
          artifacts.implementation = before ++
            joined (Emit.constructor (net.named name) net.marking incidences).lines ++ "\n\n" ++
              after ∧
          read (before ++ after) = some items ∧
          artifacts.Enumerates (net.named name) ∧
          ∀ kind, (Program.mk items (constant? artifacts.constants) width).Answers
            (artifacts.table kind) (Emit.textHead name kind).name
            (Emit.positionHead name kind).name := by
  refine ⟨fun document net loaded => Pnml.hasPlainLabels_of_parse loaded, ?_⟩
  intro net module artifacts width generated plain wide
  obtain ⟨name, incidences, named, nameable, resolved, rfl⟩ := generate_eq_ok_iff.1 generated
  obtain ⟨before, after, text, reading⟩ :=
    Emit.read_around_constructor (net.named name) net.marking incidences
  refine ⟨name, incidences, before, after, _, named, Net.incidences_eq_ok_iff.2 resolved, text,
    reading, enumerates_assemble _ _ _, ?_⟩
  intro kind
  have enough := wide kind
  rw [Artifacts.table_assemble] at enough ⊢
  exact lookupProgram_answers (Emit.knows_table nameable width kind) (plain.names name kind) enough

theorem Artifacts.size_table {net : Net} {module : String} {artifacts : Artifacts}
    (generated : generate net module = .ok artifacts) (kind : NodeKind) :
    (artifacts.table kind).size = (net.labels kind).length := by
  obtain ⟨name, incidences, _, _, _, rfl⟩ := generate_eq_ok_iff.1 generated
  rw [Artifacts.table_assemble, NameTable.size, Naming.table, Net.names_named_kind, List.length_map]

theorem handover_size {artifacts : Artifacts} (generated : generate handover "Demo" = .ok artifacts)
    (kind : NodeKind) : (artifacts.table kind).size < 2 ^ 32 := by
  rw [artifacts.size_table generated]
  cases kind <;> decide

theorem handover_hasPlainLabels : handover.HasPlainLabels := by
  intro kind
  cases kind <;> decide

theorem lookups_agree_handover : handover.HasPlainLabels ∧
    ∃ artifacts name incidences before after items,
      generate handover "Demo" = .ok artifacts ∧
        (∀ kind, (artifacts.table kind).size < 2 ^ 32) ∧
        artifacts.implementation = before ++
          joined (Emit.constructor (handover.named name) handover.marking incidences).lines ++
            "\n\n" ++ after ∧
        read (before ++ after) = some items ∧
        (Program.mk items (constant? artifacts.constants) fun _ => 32).call?
          "demo_petri_str_place" (.text (bytes "STRASSE" ++ [0])) = some (.number 1) := by
  obtain ⟨artifacts, generated⟩ := handover_generates
  have names : handover.places.entries.map (fun place => place.node.name) = ["IDLE", "STRASSE"] := by
    decide +kernel
  have wide := handover_size generated
  have second : (artifacts.table .place).indexOf (some "STRASSE") = 1 := by
    have listed : (artifacts.table .place).names = ["IDLE", "STRASSE"] := by
      obtain ⟨name, incidences, _, _, _, rfl⟩ := generate_eq_ok_iff.1 generated
      exact names
    rw [NameTable.indexOf, listed, if_neg (by decide)]
    decide
  obtain ⟨name, incidences, before, after, items, named, _, text, reading, _, answers⟩ :=
    lookups_agree.2 handover "Demo" artifacts (fun _ => 32) generated handover_hasPlainLabels wide
  have function : (Emit.positionHead name .place).name = "demo_petri_str_place" := by
    simp only [ModuleName.ofString?, Option.dite_none_right_eq_some, Option.some.injEq] at named
    obtain ⟨_, rfl⟩ := named
    rfl
  refine ⟨handover_hasPlainLabels, artifacts, name, incidences, before, after, items, generated, wide,
    text, reading, ?_⟩
  rw [← function, ← second]
  exact (answers .place).text "STRASSE" [] (by decide)

end PetriCode
