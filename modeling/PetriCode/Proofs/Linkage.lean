import PetriCode.Proofs.Emit.Includes
import PetriCode.Proofs.Pairs

/-! A module and the runtime that it is linked against. Both files of a module include the header of the
runtime, and the interface of a module is a header of its own in the same directory. The two have one
name if the module is named like the runtime in any case, which is not refused; otherwise the header
of the runtime is left alone. -/
namespace PetriCode
open C Emit Files

/-- A module leaves the header of the runtime alone: its interface has another name, the implementation
includes no header twice, the interface does not include itself, and a header of the runtime stays as
it is wherever and however the module is installed. -/
structure Artifacts.SparesRuntime (artifacts : Artifacts) : Prop where
  named : artifacts.interfaceFile ≠ runtimeHeader
  different : (headers artifacts.implementation).Nodup
  outward : artifacts.interfaceFile ∉ headers artifacts.interface
  kept : ∀ (tree : Tree) (home : Location) (directory : String) (place : Location)
    (content : ByteArray), tree.get? (place ++ [runtimeHeader]) = some (.file content) →
      ∀ seen ∈ (install (treeDisk home) directory artifacts (.start tree)).2.trees,
        seen.get? (place ++ [runtimeHeader]) = some (.file content)

/-- A module takes the place of the runtime's header: its interface has that name and includes itself, the
implementation includes it twice, and it stands where the header was once the module is installed. -/
structure Artifacts.ReplacesRuntime (artifacts : Artifacts) : Prop where
  named : artifacts.interfaceFile = runtimeHeader
  twice : headers artifacts.implementation = [runtimeHeader, runtimeHeader]
  inward : artifacts.interfaceFile ∈ headers artifacts.interface
  replaced : ∀ (tree : Tree) (home : Location) (directory : String) (paths : String × String)
    (after : History),
      install (treeDisk home) directory artifacts (.start tree) = (.ok paths, after) →
        ∃ place, tree.locate home directory = .ok place ∧
          after.now.get? (place ++ [runtimeHeader]) = some (.file artifacts.interface.toUTF8)

section Generated
variable {net : Net} {module : String} {artifacts : Artifacts}
  (generated : generate net module = .ok artifacts)
include generated

theorem headers_of_generate : headers artifacts.interface = [runtimeHeader] ∧
    headers artifacts.implementation = [runtimeHeader, artifacts.interfaceFile] := by
  obtain ⟨name, incidences, _, _, _, rfl⟩ := generate_eq_ok_iff.1 generated
  exact ⟨headers_interface net name, headers_implementation net name incidences⟩

theorem named_like_runtime_iff : artifacts.interfaceFile = runtimeHeader ↔
    String.ofList (Text.lowercaseAscii module.toList) = "petri" := by
  have runtime : runtimeHeader = "petri" ++ ".h" := rfl
  rw [(fileNames_of_generate generated).1, runtime, String.append_left_inj]

theorem sparesRuntime_of_named (named : artifacts.interfaceFile ≠ runtimeHeader) :
    artifacts.SparesRuntime where
  named := named
  different := by
    rw [(headers_of_generate generated).2]
    simpa using named.symm
  outward := by
    rw [(headers_of_generate generated).1]
    simpa using named
  kept := by
    intro tree home directory place content standing
    have source : artifacts.implementationFile ≠ runtimeHeader := by
      rw [(fileNames_of_generate generated).2]
      exact source_ne_header _ "petri"
    apply install_keeps generated _ standing
    simpa [Artifacts.files] using And.intro named source

theorem replacesRuntime_of_named (named : artifacts.interfaceFile = runtimeHeader) :
    artifacts.ReplacesRuntime where
  named := named
  twice := by rw [(headers_of_generate generated).2, named]
  inward := by
    rw [(headers_of_generate generated).1, named]
    exact List.mem_singleton_self _
  replaced := by
    intro tree home directory paths after outcome
    have ends := install_ends tree home directory generated
    rw [outcome] at ends
    cases ends with
    | whole located _ covered =>
      have laid : Sheet.of artifacts.files runtimeHeader = some artifacts.interface.toUTF8 := by
        simp [Artifacts.files, Sheet.of, named]
      exact ⟨_, located, covered.overlaid.get?_of_some laid⟩

end Generated

/-- Whatever the net and its labels are, the interface of a module includes the header of the runtime, and
the implementation includes that and the interface. The header of the runtime is left alone by every module
but those that are named like it, and these take its place. -/
theorem runtime_spared_iff (net : Net) (module : String) (artifacts : Artifacts)
    (generated : generate net module = .ok artifacts) :
    headers artifacts.interface = [runtimeHeader] ∧
      headers artifacts.implementation = [runtimeHeader, artifacts.interfaceFile] ∧
      (artifacts.SparesRuntime ↔ String.ofList (Text.lowercaseAscii module.toList) ≠ "petri") ∧
      (artifacts.ReplacesRuntime ↔ String.ofList (Text.lowercaseAscii module.toList) = "petri") := by
  obtain ⟨interface, implementation⟩ := headers_of_generate generated
  have same := named_like_runtime_iff generated
  refine ⟨interface, implementation, ⟨?_, ?_⟩, ?_, ?_⟩
  · exact fun spares => mt same.2 spares.named
  · exact fun other => sparesRuntime_of_named generated (mt same.1 other)
  · exact fun replaces => same.1 replaces.named
  · exact fun equal => replacesRuntime_of_named generated (same.2 equal)

theorem runtime_spared_handover : ∃ artifacts, generate handover "Demo" = .ok artifacts ∧
    artifacts.SparesRuntime := by
  obtain ⟨artifacts, generated⟩ := handover_generates
  have spared := (runtime_spared_iff handover "Demo" artifacts generated).2.2.1
  exact ⟨artifacts, generated, spared.2 (by decide)⟩

/-- A text in the place of the runtime's header that includes nothing. -/
def runtimeText : String := "/* runtime */\n"

/-- A directory with the header of the runtime. -/
def equipped : Tree :=
  ⟨[(["out", "petri.h"], .file runtimeText.toUTF8), (["out"], .directory)]⟩

theorem headers_runtimeText : headers runtimeText = [] := by
  have readable : (Declaration.comment "runtime").Readable :=
    ⟨by decide, (readable_include (by decide)).2⟩
  have lines : runtimeText.toList = laid (Declaration.comment "runtime").lines ++ [] := by
    simp [runtimeText, laid, Declaration.lines]
  have nothing : Hushes [] := ⟨fun _ hushed => hushed⟩
  exact (headers_eq lines (lays_declaration readable) nothing).trans rfl

/-- A module named like the runtime is generated and installed over the runtime's header. -/
theorem runtime_replaced : ∃ artifacts paths after,
    generate .empty "petri" = .ok artifacts ∧ artifacts.interfaceFile = "petri.h" ∧
      "petri.h" ∈ headers artifacts.interface ∧ ¬ (headers artifacts.implementation).Nodup ∧
      install (treeDisk []) "out" artifacts (.start equipped) = (.ok paths, after) ∧
      equipped.get? ["out", "petri.h"] = some (.file runtimeText.toUTF8) ∧
      after.now.get? ["out", "petri.h"] ≠ equipped.get? ["out", "petri.h"] := by
  obtain ⟨artifacts, generated⟩ : ∃ artifacts, generate .empty "petri" = .ok artifacts :=
    exists_ok_of_isOk (by decide +kernel)
  have named := (named_like_runtime_iff generated).2 (by decide)
  have replaces := replacesRuntime_of_named generated named
  have located : equipped.locate [] "out" = .ok ["out"] := locate_out rfl
  have admitted : Admits [] "out" artifacts := by
    apply admits_of_interface generated (by decide) <;> rw [named] <;> decide
  have first : equipped.get? (["out"] ++ [artifacts.interfaceFile]) ≠ some .directory := by
    rw [named]
    nofun
  have source : artifacts.implementationFile = "petri.c" := by
    rw [(fileNames_of_generate generated).2]
    decide
  have second : equipped.get? (["out"] ++ [artifacts.implementationFile]) ≠ some .directory := by
    rw [source]
    nofun
  obtain ⟨after, ran, _⟩ := install_neither_covers located (hasPlainFiles_of_generate generated)
    admitted first second
  obtain ⟨place, again, standing⟩ := replaces.replaced _ _ _ _ _ ran
  rw [located] at again
  cases again
  have inward : "petri.h" ∈ headers artifacts.interface := by
    have own := replaces.inward
    rwa [named] at own
  have held : equipped.get? ["out", "petri.h"] = some (.file runtimeText.toUTF8) := rfl
  refine ⟨artifacts, _, after, generated, named, inward, ?_, ran, held, ?_⟩
  · rw [replaces.twice]
    decide
  · -- One text has a header and the other has none, so neither need be evaluated.
    intro same
    have texts : artifacts.interface = runtimeText := by
      have contents := standing.symm.trans (same.trans held)
      rw [Option.some.injEq, Entry.file.injEq] at contents
      exact String.toByteArray_inj.1 contents
    rw [texts, headers_runtimeText] at inward
    cases inward

end PetriCode
