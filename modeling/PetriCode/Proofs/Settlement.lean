import PetriCode.Proofs.Files.Installation

/-! How the installation of a module ends, told of trees as a whole. It succeeds where the directory exists
and covers neither file by a directory; otherwise nothing is changed, but for one case, in which the
interface is there and the implementation is not. Meanwhile others see whole files only. -/
namespace PetriCode.Files
open PetriCode.Files.Tree

/-- A path leads to a directory. -/
def Tree.IsDirectory (tree : Tree) (home : Location) (path : String) : Prop :=
  ∃ here, tree.locate home path = .ok here

/-- A tree is another one into whose directory some files have been written, and everything else is as
it was. -/
structure Tree.Gains (later tree : Tree) (home : Location) (directory : String)
    (files : List (String × String)) : Prop where
  held : ∀ file ∈ files, later.read home (join directory file.1) = .ok file.2.toUTF8
  rest : ∃ here, tree.locate home directory = .ok here ∧
    ∀ location, (∀ file ∈ files, location ≠ here ++ [file.1]) →
      later.get? location = tree.get? location

/-- What may be seen while files are installed in a directory. Nothing is changed but names in the
directory. There stands under each name what stood before, or one of the files in full under its own
name, or a staged file under a name that was free. -/
structure Tree.Between (seen tree : Tree) (home : Location) (directory : String)
    (files : List (String × String)) : Prop where
  outside : ∀ location, (∀ here name, tree.locate home directory = .ok here →
    location ≠ here ++ [name]) → seen.get? location = tree.get? location
  inside : ∀ here name, tree.locate home directory = .ok here →
    seen.get? (here ++ [name]) = tree.get? (here ++ [name]) ∨
    (∃ text, (name, text) ∈ files ∧ seen.get? (here ++ [name]) = some (.file text.toUTF8)) ∨
    (∀ text, (name, text) ∉ files) ∧ (∃ number, name = stagedName number) ∧
      tree.get? (here ++ [name]) = none

/-- How the installation of a module in a directory of a tree ends, and what is seen meanwhile. -/
structure Settles (tree : Tree) (home : Location) (directory : String) (artifacts : Artifacts)
    (outcome : Except InstallError (String × String)) (after : History) : Prop where
  succeeds : (∃ paths, outcome = .ok paths) ↔ tree.IsDirectory home directory ∧
    ¬ tree.IsDirectory home (join directory artifacts.interfaceFile) ∧
    ¬ tree.IsDirectory home (join directory artifacts.implementationFile)
  installed : ∀ paths, outcome = .ok paths →
    paths = (join directory artifacts.interfaceFile, join directory artifacts.implementationFile) ∧
      after.now.Gains tree home directory artifacts.files
  half : ∀ error, outcome = .error error → tree.IsDirectory home directory →
    ¬ tree.IsDirectory home (join directory artifacts.interfaceFile) →
    tree.IsDirectory home (join directory artifacts.implementationFile) →
    error.path = join directory artifacts.implementationFile ∧
      after.now.Gains tree home directory [(artifacts.interfaceFile, artifacts.interface)]
  unchanged : ∀ error, outcome = .error error →
    ¬ (tree.IsDirectory home directory ∧
      ¬ tree.IsDirectory home (join directory artifacts.interfaceFile) ∧
      tree.IsDirectory home (join directory artifacts.implementationFile)) →
    error.path = join directory artifacts.interfaceFile ∧
      ∀ location, after.now.get? location = tree.get? location
  meanwhile : ∀ seen ∈ after.trees, seen.Between tree home directory artifacts.files

section Run
variable {tree : Tree} {home here : Location} {directory : String} {artifacts : Artifacts}

theorem isDirectory_join (located : tree.locate home directory = .ok here) {name : String}
    (plain : IsPlain name) (admitted : admitName name = .ok ()) :
    tree.IsDirectory home (join directory name) ↔
      tree.get? (here ++ [name]) = some .directory := by
  constructor
  · rintro ⟨there, walked⟩
    obtain ⟨again, same, _, standing, _⟩ := (locate_join plain).1 walked
    rw [located] at same
    cases same
    exact standing
  · intro standing
    exact ⟨_, (locate_join plain).2 ⟨here, located, admitted, standing, rfl⟩⟩

theorem Tree.Covered.between {seen : Tree} {files : List (String × String)} {sheet : Sheet}
    (covered : seen.Covered tree here files sheet) (located : tree.locate home directory = .ok here)
    (plain : ∀ file ∈ files, IsPlain file.1) : seen.Between tree home directory files where
  outside := fun location apart =>
    covered.overlaid.outside location fun name => apart here name located
  inside := by
    intro again name same
    rw [located] at same
    cases same
    cases laid : sheet name with
    | none => exact .inl (covered.overlaid.get?_of_none laid)
    | some content =>
      obtain ⟨text, listed, rfl, _⟩ | ⟨⟨number, rfl⟩, free⟩ := covered.permitted name content laid
      · exact .inr (.inl ⟨text, listed, covered.overlaid.get?_of_some laid⟩)
      · refine .inr (.inr ⟨?_, ⟨number, rfl⟩, free⟩)
        intro text listed
        exact (plain _ listed).ne_stagedName number rfl

/-- What is laid over a directory in the end has been written there, and nothing else. -/
theorem Tree.Covered.gains {later : Tree} {files written : List (String × String)}
    (covered : later.Covered tree here files (Sheet.of written))
    (located : tree.locate home directory = .ok here)
    (distinct : (written.map Prod.fst).Nodup) (plain : ∀ file ∈ written, IsPlain file.1)
    (names : ∀ file ∈ written, admitName file.1 = .ok ())
    (paths : ∀ file ∈ written, admitPath (join directory file.1) = .ok ()) :
    later.Gains tree home directory written where
  held := by
    intro file member
    have laid := (Sheet.of_eq_some_iff distinct).2 ⟨file.2, member, rfl⟩
    exact read_join (plain file member) (paths file member) (names file member)
      (covered.locate located) (covered.overlaid.get?_of_some laid)
  rest := by
    refine ⟨here, located, ?_⟩
    intro location apart
    by_cases within : ∃ name, location = here ++ [name]
    · obtain ⟨name, rfl⟩ := within
      apply covered.overlaid.get?_of_none
      rw [Option.eq_none_iff_forall_ne_some]
      intro content found
      obtain ⟨text, member, _⟩ := (Sheet.of_eq_some_iff distinct).1 found
      exact apart (name, text) member rfl
    · exact covered.overlaid.outside location (not_exists.1 within)

theorem Underway.between {files : List (String × String)} {history : History} {sheet : Sheet}
    (underway : Underway tree home directory here files history sheet)
    (plain : ∀ file ∈ files, IsPlain file.1) :
    ∀ seen ∈ history.trees, seen.Between tree home directory files := by
  intro seen member
  obtain rfl | behind := List.mem_cons.1 member
  · exact underway.now.between underway.located plain
  · obtain ⟨sheet, covered⟩ := underway.past seen behind
    exact covered.between underway.located plain

theorem Tree.Between.refl (tree : Tree) (home : Location) (directory : String)
    (files : List (String × String)) : tree.Between tree home directory files where
  outside := fun _ _ => rfl
  inside := fun _ _ _ => .inl rfl

/-- Where there is no directory, nothing is staged. -/
theorem install_lost (artifacts : Artifacts) (lost : ¬ tree.IsDirectory home directory) :
    ∃ fault, install (treeDisk home) directory artifacts (.start tree) =
      (.error ⟨join directory artifacts.interfaceFile, fault⟩, .start tree) := by
  have place : ∃ fault, tree.stagingPlace home directory = .error fault := by
    cases place : tree.stagingPlace home directory with
    | error fault => exact ⟨fault, rfl⟩
    | ok here =>
      obtain ⟨_, _, located⟩ := bind_eq_ok_iff.1 place
      exact absurd ⟨here, located⟩ lost
  obtain ⟨fault, place⟩ := place
  refine ⟨fault, install_unstaged ?_⟩
  simp only [treeDisk, History.start, place]

theorem settles_lost (missing : ¬ tree.IsDirectory home directory) {fault : Fault} :
    Settles tree home directory artifacts
      (.error ⟨join directory artifacts.interfaceFile, fault⟩) (.start tree) := by
  refine ⟨?_, ?_, ?_, ?_, ?_⟩
  · simp [missing]
  · intro paths succeeded
    cases succeeded
  · intro error _ standing
    exact absurd standing missing
  · rintro error failed -
    cases failed
    exact ⟨rfl, fun _ => rfl⟩
  · intro seen member
    obtain rfl : seen = tree := by simpa [History.trees, History.start] using member
    exact .refl seen home directory _

section Settled
variable {after : History} (located : tree.locate home directory = .ok here)
  (plain : artifacts.HasPlainFiles) (admitted : Admits home directory artifacts)
include located plain admitted

theorem settles_first_covers {fault : Fault}
    (covers : tree.get? (here ++ [artifacts.interfaceFile]) = some .directory)
    (underway : Underway tree home directory here artifacts.files after (Sheet.of [])) :
    Settles tree home directory artifacts
      (.error ⟨join directory artifacts.interfaceFile, fault⟩) after := by
  have covered : tree.IsDirectory home (join directory artifacts.interfaceFile) :=
    (isDirectory_join located plain.interface (admitted.names (_, _) artifacts.interface_mem)).2 covers
  refine ⟨?_, ?_, ?_, ?_, underway.between plain.isPlain⟩
  · simp [covered]
  · intro paths succeeded
    cases succeeded
  · intro error _ _ clear
    exact absurd covered clear
  · rintro error failed -
    cases failed
    exact ⟨rfl, underway.now.overlaid.get?_eq⟩

variable (clear : tree.get? (here ++ [artifacts.interfaceFile]) ≠ some .directory)
include clear

theorem settles_second_covers {fault : Fault}
    (covers : tree.get? (here ++ [artifacts.implementationFile]) = some .directory)
    (underway : Underway tree home directory here artifacts.files after
      (Sheet.of [(artifacts.interfaceFile, artifacts.interface)])) :
    Settles tree home directory artifacts
      (.error ⟨join directory artifacts.implementationFile, fault⟩) after := by
  have first : ¬ tree.IsDirectory home (join directory artifacts.interfaceFile) := by
    rwa [isDirectory_join located plain.interface (admitted.names (_, _) artifacts.interface_mem)]
  have second : tree.IsDirectory home (join directory artifacts.implementationFile) :=
    (isDirectory_join located plain.implementation
      (admitted.names (_, _) artifacts.implementation_mem)).2 covers
  refine ⟨?_, ?_, ?_, ?_, underway.between plain.isPlain⟩
  · simp [second]
  · intro paths succeeded
    cases succeeded
  · rintro error failed - - -
    cases failed
    refine ⟨rfl, underway.now.gains located (by simp) ?_ ?_ ?_⟩
    · simpa using plain.interface
    · simpa using admitted.names (_, _) artifacts.interface_mem
    · simpa using admitted.paths (_, _) artifacts.interface_mem
  · intro error _ other
    exact absurd ⟨⟨here, located⟩, first, second⟩ other

theorem settles_neither_covers
    (vacant : tree.get? (here ++ [artifacts.implementationFile]) ≠ some .directory)
    (underway : Underway tree home directory here artifacts.files after
      (Sheet.of artifacts.files)) :
    Settles tree home directory artifacts
      (.ok (join directory artifacts.interfaceFile, join directory artifacts.implementationFile))
      after := by
  have first : ¬ tree.IsDirectory home (join directory artifacts.interfaceFile) := by
    rwa [isDirectory_join located plain.interface (admitted.names (_, _) artifacts.interface_mem)]
  have second : ¬ tree.IsDirectory home (join directory artifacts.implementationFile) := by
    rwa [isDirectory_join located plain.implementation
      (admitted.names (_, _) artifacts.implementation_mem)]
  refine ⟨?_, ?_, ?_, ?_, underway.between plain.isPlain⟩
  · exact iff_of_true ⟨_, rfl⟩ ⟨⟨here, located⟩, first, second⟩
  · intro paths succeeded
    cases succeeded
    exact ⟨rfl, underway.now.gains located plain.nodup plain.isPlain admitted.names admitted.paths⟩
  · intro error failed
    cases failed
  · intro error failed
    cases failed

end Settled
end Run

/-- Installing a module that has been generated succeeds just if the directory exists and neither file
would cover a directory. All that can remain of a failed installation is a whole interface. -/
theorem install_settles (tree : Tree) (home : Location) (directory : String) {net : Net}
    {module : String} {artifacts : Artifacts} (generated : generate net module = .ok artifacts)
    (admitted : tree.IsDirectory home directory → Admits home directory artifacts) :
    artifacts.interfaceFile = String.ofList (Text.lowercaseAscii module.toList) ++ ".h" ∧
      artifacts.implementationFile = String.ofList (Text.lowercaseAscii module.toList) ++ ".c" ∧
      Settles tree home directory artifacts
        ((install (treeDisk home) directory artifacts).run (.start tree)).1
        ((install (treeDisk home) directory artifacts).run (.start tree)).2 := by
  obtain ⟨header, source⟩ := fileNames_of_generate generated
  have plain := hasPlainFiles_of_generate generated
  refine ⟨header, source, ?_⟩
  rw [StateT.run]
  by_cases standing : tree.IsDirectory home directory
  · have admits := admitted standing
    obtain ⟨here, located⟩ := standing
    by_cases first : tree.get? (here ++ [artifacts.interfaceFile]) = some .directory
    · obtain ⟨after, ran, underway⟩ := install_first_covers located plain admits first
      rw [ran]
      exact settles_first_covers located plain admits first underway
    · by_cases second : tree.get? (here ++ [artifacts.implementationFile]) = some .directory
      · obtain ⟨after, ran, underway⟩ := install_second_covers located plain admits first second
        rw [ran]
        exact settles_second_covers located plain admits first second underway
      · obtain ⟨after, ran, underway⟩ := install_neither_covers located plain admits first second
        rw [ran]
        exact settles_neither_covers located plain admits first second underway
  · obtain ⟨fault, ran⟩ := install_lost artifacts standing
    rw [ran]
    exact settles_lost standing

/-- A directory in which another directory has the name of a module's implementation. -/
def obstructed : Tree := ⟨[(["out", "demo.c"], .directory), (["out"], .directory)]⟩

theorem install_settles_obstructed : ∃ artifacts, generate handover "Demo" = .ok artifacts ∧
    Admits [] "out" artifacts ∧ ∃ error after,
      (install (treeDisk []) "out" artifacts).run (.start obstructed) = (.error error, after) ∧
      error.path = "out/demo.c" ∧
      after.now.Gains obstructed [] "out" [("demo.h", artifacts.interface)] := by
  obtain ⟨artifacts, generated⟩ := handover_generates
  obtain ⟨header, source⟩ := fileNames_of_generate generated
  have names : artifacts.interfaceFile = "demo.h" ∧ artifacts.implementationFile = "demo.c" := by
    rw [header, source]
    decide
  have admits : Admits [] "out" artifacts := by
    refine ⟨by decide, ?_, ?_⟩ <;>
      simp only [Artifacts.files, names, List.forall_mem_cons] <;> decide
  have standing : obstructed.IsDirectory [] "out" := ⟨["out"], by decide⟩
  have clear : ¬ obstructed.IsDirectory [] (join "out" artifacts.interfaceFile) := by
    rw [names.1]
    rintro ⟨here, located⟩
    cases located
  have covers : obstructed.IsDirectory [] (join "out" artifacts.implementationFile) := by
    rw [names.2]
    exact ⟨["out", "demo.c"], by decide⟩
  refine ⟨artifacts, generated, admits, ?_⟩
  have settled := (install_settles obstructed [] "out" generated fun _ => admits).2.2
  cases ran : (install (treeDisk []) "out" artifacts).run (.start obstructed) with
  | mk outcome after =>
    rw [ran] at settled
    cases outcome with
    | ok paths => exact absurd covers (settled.succeeds.1 ⟨paths, rfl⟩).2.2
    | error error =>
      have half := settled.half error rfl standing clear covers
      rw [names.1, names.2] at half
      exact ⟨error, after, rfl, half⟩

end PetriCode.Files
